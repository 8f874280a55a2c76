import DahuaBridge.Lib.Locks
import DahuaBridge.Manager.State

/-!
# The order of the manager's locks

The methods of `app/p2p_manager.py` as far as they take locks: the lifecycle lock of each
camera, `_lock` and `_log_lock`. Helper calls are written out under their own names, so
that a lock which a helper takes stands inside the locks that its caller holds. A branch on
data may go either way.

* `Method.code`: the code of the methods that run on threads of their own.
* `no_lock_cycle`: lifecycle locks are taken before `_lock`, and `_lock` before
  `_log_lock`, so no threads wait in a cycle.
-/

namespace DahuaBridge

open Locks

inductive ManagerLock where
  | lifecycle (camera : CameraId)
  /-- `_lock`. -/
  | state
  /-- `_log_lock`. -/
  | log
  deriving DecidableEq

namespace ManagerLock

/-- `_log_lock` is a `Lock`, the others are `RLock`s. -/
def Reentrant (lock : ManagerLock) : Prop := lock ≠ .log

def rank : ManagerLock → Nat
  | lifecycle _ => 0
  | state => 1
  | log => 2

end ManagerLock

/-! ## The methods -/

namespace ManagerCode

abbrev Code := Locks.Code ManagerLock

/-- `if condition: body`. -/
def when (body : Code) : Code := .either body .pass

/-- `_append_worker_log`. -/
def appendWorkerLog : Code := .hold .log .pass

/-- `_lifecycle_lock_for`. -/
def lifecycleLockFor : Code := .hold .state .pass

/-- `with self._lifecycle_lock_for(camera_id): body`. -/
def withLifecycle (camera : CameraId) (body : Code) : Code :=
  .seq lifecycleLockFor (.hold (.lifecycle camera) body)

/-- `_start_vendor_service`. -/
def startVendorService : Code := appendWorkerLog

/-- `_start_service`. -/
def startService : Code := appendWorkerLog

/-- `_stop_locked`; `_terminate_process_group` takes no lock. -/
def stopLocked : Code := .hold .state .pass

def stop (camera : CameraId) : Code := withLifecycle camera stopLocked

def start (camera : CameraId) : Code :=
  withLifecycle camera
    (.seq (stop camera)
      (.seq (.hold .state .pass)
        (.either startVendorService startService)))

def startOnvifAfterRtsp (camera : CameraId) : Code :=
  .seq (.loop (.hold .state .pass))
    (.seq (when appendWorkerLog)
      (withLifecycle camera (.hold .state (when startService))))

/-- The decision about an exit, under `_lock`. -/
def decide : Code :=
  .seq (.hold .log .pass)
    (.either
      -- exit code 75
      (.seq appendWorkerLog (when appendWorkerLog))
      -- a transient failure
      (when appendWorkerLog))

def readOutput (camera : CameraId) : Code :=
  .seq (.loop (.seq appendWorkerLog (.hold .state .pass)))
    (.seq (.hold .state (when decide))
      (when
        (withLifecycle camera
          (.hold .state
            (.seq (when startService)
              (when (.seq appendWorkerLog startService)))))))

def status : Code := .seq (.hold .state .pass) (.hold .log .pass)

/-- `stop_all`, for the cameras that it finds in `_workers`. -/
def stopAll (cameras : List CameraId) : Code :=
  .seq (.hold .state .pass) (cameras.foldr (fun camera rest => .seq (stop camera) rest) .pass)

end ManagerCode

/-- What a thread may run. -/
inductive Method where
  | start (camera : CameraId)
  | stop (camera : CameraId)
  | stopAll (cameras : List CameraId)
  | status (camera : CameraId)
  | startOnvifAfterRtsp (camera : CameraId)
  | readOutput (camera : CameraId)

def Method.code : Method → ManagerCode.Code
  | start camera => ManagerCode.start camera
  | stop camera => ManagerCode.stop camera
  | stopAll cameras => ManagerCode.stopAll cameras
  | status _ => ManagerCode.status
  | startOnvifAfterRtsp camera => ManagerCode.startOnvifAfterRtsp camera
  | readOutput camera => ManagerCode.readOutput camera

/-- The code of some method. -/
def IsMethod (code : ManagerCode.Code) : Prop := ∃ method : Method, method.code = code

/-! ## The order -/

namespace ManagerCode

open ManagerLock

/-- The code keeps the order of the locks, below the ones that are held around it. -/
abbrev Ordered (around : List ManagerLock) (code : Code) : Prop :=
  Locks.Code.Ordered rank Reentrant around code

variable {around : List ManagerLock} {camera : CameraId}

/-- The locks around are lifecycle locks, or `_lock`. -/
theorem above_log (h : .log ∉ around) : Above rank Reentrant around .log := by
  intro outer houter
  left
  cases outer with
  | lifecycle camera => exact Nat.zero_lt_succ 1
  | state => exact Nat.lt_succ_self 1
  | log => exact absurd houter h

theorem above_state (h : .log ∉ around) : Above rank Reentrant around .state := by
  intro outer houter
  cases outer with
  | lifecycle camera => exact .inl (Nat.zero_lt_succ 0)
  | state => exact .inr ⟨rfl, nofun⟩
  | log => exact absurd houter h

theorem ordered_appendWorkerLog (h : .log ∉ around) : Ordered around appendWorkerLog :=
  ⟨above_log h, True.intro⟩

theorem ordered_lockState (h : .log ∉ around) : Ordered around (.hold .state .pass) :=
  ⟨above_state h, True.intro⟩

theorem ordered_when {body : Code} (h : Ordered around body) : Ordered around (when body) :=
  ⟨h, True.intro⟩

/-- A lifecycle lock is taken where no other one, nor `_lock` or `_log_lock`, is held. -/
theorem ordered_withLifecycle {body : Code} (haround : ∀ lock ∈ around, lock = .lifecycle camera)
    (h : Ordered (.lifecycle camera :: around) body) : Ordered around (withLifecycle camera body) := by
  refine ⟨ordered_lockState fun hlog => ?_, fun outer houter => .inr ⟨haround outer houter, ?_⟩, h⟩
  · cases haround .log hlog
  · exact nofun

theorem ordered_stop (haround : ∀ lock ∈ around, lock = .lifecycle camera) :
    Ordered around (stop camera) := by
  refine ordered_withLifecycle haround (ordered_lockState fun hlog => ?_)
  rcases List.mem_cons.mp hlog with hlog | hlog
  · cases hlog
  · cases haround .log hlog

theorem ordered_start : Ordered [] (start camera) := by
  refine ordered_withLifecycle nofun ⟨ordered_stop ?_, ordered_lockState ?_, ?_, ?_⟩
  · intro lock hlock
    exact List.mem_singleton.mp hlock
  · simp
  · exact ordered_appendWorkerLog (by simp)
  · exact ordered_appendWorkerLog (by simp)

theorem ordered_stopAll (cameras : List CameraId) : Ordered [] (stopAll cameras) := by
  refine ⟨ordered_lockState List.not_mem_nil, ?_⟩
  induction cameras with
  | nil => exact True.intro
  | cons camera cameras ih => exact ⟨ordered_stop nofun, ih⟩

theorem ordered_status : Ordered [] status :=
  ⟨ordered_lockState List.not_mem_nil, above_log List.not_mem_nil, True.intro⟩

theorem ordered_startOnvifAfterRtsp : Ordered [] (startOnvifAfterRtsp camera) := by
  refine ⟨ordered_lockState List.not_mem_nil,
    ordered_when (ordered_appendWorkerLog List.not_mem_nil), ordered_withLifecycle nofun ⟨?_, ?_⟩⟩
  · exact above_state (by simp)
  · exact ordered_when (ordered_appendWorkerLog (by simp))

theorem ordered_readOutput : Ordered [] (readOutput camera) := by
  have hlog : ManagerLock.log ∉ [ManagerLock.state] := by simp
  refine ⟨⟨ordered_appendWorkerLog List.not_mem_nil, ordered_lockState List.not_mem_nil⟩,
    ⟨above_state List.not_mem_nil, ordered_when ⟨⟨above_log hlog, True.intro⟩, ?_, ?_⟩⟩,
    ordered_when (ordered_withLifecycle nofun ⟨above_state (by simp), ?_, ?_⟩)⟩
  · exact ⟨ordered_appendWorkerLog hlog, ordered_when (ordered_appendWorkerLog hlog)⟩
  · exact ordered_when (ordered_appendWorkerLog hlog)
  · exact ordered_when (ordered_appendWorkerLog (by simp))
  · exact ordered_when ⟨ordered_appendWorkerLog (by simp), ordered_appendWorkerLog (by simp)⟩

/-- Every method keeps the order. -/
theorem ordered_of_isMethod {code : Code} (h : IsMethod code) : Ordered [] code := by
  obtain ⟨method, rfl⟩ := h
  cases method with
  | start camera => exact ordered_start
  | stop camera => exact ordered_stop nofun
  | stopAll cameras => exact ordered_stopAll cameras
  | status camera => exact ordered_status
  | startOnvifAfterRtsp camera => exact ordered_startOnvifAfterRtsp
  | readOutput camera => exact ordered_readOutput

end ManagerCode

/-! ## Every interleaving -/

/-- In every state that any number of threads reaches, no threads wait in a cycle, each for a
lock that the next one holds: who waits for a lifecycle lock holds neither `_lock` nor
`_log_lock` nor another camera's lifecycle lock, who waits for `_lock` does not hold
`_log_lock`, and who waits for `_log_lock` does not hold it. -/
theorem no_lock_cycle {ι : Type*} [DecidableEq ι] {threads : Threads ι ManagerLock}
    (h : Reachable ManagerLock.Reentrant IsMethod threads) :
    (∀ i, ¬Relation.TransGen (WaitsFor ManagerLock.Reentrant threads) i i) ∧
    (∀ i camera, WaitsAt threads i (.lifecycle camera) →
      .state ∉ held (threads i) ∧ .log ∉ held (threads i) ∧
        ∀ other, .lifecycle other ∈ held (threads i) → other = camera) ∧
    (∀ i, WaitsAt threads i .state → .log ∉ held (threads i)) ∧
    (∀ i, WaitsAt threads i .log → .log ∉ held (threads i)) := by
  have hinv : Inv ManagerLock.rank ManagerLock.Reentrant threads :=
    reachable_ordered (fun _ hmethod => ManagerCode.ordered_of_isMethod hmethod) h
  refine ⟨fun i => hinv.no_cycle, fun i camera hwaits => ?_, fun i hwaits hheld => ?_,
    fun i hwaits hheld => ?_⟩
  · have habove := hinv.above hwaits
    refine ⟨fun hheld => ?_, fun hheld => ?_, fun other hheld => ?_⟩
    · rcases habove _ hheld with hlt | ⟨heq, _⟩
      · exact absurd hlt (Nat.not_lt_zero _)
      · cases heq
    · rcases habove _ hheld with hlt | ⟨heq, _⟩
      · exact absurd hlt (Nat.not_lt_zero _)
      · cases heq
    · rcases habove _ hheld with hlt | ⟨heq, _⟩
      · exact absurd hlt (Nat.lt_irrefl 0)
      · exact ManagerLock.lifecycle.inj heq
  · rcases hinv.above hwaits _ hheld with hlt | ⟨heq, _⟩
    · exact absurd hlt (by decide)
    · cases heq
  · rcases hinv.above hwaits _ hheld with hlt | ⟨_, hreentrant⟩
    · exact absurd hlt (by decide)
    · exact hreentrant rfl

section Stopping

variable {ι : Type*} [DecidableEq ι] {threads : Threads ι ManagerLock} {i : ι}

/-- A thread goes on, and takes at most a lock that no thread holds. -/
theorem reachable_update {taken : Option ManagerLock} {stack stack' : List (Frame ManagerLock)}
    (h : Reachable ManagerLock.Reentrant IsMethod (Function.update threads i stack))
    (hmoves : Moves stack taken stack')
    (hfree : ∀ lock ∈ taken, lock ∉ held stack ∧ ∀ j, lock ∉ held (threads j)) :
    Reachable ManagerLock.Reentrant IsMethod (Function.update threads i stack') := by
  have hmoves : Moves (Function.update threads i stack i) taken stack' := by
    rwa [Function.update_self]
  have hstep : Step ManagerLock.Reentrant IsMethod (Function.update threads i stack)
      (Function.update (Function.update threads i stack) i stack') := by
    refine .move hmoves fun lock hlock j hheld => ?_
    by_cases hji : j = i
    · subst hji
      rw [Function.update_self] at hheld
      exact absurd hheld (hfree lock hlock).1
    · rw [Function.update_of_ne hji] at hheld
      exact absurd hheld ((hfree lock hlock).2 j)
  rw [Function.update_idem] at hstep
  exact h.tail hstep

/-- Another thread calls `stop`, and comes to the lock of the camera. -/
theorem stop_reachable (h : Reachable ManagerLock.Reentrant IsMethod threads)
    (hidle : threads i = []) (hfree : ∀ j, .state ∉ held (threads j)) (camera : CameraId) :
    Reachable ManagerLock.Reentrant IsMethod (Function.update threads i
      [.run (.hold (.lifecycle camera) ManagerCode.stopLocked)]) := by
  have hnone {stack : List (Frame ManagerLock)} : ∀ lock ∈ (none : Option ManagerLock),
      lock ∉ held stack ∧ ∀ j, lock ∉ held (threads j) := fun lock hlock => by cases hlock
  have hcalled := h.tail (Step.call hidle ⟨.stop camera, rfl⟩)
  have hfirst := reachable_update hcalled .seq hnone
  have htaken := reachable_update hfirst .take fun lock hlock => by
    obtain rfl := Option.some.inj hlock
    exact ⟨List.not_mem_nil, hfree⟩
  have hpassed := reachable_update htaken .leave hnone
  exact reachable_update hpassed .release hnone

end Stopping

/-- One thread stops a camera, and another one waits to do so. -/
def twoStopping : Threads Bool ManagerLock
  | true => [.run ManagerCode.stopLocked, .release (.lifecycle 1)]
  | false => [.run (.hold (.lifecycle 1) ManagerCode.stopLocked)]

theorem twoStopping_reachable : Reachable ManagerLock.Reentrant IsMethod twoStopping := by
  have hfirst := @stop_reachable Bool _ (fun _ => []) true .refl rfl (fun _ => List.not_mem_nil) 1
  have hstops := reachable_update hfirst .take fun lock hlock => by
    obtain rfl := Option.some.inj hlock
    exact ⟨List.not_mem_nil, fun _ => List.not_mem_nil⟩
  have hboth := stop_reachable (i := false) hstops rfl ?_ 1
  · convert hboth using 1
    funext thread
    cases thread <;> rfl
  · intro thread
    cases thread <;> decide

theorem no_lock_cycle_stopping : Reachable ManagerLock.Reentrant IsMethod twoStopping ∧
    WaitsFor ManagerLock.Reentrant twoStopping false true ∧
    ¬WaitsFor ManagerLock.Reentrant twoStopping true false ∧ .log ∉ held (twoStopping true) := by
  have hwaits : WaitsFor ManagerLock.Reentrant twoStopping false true :=
    ⟨.lifecycle 1, ⟨_, _, rfl⟩, List.mem_singleton.mpr rfl, fun h => by cases h.1⟩
  have hcycle := no_lock_cycle twoStopping_reachable
  exact ⟨twoStopping_reachable, hwaits, fun hback => hcycle.1 false (.tail (.single hwaits) hback),
    hcycle.2.2.1 true ⟨_, _, rfl⟩⟩

end DahuaBridge
