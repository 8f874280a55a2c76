import Mathlib.Tactic.Linarith
import Mathlib.Tactic.NormNum
import DahuaBridge.Manager.Lifecycle

/-!
# The delay before a reconnect

Exit code 75 asks for a reconnect. The delay is computed from `reconnect_attempt`
of the process's own `ServiceState`; each restart builds a new one, where the
counter is 0 again.

* `Watched`: a run with the length of the present row of quick exits beside it.
* `attempt_zero`: a process whose exit is not handled yet has counted no attempt.
* `backoff_iff_first`: the delay and the counter are those of the `n`-th exit of a
  row exactly when it is the first.
-/

namespace DahuaBridge

/-! ## Rows of quick exits -/

instance (thread : ServiceThread) : Decidable thread.Early := inferInstanceAs (Decidable (_ ∨ _))

/-- An exit with code 75 of a process that was not online for a minute. -/
def ServiceThread.quickExit (thread : ServiceThread) (now : ℚ) : Bool :=
  thread.state.process.returncode = some 75 && !thread.state.longOnline now

/-- The manager has put another process in the place of one whose exit it has not handled. -/
def Sys.replaces (s s' : Sys) (worker : WorkerRef) (service : Service) : Bool :=
  match s.serviceOf worker service with
  | some ref => s'.serviceOf worker service ≠ some ref &&
    (s.serviceHeap[ref]?).any fun thread => decide thread.Early
  | none => false

/-- How many of the successive exits of each service of each worker were quick,
up to the last one. -/
abbrev Rows := WorkerRef → Service → Nat

/-- An exit that is handled continues its row or ends it. -/
def Sys.handled (s : Sys) (event : Event) (rows : Rows) : Rows :=
  match event with
  | .handleExit ref now _ =>
    match s.serviceHeap[ref]? with
    | some thread =>
      if s.isRecorded ref thread then
        Function.update rows thread.worker (Function.update (rows thread.worker) thread.state.service
          (if thread.quickExit now then rows thread.worker thread.state.service + 1 else 0))
      else rows
    | none => rows
  | _ => rows

structure Watched where
  sys : Sys := {}
  rows : Rows := fun _ _ => 0

def Watched.step (cfg : Config) (w : Watched) (event : Event) : Option Watched :=
  (w.sys.step cfg event).map fun s' =>
    { sys := s'
      rows := fun worker service =>
        if w.sys.replaces s' worker service then 0 else w.sys.handled event w.rows worker service }

/-- Watching a run does not change it. -/
theorem watched_run (cfg : Config) (events : List Event) :
    (Run.run (Watched.step cfg) events {}).map Watched.sys = runManager cfg events := by
  refine Run.run_map fun w event => ?_
  rw [Watched.step, Option.map_map]
  exact Option.map_id'

/-! ## The counter -/

/-- A process whose exit is not handled yet has counted no attempt. -/
theorem attempt_zero {cfg : Config} {events : List Event} {s : Sys}
    (h : runManager cfg events = some s) :
    ∀ t ∈ s.serviceHeap, t.Early → t.state.reconnectAttempt = 0 := by
  refine threads_invariant ?_ ?_ (fun _ _ _ => True.intro) h
  · intro t hnew _
    exact hnew.attempt
  · intro t t' hevolves ht hearly
    exact (hevolves.attempt hearly).trans (ht (hevolves.early hearly))

section Exit

variable {cfg : Config} {s s' : Sys} {ref : ServiceRef} {thread : ServiceThread} {now jitter : ℚ}

theorem modifyState_getElem? (ref' : ServiceRef) (f : ServiceState → ServiceState)
    (h : s.serviceHeap[ref]? = some thread) : ∃ state,
      (s.modifyState ref' f).serviceHeap[ref]? = some { thread with state := state } ∧
        (state = thread.state ∨ state = f thread.state) := by
  rw [Sys.modifyState, Sys.modifyService, List.getElem?_modify, h]
  simp only [Option.map_eq_map, Option.map_some]
  split
  · exact ⟨f thread.state, rfl, .inr rfl⟩
  · exact ⟨thread.state, rfl, .inl rfl⟩

/-- The reader sleeps for the delay of the attempt that it has counted. -/
theorem reconnectExit_thread (cfg : Config) (now jitter : ℚ) (h : s.serviceHeap[ref]? = some thread) :
    ∃ t', (s.reconnectExit cfg ref thread now jitter).serviceHeap[ref]? = some t' ∧
      t'.reader = .sleeping (reconnectDelay (thread.state.reconnect now).reconnectAttempt jitter)
        (s.stuckPeer ref thread) ∧
      t'.state.reconnectAttempt = (thread.state.reconnect now).reconnectAttempt := by
  have hslept : ∀ reader, ((s.setReader ref reader).modifyState ref
      (·.reconnect now)).serviceHeap[ref]? =
        some { thread with reader, state := thread.state.reconnect now } := by
    intro reader
    simp only [Sys.setReader, Sys.modifyState, Sys.modifyService, List.getElem?_modify_eq, h]
    rfl
  unfold Sys.reconnectExit
  simp only
  split
  · -- the peer is told too, which leaves the reader and the counter alone
    next hpeer =>
    rw [hpeer]
    unfold Sys.modifyServiceOf
    split
    · next peer _ =>
      obtain ⟨state, ht', hstate⟩ := modifyState_getElem? peer ServiceState.clearError (hslept _)
      refine ⟨_, ht', rfl, ?_⟩
      rcases hstate with hstate | hstate
      · exact congrArg ServiceState.reconnectAttempt hstate
      · exact congrArg ServiceState.reconnectAttempt hstate
    · exact ⟨_, hslept _, rfl, rfl⟩
  · next hpeer =>
    rw [Bool.not_eq_true] at hpeer
    rw [hpeer]
    exact ⟨_, hslept _, rfl, rfl⟩

/-- What a worker has under a service is in its key. -/
theorem serviceOf_congr {worker : WorkerRef} (hkey : s'.keys[worker]? = s.keys[worker]?)
    (service : Service) : s'.serviceOf worker service = s.serviceOf worker service := by
  have hkeys (s : Sys) : s.serviceOf worker service =
      (s.keys[worker]?).bind fun key => key.2.get service := by
    rw [Sys.keys, List.getElem?_map, Sys.serviceOf]
    cases s.workerHeap[worker]? <;> rfl
  rw [hkeys, hkeys, hkey]

theorem serviceOf_eq (hframe : s'.keys = s.keys) (worker : WorkerRef) (service : Service) :
    s'.serviceOf worker service = s.serviceOf worker service :=
  serviceOf_congr (by rw [hframe]) service

theorem replaces_eq_false (h : s'.keys = s.keys) (worker : WorkerRef) (service : Service) :
    s.replaces s' worker service = false := by
  unfold Sys.replaces
  rw [serviceOf_eq h]
  split
  · next hget => simp [hget]
  · rfl

/-- What `handleExit` has found when it has handled an exit with code 75. -/
theorem handleExit_reconnect (hthread : s.serviceHeap[ref]? = some thread)
    (hcode : thread.state.process.returncode = some 75) (hrecorded : s.isRecorded ref thread = true)
    (h : s.handleExit cfg ref now jitter = some s') :
    thread.reader = .waiting ∧ (0 ≤ jitter ∧ jitter ≤ 5) ∧
      s' = s.reconnectExit cfg ref thread now jitter := by
  simp only [Sys.handleExit, Option.bind_eq_bind, Option.bind_eq_some_iff] at h
  obtain ⟨t, ht, _, hwaiting, code, hcode', owner, _, h⟩ := h
  obtain rfl : thread = t := Option.some.inj (hthread.symm.trans ht)
  obtain rfl : 75 = code := Option.some.inj (hcode.symm.trans hcode')
  rw [if_pos hrecorded, if_pos rfl] at h
  obtain ⟨_, hjitter, h⟩ := Option.bind_eq_some_iff.mp h
  refine ⟨by simpa using hwaiting, by simpa using hjitter, (Option.some.inj h).symm⟩

end Exit

/-! ## The delay -/

/-- The reader waits long enough for the `n`-th quick exit of a row. -/
def DelaysFor (n : Nat) (thread : ServiceThread) : Prop :=
  ∃ delay peer, thread.reader = .sleeping delay peer ∧ min 30 (2 ^ min n 5) ≤ delay

/-- It does so, and is at the first step of the counter only where the row begins. -/
def BacksOff (n : Nat) (thread : ServiceThread) : Prop :=
  DelaysFor n thread ∧ (thread.state.reconnectAttempt = 1 → n = 1)

theorem reconnectDelay_one (jitter : ℚ) : reconnectDelay 1 jitter = 2 + jitter := by
  norm_num [reconnectDelay]

/-- The delay of the first step is long enough for the first exit of a row, with luck
for the second, and for no other. -/
theorem le_reconnectDelay_one {n : Nat} {jitter : ℚ} (hn : 1 ≤ n) (h : 0 ≤ jitter ∧ jitter ≤ 5) :
    min 30 (2 ^ min n 5) ≤ reconnectDelay 1 jitter ↔ n = 1 ∨ n = 2 ∧ 2 ≤ jitter := by
  rw [reconnectDelay_one]
  obtain rfl | rfl | hn : n = 1 ∨ n = 2 ∨ 3 ≤ n := by omega
  · norm_num
    exact h.1
  · norm_num
    constructor
    · intro h
      linarith
    · intro h
      linarith
  · have hpow : (8 : ℚ) ≤ 2 ^ min n 5 := by
      calc (8 : ℚ) = 2 ^ 3 := by norm_num
        _ ≤ 2 ^ min n 5 := pow_le_pow_right₀ (by norm_num) (by omega)
    constructor
    · intro hle
      rcases min_le_iff.mp hle with hle | hle <;> linarith
    · rintro (rfl | ⟨rfl, _⟩) <;> omega

/-- In every run, the delay and the counter after a quick exit are those of its place
in its row exactly when it is the first one there; the delay alone may also be long
enough at the second. -/
theorem backoff_iff_first {cfg : Config} {events : List Event} {w w' : Watched} {ref : ServiceRef}
    {thread : ServiceThread} {now jitter : ℚ}
    (hrun : Run.run (Watched.step cfg) events {} = some w)
    (hstep : w.step cfg (.handleExit ref now jitter) = some w')
    (hthread : w.sys.serviceHeap[ref]? = some thread)
    (hrecorded : w.sys.isRecorded ref thread = true) (hquick : thread.quickExit now = true) :
    ∃ t' n, w'.sys.serviceHeap[ref]? = some t' ∧
      w'.rows thread.worker thread.state.service = n ∧ (BacksOff n t' ↔ n = 1) ∧
      (DelaysFor n t' ↔ n = 1 ∨ n = 2 ∧ 2 ≤ jitter) := by
  have hcode : thread.state.process.returncode = some 75 := by
    rw [ServiceThread.quickExit, Bool.and_eq_true, decide_eq_true_eq] at hquick
    exact hquick.1
  -- the row is one longer than before
  have hrow : w'.rows thread.worker thread.state.service =
      w.rows thread.worker thread.state.service + 1 := by
    obtain ⟨s', hs', rfl⟩ := Option.map_eq_some_iff.mp hstep
    have hframe : Frame True w.sys s' := frame_handleExit hs'
    simp only [replaces_eq_false hframe.keys, Sys.handled, hthread, hrecorded, hquick, if_true,
      Function.update_self, Bool.false_eq_true, if_false]
  obtain ⟨s', hs', hw'⟩ := Option.map_eq_some_iff.mp hstep
  obtain ⟨hwaiting, hjitter, hexit⟩ := handleExit_reconnect hthread hcode hrecorded hs'
  -- the counter was still 0
  have hsys : runManager cfg events = some w.sys := by rw [← watched_run, hrun, Option.map_some]
  have hzero := attempt_zero hsys thread (List.mem_of_getElem? hthread) (.inr hwaiting)
  have hattempt : (thread.state.reconnect now).reconnectAttempt = 1 := by
    rw [ServiceState.reconnect, hzero, ite_self]
  obtain ⟨t', ht', hreader, hcounted⟩ := reconnectExit_thread cfg now jitter hthread
  rw [hattempt] at hreader hcounted
  have hdelays : DelaysFor (w'.rows thread.worker thread.state.service) t' ↔
      w'.rows thread.worker thread.state.service = 1 ∨
        w'.rows thread.worker thread.state.service = 2 ∧ 2 ≤ jitter := by
    rw [← le_reconnectDelay_one (by omega) hjitter]
    constructor
    · rintro ⟨delay, peer, hsleeping, hle⟩
      rw [hreader] at hsleeping
      obtain ⟨rfl, _⟩ := Reader.sleeping.inj hsleeping
      exact hle
    · intro hle
      exact ⟨_, _, hreader, hle⟩
  refine ⟨t', _, by rw [← hw', hexit]; exact ht', rfl, ?_, hdelays⟩
  constructor
  · rintro ⟨_, hfirst⟩
    exact hfirst hcounted
  · intro hfirst
    exact ⟨hdelays.mpr (.inl hfirst), fun _ => hfirst⟩

/-- Two quick exits of the RTSP session in a row. -/
def twoQuickExits : List Event :=
  [.start exampleRow "secret", .createWorker 1, .launch 1 true, .spawn 1,
    .exit 0 75, .endOutput 0, .handleExit 0 10 0, .restart 0 true 0 true, .exit 1 75, .endOutput 1]

theorem twoQuickExits_before : ∃ w thread,
    Run.run (Watched.step {}) twoQuickExits {} = some w ∧
      w.sys.serviceHeap[1]? = some thread ∧ thread.worker = 0 ∧ thread.state.service = .rtsp ∧
      w.sys.isRecorded 1 thread = true ∧ thread.quickExit 30 = true ∧
      (w.step {} (.handleExit 1 30 0)).map (fun w' => w'.rows 0 .rtsp) = some 2 := by
  have hview : ((Run.run (Watched.step {}) twoQuickExits {}).bind fun w =>
      (w.sys.serviceHeap[1]?).map fun thread => (thread.worker, thread.state.service,
        w.sys.isRecorded 1 thread, thread.quickExit 30,
        (w.step {} (.handleExit 1 30 0)).map fun w' => w'.rows 0 .rtsp)) =
      some (0, .rtsp, true, true, some 2) := by decide +kernel
  obtain ⟨w, hw, hview⟩ := Option.bind_eq_some_iff.mp hview
  obtain ⟨thread, hthread, hview⟩ := Option.map_eq_some_iff.mp hview
  simp only [Prod.mk.injEq] at hview
  obtain ⟨hworker, hservice, hrecorded, hquick, hrows⟩ := hview
  exact ⟨w, thread, hw, hthread, hworker, hservice, hrecorded, hquick, hrows⟩

/-- The second one does not back off as the first one does. -/
theorem backoff_iff_first_second : ∃ w' t',
    Run.run (Watched.step {}) (twoQuickExits ++ [.handleExit 1 30 0]) {} = some w' ∧
      w'.sys.serviceHeap[1]? = some t' ∧ w'.rows 0 .rtsp = 2 ∧ ¬ BacksOff 2 t' ∧
      ¬ DelaysFor 2 t' := by
  obtain ⟨w, thread, hw, hthread, hworker, hservice, hrecorded, hquick, hrows⟩ :=
    twoQuickExits_before
  obtain ⟨w', hw', hrows⟩ := Option.map_eq_some_iff.mp hrows
  obtain ⟨t', n, ht', hn, hbacks, hdelays⟩ := backoff_iff_first hw hw' hthread hrecorded hquick
  rw [hworker, hservice, hrows] at hn
  subst hn
  refine ⟨w', t', Run.run_concat.mpr ⟨w, hw, hw'⟩, ht', hrows, fun hback => ?_, fun hdelay => ?_⟩
  · exact absurd (hbacks.mp hback) (by decide)
  · rcases hdelays.mp hdelay with hone | ⟨_, hjitter⟩
    · exact absurd hone (by decide)
    · exact absurd hjitter (by decide)

/-- The delay after the second quick exit in a row is again that of the first. -/
theorem twoQuickExits_delay : ∃ w' t',
    Run.run (Watched.step {}) (twoQuickExits ++ [.handleExit 1 30 0]) {} = some w' ∧
      w'.sys.serviceHeap[1]? = some t' ∧ w'.rows 0 .rtsp = 2 ∧ t'.reader = .sleeping 2 false ∧
      t'.state.reconnectAttempt = 1 ∧ ¬ BacksOff (w'.rows 0 .rtsp) t' := by
  have hview : (Run.run (Watched.step {}) (twoQuickExits ++ [.handleExit 1 30 0]) {}).bind
      (fun w' => (w'.sys.serviceHeap[1]?).map fun t' =>
        (w'.rows 0 .rtsp, t'.reader, t'.state.reconnectAttempt)) =
      some (2, .sleeping 2 false, 1) := by decide +kernel
  obtain ⟨w', hw', hview⟩ := Option.bind_eq_some_iff.mp hview
  obtain ⟨t', ht', hview⟩ := Option.map_eq_some_iff.mp hview
  obtain ⟨hrows, hrest⟩ := Prod.mk.inj hview
  obtain ⟨hreader, hattempt⟩ := Prod.mk.inj hrest
  refine ⟨w', t', hw', ht', hrows, hreader, hattempt, fun hbacks => ?_⟩
  have hone := hbacks.2 hattempt
  omega

end DahuaBridge
