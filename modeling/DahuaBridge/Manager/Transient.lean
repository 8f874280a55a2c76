import DahuaBridge.Manager.Journal
import DahuaBridge.Manager.Lifecycle

/-!
# Which exits are transient

An exit with another code than 0 and 75 is taken for a transient failure if a marker stands
in the last hundred lines of the worker's log. Both services of a worker, all their earlier
processes and the manager write into that log.

* `MarkerInTail`: what the decision reads, by the history of the log.
* `FailedExit.decidedAlike_iff`: two exits, in any two runs, are decided alike exactly if a
  marker is among the last hundred lines written in both runs or in neither.
* `FailedExit.printed_of_history`: the lines of the process itself are among them, each marked
  as its own.
* `foreignMarker_differs`: a line of the other service turns a failure into a retry.
-/

namespace DahuaBridge

/-! ## Decisions -/

/-- A line with one of the markers, in any case, is among the last hundred that were written. -/
def MarkerInTail (history : List LogLine) : Prop :=
  ∃ line ∈ lastN 100 history, ∃ marker ∈ TRANSIENT_FAILURE_MARKERS,
    marker.toList <:+: Text.lower line.text.toList

theorem isTransient_iff {history : List LogLine} :
    isTransient (history.map LogLine.text) = true ↔ MarkerInTail history := by
  simp only [isTransient, MarkerInTail, lastN_map, List.any_map, List.any_eq_true,
    Function.comp_apply, Text.contains_iff]

instance (history : List LogLine) : Decidable (MarkerInTail history) :=
  decidable_of_iff _ isTransient_iff

/-- The log is cut, but never below the hundred lines that are read. -/
theorem isTransient_lastN (cfg : Config) (logs : List String) :
    isTransient (lastN cfg.logHistoryLimit logs) = isTransient logs := by
  have hlimit : 100 ≤ cfg.logHistoryLimit :=
    Nat.le_trans (by decide : 100 ≤ 500) (Nat.le_max_left _ _)
  rw [isTransient, isTransient, lastN_lastN logs hlimit]

/-- The exit is taken for a transient failure: the process will be started again. -/
def Sys.Retries (s : Sys) (ref : ServiceRef) : Prop :=
  ∃ t, s.serviceHeap[ref]? = some t ∧ t.asleep = true ∧ t.state.status = .connecting

/-- The exit is final. -/
def Sys.GivesUp (s : Sys) (ref : ServiceRef) : Prop :=
  ∃ t, s.serviceHeap[ref]? = some t ∧ t.reader = .done ∧ t.state.status = .error

theorem not_givesUp_of_retries {s : Sys} {ref : ServiceRef} (h : s.Retries ref) :
    ¬s.GivesUp ref := by
  obtain ⟨t, ht, _, hstatus⟩ := h
  rintro ⟨t', ht', _, hstatus'⟩
  obtain rfl : t = t' := Option.some.inj (ht.symm.trans ht')
  cases hstatus.symm.trans hstatus'

/-- A service process of a current worker has exited with a code that is neither 0 nor 75,
and its reader has seen the end of its output. -/
structure Failed (s : Sys) (ref : ServiceRef) (code : Int) (history : List LogLine) : Prop where
  code_ne : code ≠ 0 ∧ code ≠ 75
  thread : ∃ t owner, s.serviceHeap[ref]? = some t ∧ t.state.process.returncode = some code ∧
    s.isRecorded ref t = true ∧ s.workerHeap[t.worker]? = some owner ∧
    owner.worker.history = history

section Decision

variable {cfg : Config} {events : List Event} {s s' : Sys} {ref : ServiceRef} {code : Int}
  {history : List LogLine} {now jitter : ℚ}

theorem Journaled.isTransient_iff (h : Journaled cfg events s) {w : WorkerRef}
    {owner : WorkerThread} (howner : s.workerHeap[w]? = some owner) :
    isTransient owner.worker.logs = true ↔ MarkerInTail owner.worker.history := by
  have hkept : owner.worker.logs =
      lastN cfg.logHistoryLimit (owner.worker.history.map LogLine.text) :=
    h.kept owner.journal (List.mem_map_of_mem (List.mem_of_getElem? howner))
  rw [hkept, isTransient_lastN, DahuaBridge.isTransient_iff]

/-- The decision reads the tail of the log and nothing else. -/
theorem Failed.decision (h : Failed s ref code history) (hjournaled : Journaled cfg events s)
    (hstep : s.handleExit cfg ref now jitter = some s') :
    (MarkerInTail history → s'.Retries ref) ∧ (¬MarkerInTail history → s'.GivesUp ref) := by
  obtain ⟨t, owner, ht, hcode, hrecorded, howner, hhistory⟩ := h.thread
  have htransient := hjournaled.isTransient_iff howner
  obtain ⟨hzero, hreconnect⟩ := h.code_ne
  simp only [Sys.handleExit, Option.bind_eq_bind, Option.bind_eq_some_iff] at hstep
  obtain ⟨t', ht', _, _, code', hcode', owner', howner', hstep⟩ := hstep
  obtain rfl : t = t' := Option.some.inj (ht.symm.trans ht')
  obtain rfl : code = code' := Option.some.inj (hcode.symm.trans hcode')
  obtain rfl : owner = owner' := Option.some.inj (howner.symm.trans howner')
  rw [if_pos hrecorded, if_neg hreconnect] at hstep
  obtain ⟨_, _, hstep⟩ := Option.bind_eq_some_iff.mp hstep
  obtain rfl := Option.some.inj hstep
  rw [hhistory] at htransient
  rw [Sys.otherExit]
  constructor
  · intro hmarker
    rw [if_pos ⟨hzero, htransient.mpr hmarker⟩]
    refine ⟨{ t with reader := .sleeping (cfg.transientRetrySeconds + jitter) false,
                     state := t.state.fail code .connecting }, ?_, rfl, rfl⟩
    simp only [Sys.setReader, Sys.appendLog, Sys.modifyWorker, Sys.modifyState, Sys.modifyService,
      List.getElem?_modify_eq, ht]
    rfl
  · intro hnone
    rw [if_neg fun hboth => hnone (htransient.mp hboth.2), if_neg hzero]
    refine ⟨{ t with reader := .done, state := t.state.fail code .error }, ?_, rfl, rfl⟩
    simp only [Sys.setReader, Sys.modifyState, Sys.modifyService, List.getElem?_modify_eq, ht]
    rfl

theorem Failed.retries_iff (h : Failed s ref code history) (hjournaled : Journaled cfg events s)
    (hstep : s.handleExit cfg ref now jitter = some s') :
    s'.Retries ref ↔ MarkerInTail history := by
  refine ⟨fun hretries => ?_, (h.decision hjournaled hstep).1⟩
  by_contra hnone
  exact not_givesUp_of_retries hretries ((h.decision hjournaled hstep).2 hnone)

theorem Failed.givesUp_iff (h : Failed s ref code history) (hjournaled : Journaled cfg events s)
    (hstep : s.handleExit cfg ref now jitter = some s') :
    s'.GivesUp ref ↔ ¬MarkerInTail history := by
  refine ⟨fun hgivesUp hmarker => ?_, (h.decision hjournaled hstep).2⟩
  exact not_givesUp_of_retries ((h.decision hjournaled hstep).1 hmarker) hgivesUp

end Decision

/-! ## Two runs -/

/-- A run up to the handling of an exit with another code than 0 and 75. -/
structure FailedExit (cfg : Config) where
  events : List Event
  ref : ServiceRef
  code : Int
  history : List LogLine
  (now jitter : ℚ)
  (before after : Sys)
  run : runManager cfg events = some before
  failed : Failed before ref code history
  step : before.handleExit cfg ref now jitter = some after

namespace FailedExit

variable {cfg : Config}

/-- The lines of the process that exits. -/
def printed (exit : FailedExit cfg) : List String := printedBy exit.ref exit.events

def Retried (exit : FailedExit cfg) : Prop := exit.after.Retries exit.ref

def Final (exit : FailedExit cfg) : Prop := exit.after.GivesUp exit.ref

/-- Processes that printed the same lines and ended with one code are treated alike. -/
def DecidedAlike (x y : FailedExit cfg) : Prop :=
  x.printed = y.printed → x.code = y.code → (x.Retried ↔ y.Retried) ∧ (x.Final ↔ y.Final)

/-- What was written into the worker's log says which lines are those of the process. -/
theorem printed_of_history (exit : FailedExit cfg) :
    exit.history.filterMap (LogLine.printedBy exit.ref) = exit.printed := by
  obtain ⟨t, owner, ht, _, _, howner, hhistory⟩ := exit.failed.thread
  have hjournal : exit.before.journals[t.worker]? = some owner.journal := by
    rw [Sys.journals, List.getElem?_map, howner, Option.map_some]
  have hprinted := (journaled_of_run exit.run).printed exit.ref t.worker owner.journal hjournal
  rw [ht, Option.map_some, if_pos rfl] at hprinted
  rw [← hhistory]
  exact hprinted

theorem retried_iff (exit : FailedExit cfg) : exit.Retried ↔ MarkerInTail exit.history :=
  exit.failed.retries_iff (journaled_of_run exit.run) exit.step

theorem final_iff (exit : FailedExit cfg) : exit.Final ↔ ¬MarkerInTail exit.history :=
  exit.failed.givesUp_iff (journaled_of_run exit.run) exit.step

/-- The exits of two runs are decided alike exactly if a marker is among the last hundred lines
that were written into the worker's log in both runs or in neither, whether the process, another
one or the manager wrote it. -/
theorem decidedAlike_iff (x y : FailedExit cfg) :
    DecidedAlike x y ↔ (x.printed = y.printed → x.code = y.code →
      (MarkerInTail x.history ↔ MarkerInTail y.history)) := by
  unfold DecidedAlike
  rw [x.retried_iff, y.retried_iff, x.final_iff, y.final_iff]
  constructor
  · intro halike hprinted hcode
    exact (halike hprinted hcode).1
  · intro hmarker hprinted hcode
    exact ⟨hmarker hprinted hcode, not_congr (hmarker hprinted hcode)⟩

end FailedExit

/-! ## A line of the other service -/

/-- Both services run; the ONVIF process prints a line, and the RTSP process, which has
printed nothing, exits with code 1. -/
def foreignLine (raw : String) : List Event :=
  [.start exampleRow "secret", .createWorker 1, .launch 1 true, .spawn 1, .onvifCheck 0 true,
    .onvifStart 0 true, .line 1 raw 5, .exit 0 1, .endOutput 0]

/-- What the exit of the RTSP process finds, and that it can be handled. -/
def exitView (s : Sys) : Option (Option Int × Bool × Option (List LogLine) × Bool) :=
  (s.serviceHeap[0]?).map fun t =>
    (t.state.process.returncode, s.isRecorded 0 t,
      (s.workerHeap[t.worker]?).map (·.worker.history), (s.handleExit {} 0 50 1).isSome)

theorem exists_failedExit {raw : String} {history : List LogLine}
    (hview : (runManager {} (foreignLine raw)).bind exitView =
      some (some 1, true, some history, true)) :
    ∃ exit : FailedExit {}, exit.printed = [] ∧ exit.code = 1 ∧ exit.history = history := by
  obtain ⟨s, hrun, hview⟩ := Option.bind_eq_some_iff.mp hview
  obtain ⟨t, ht, hview⟩ := Option.map_eq_some_iff.mp hview
  simp only [Prod.mk.injEq] at hview
  obtain ⟨hcode, hrecorded, hhistory, hstep⟩ := hview
  obtain ⟨owner, howner, hhistory⟩ := Option.map_eq_some_iff.mp hhistory
  obtain ⟨s', hstep⟩ := Option.isSome_iff_exists.mp hstep
  have hfailed : Failed s 0 1 history :=
    ⟨by decide, t, owner, ht, hcode, hrecorded, howner, hhistory⟩
  exact ⟨⟨foreignLine raw, 0, 1, history, 50, 1, s, s', hrun, hfailed, hstep⟩, rfl, rfl, rfl⟩

/-- A timeout of the ONVIF process turns the failure of the RTSP process into a retry. -/
theorem foreignMarker_differs :
    ∃ x y : FailedExit {}, x.printed = [] ∧ y.printed = [] ∧ x.code = 1 ∧ y.code = 1 ∧
      x.Retried ∧ y.Final ∧ ¬FailedExit.DecidedAlike x y := by
  let head : List LogLine := [.message "[P2P] [RTSP] Starting RTSP P2P session",
    .message "[P2P] RTSP negotiation did not become ready within 90s; starting ONVIF independently",
    .message "[P2P] [ONVIF] Starting ONVIF P2P session"]
  obtain ⟨x, hxprinted, hxcode, hxhistory⟩ := @exists_failedExit "connect timed out"
    (head ++ [.printed 1 .onvif "connect timed out"]) (by decide +kernel)
  obtain ⟨y, hyprinted, hycode, hyhistory⟩ := @exists_failedExit "connected"
    (head ++ [.printed 1 .onvif "connected"]) (by decide +kernel)
  have hx : x.Retried := x.retried_iff.mpr (hxhistory ▸ by decide +kernel)
  have hy : y.Final := y.final_iff.mpr (hyhistory ▸ by decide +kernel)
  refine ⟨x, y, hxprinted, hyprinted, hxcode, hycode, hx, hy, fun halike => ?_⟩
  have hiff := halike (hxprinted.trans hyprinted.symm) (hxcode.trans hycode.symm)
  exact not_givesUp_of_retries hx (hiff.2.mpr hy)

end DahuaBridge
