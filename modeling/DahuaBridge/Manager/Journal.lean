import DahuaBridge.Manager.Threads

/-!
# What is in the log of a worker

Both services of a worker, their earlier processes and the manager itself write into one log,
which keeps the last lines only.

* `Messages`: all that a step writes, unless it handles a line of output, are messages of the
  manager.
* `Journaled`: the log is the tail of the history, and what a process has printed stands in
  the history of its worker, in its order.
* `journaled_of_run`: that is so in every state of a run.
-/

namespace DahuaBridge

/-! ## Tails -/

/-- What is in front of a tail does not matter. -/
theorem lastN_append_of_le {α : Type} {n : Nat} (front : List α) {items : List α}
    (h : n ≤ items.length) : lastN n (front ++ items) = lastN n items := by
  have hlength : (front ++ items).length - n = front.length + (items.length - n) := by
    rw [List.length_append, Nat.add_sub_assoc h]
  rw [lastN, lastN, hlength, List.drop_append, List.drop_of_length_le (Nat.le_add_right _ _),
    List.nil_append, Nat.add_sub_cancel_left]

theorem lastN_eq_self {α : Type} {n : Nat} {items : List α} (h : items.length ≤ n) :
    lastN n items = items := by
  rw [lastN, Nat.sub_eq_zero_of_le h, List.drop_zero]

theorem length_lastN {α : Type} {n : Nat} {items : List α} (h : n ≤ items.length) :
    (lastN n items).length = n := by
  rw [lastN, List.length_drop, Nat.sub_sub_self h]

/-- A log that is cut after each line is the tail of all lines. -/
theorem lastN_append_lastN {α : Type} {n : Nat} (items more : List α) :
    lastN n (lastN n items ++ more) = lastN n (items ++ more) := by
  rcases Nat.le_total n items.length with hlong | hshort
  · have hsplit : items.take (items.length - n) ++ lastN n items = items :=
      List.take_append_drop _ _
    have hle : n ≤ (lastN n items ++ more).length := by
      rw [List.length_append, length_lastN hlong]
      exact Nat.le_add_right _ _
    calc lastN n (lastN n items ++ more)
        = lastN n (items.take (items.length - n) ++ (lastN n items ++ more)) :=
          (lastN_append_of_le _ hle).symm
      _ = lastN n (items ++ more) := by rw [← List.append_assoc, hsplit]
  · rw [lastN_eq_self hshort]

theorem lastN_lastN {α : Type} {m n : Nat} (items : List α) (h : m ≤ n) :
    lastN m (lastN n items) = lastN m items := by
  rcases Nat.le_total n items.length with hlong | hshort
  · have hsplit : items.take (items.length - n) ++ lastN n items = items :=
      List.take_append_drop _ _
    have hle : m ≤ (lastN n items).length := (length_lastN hlong).symm ▸ h
    rw [← lastN_append_of_le (items.take (items.length - n)) hle, hsplit]
  · rw [lastN_eq_self hshort]

theorem lastN_map {α β : Type} {n : Nat} (f : α → β) (items : List α) :
    lastN n (items.map f) = (lastN n items).map f := by
  rw [lastN, lastN, List.length_map, List.map_drop]

/-! ## What a step writes -/

/-- The line, if the process has printed it. -/
def LogLine.printedBy (ref : ServiceRef) : LogLine → Option String
  | .printed ref' _ line => if ref' = ref then some line else none
  | .message _ => none

/-- A log, and all that was ever put into it. -/
abbrev Journal := List String × List LogLine

def Journal.write (cfg : Config) (line : LogLine) (journal : Journal) : Journal :=
  (lastN cfg.logHistoryLimit (journal.1 ++ [line.text]), journal.2 ++ [line])

def WorkerThread.journal (thread : WorkerThread) : Journal :=
  (thread.worker.logs, thread.worker.history)

def Sys.journals (s : Sys) : List Journal := s.workerHeap.map WorkerThread.journal

/-- The manager writes messages into some logs. -/
def Messages (cfg : Config) : List Journal → List Journal → Prop :=
  Relation.ReflTransGen fun journals journals' => ∃ (w : WorkerRef) (text : String),
    journals' = journals.modify w (Journal.write cfg (.message text))

/-- Changes in which no output is read. -/
inductive Silent (cfg : Config) (s : Sys) : Sys → Prop
  | refl : Silent cfg s s
  /-- A change of locks or of `_workers`. -/
  | heaps {u s' : Sys} : Silent cfg s u → s'.workerHeap = u.workerHeap →
      s'.serviceHeap = u.serviceHeap → Silent cfg s s'
  | frame {u s' : Sys} : Silent cfg s u → Frame True u s' → Messages cfg u.journals s'.journals →
      Silent cfg s s'
  /-- A process is started for a worker. -/
  | start {u : Sys} (camera : CameraId) (w : WorkerRef) (service : Service) (launch : Launch) :
      Silent cfg s u → w < u.workerHeap.length → Silent cfg s (u.addService camera w service launch)

section Silent

variable {cfg : Config} {s s' u : Sys} {w : WorkerRef} {ref : ServiceRef} {camera : CameraId}

theorem journals_appendLog (line : LogLine) :
    (s.appendLog cfg w line).journals = s.journals.modify w (Journal.write cfg line) := by
  refine List.ext_getElem? fun i => ?_
  rw [Sys.journals, Sys.journals, Sys.appendLog, Sys.modifyWorker, List.getElem?_map,
    List.getElem?_modify, List.getElem?_modify, List.getElem?_map]
  cases s.workerHeap[i]? with
  | none => rfl
  | some thread =>
    simp only [Option.map_eq_map, Option.map_some]
    split <;> rfl

theorem journals_setOnvif (onvif : OnvifWait) : (s.setOnvif w onvif).journals = s.journals :=
  map_modifyWorker fun _ => rfl

theorem journals_modifyServiceOf {service : Service} (f : ServiceState → ServiceState) :
    (s.modifyServiceOf w service f).journals = s.journals := by
  unfold Sys.modifyServiceOf
  split <;> rfl

theorem journals_addService {service : Service} (launch : Launch) :
    (s.addService camera w service launch).journals = s.journals :=
  map_modifyWorker (s := { s with serviceHeap := _ }) fun _ => rfl

theorem Messages.of_eq {journals journals' : List Journal} (h : journals' = journals) :
    Messages cfg journals journals' := h ▸ .refl

theorem Messages.appendLog {text : String} :
    Messages cfg s.journals (s.appendLog cfg w (.message text)).journals :=
  .single ⟨w, text, journals_appendLog _⟩

theorem Silent.message (w : WorkerRef) (text : String) (h : Silent cfg s u) :
    Silent cfg s (u.appendLog cfg w (.message text)) := h.frame (frame_appendLog cfg w _) .appendLog

theorem Silent.setOnvif (onvif : OnvifWait) (h : Silent cfg s u) :
    Silent cfg s (u.setOnvif w onvif) :=
  h.frame (frame_setOnvif w onvif) (.of_eq (journals_setOnvif onvif))

theorem Silent.startService {service : Service} {ok : Bool} (h : Silent cfg s u)
    (hstart : u.startService cfg camera w service ok = some s') : Silent cfg s s' := by
  simp only [Sys.startService, Option.bind_eq_bind, Option.bind_eq_some_iff] at hstart
  obtain ⟨owner, howner, _, _, _, _, hstart⟩ := hstart
  obtain rfl := Option.some.inj hstart
  exact (h.start camera w service _ (List.getElem?_eq_some_iff.mp howner).1).message w _

theorem Silent.startVendorService {ok : Bool} (h : Silent cfg s u)
    (hstart : u.startVendorService cfg camera w ok = some s') : Silent cfg s s' := by
  simp only [Sys.startVendorService, Option.bind_eq_bind, Option.bind_eq_some_iff] at hstart
  obtain ⟨owner, howner, _, _, _, _, hstart⟩ := hstart
  obtain rfl := Option.some.inj hstart
  exact (h.start camera w .rtsp _ (List.getElem?_eq_some_iff.mp howner).1).message w _

theorem Silent.getD {o : Option Sys} (hsome : ∀ t, o = some t → Silent cfg s t)
    (hnone : Silent cfg s u) : Silent cfg s (o.getD u) := by
  cases ho : o with
  | none => exact hnone
  | some t => exact hsome t ho

theorem silent_launch {ok : Bool} (h : s.launch cfg camera ok = some s') : Silent cfg s s' := by
  have hlock (holder : Option Section) : Silent cfg s (s.setLock camera holder) :=
    .heaps .refl rfl rfl
  unfold Sys.launch at h
  split at h
  · split at h
    · obtain rfl := Option.some.inj h
      exact .getD (fun u hu => (hlock none).startVendorService hu) (hlock none)
    · obtain rfl := Option.some.inj h
      exact .getD (fun u hu => (hlock _).startService hu) (hlock none)
  · cases h

theorem silent_onvifCheck {expired : Bool} (h : s.onvifCheck cfg w expired = some s') :
    Silent cfg s s' := by
  simp only [Sys.onvifCheck, Option.bind_eq_bind, Option.bind_eq_some_iff] at h
  obtain ⟨_, _, _, _, h⟩ := h
  split at h
  · obtain rfl := Option.some.inj h
    exact (Silent.message w _ .refl).setOnvif _
  · split at h
    · split at h <;> exact Option.some.inj h ▸ Silent.refl.setOnvif _
    · exact Option.some.inj h ▸ Silent.refl.setOnvif _

theorem silent_onvifWatch (h : s.onvifWatch w = some s') : Silent cfg s s' := by
  simp only [Sys.onvifWatch, Option.bind_eq_bind, Option.bind_eq_some_iff] at h
  obtain ⟨_, _, h⟩ := h
  split at h
  · obtain ⟨_, _, h⟩ := Option.bind_eq_some_iff.mp h
    split at h <;> exact Option.some.inj h ▸ Silent.refl.setOnvif _
  · cases h

theorem silent_onvifStart {ok : Bool} (h : s.onvifStart cfg w ok = some s') : Silent cfg s s' := by
  simp only [Sys.onvifStart, Option.bind_eq_bind, Option.bind_eq_some_iff] at h
  obtain ⟨thread, _, _, _, _, _, h⟩ := h
  have hdone : Silent cfg s (s.setOnvif w .done) := Silent.refl.setOnvif _
  split at h
  · obtain rfl := Option.some.inj h
    exact .getD (fun u hu => hdone.startService hu) hdone
  · obtain rfl := Option.some.inj h
    exact hdone

theorem silent_handleExit {now jitter : ℚ} (h : s.handleExit cfg ref now jitter = some s') :
    Silent cfg s s' := by
  refine .frame .refl (frame_handleExit h) ?_
  simp only [Sys.handleExit, Option.bind_eq_bind, Option.bind_eq_some_iff] at h
  obtain ⟨thread, _, _, _, _, _, _, _, h⟩ := h
  split at h
  · split at h
    · obtain ⟨_, _, h⟩ := Option.bind_eq_some_iff.mp h
      obtain rfl := Option.some.inj h
      unfold Sys.reconnectExit
      dsimp only
      split
      · refine Relation.ReflTransGen.trans ?_ Messages.appendLog
        rw [journals_modifyServiceOf]
        exact Messages.appendLog (s := (s.setReader ref _).modifyState ref _)
      · exact Messages.appendLog (s := (s.setReader ref _).modifyState ref _)
    · obtain ⟨_, _, h⟩ := Option.bind_eq_some_iff.mp h
      obtain rfl := Option.some.inj h
      unfold Sys.otherExit
      split
      · exact Messages.appendLog (s := s.modifyState ref _)
      · split <;> exact .refl
  · exact Option.some.inj h ▸ .refl

theorem Silent.restartPeer {code : Int} {ok : Bool} (h : Silent cfg s u) :
    Silent cfg s (u.restartPeer cfg camera w code ok) := by
  unfold Sys.restartPeer
  split
  · split
    · next peer _ =>
      have hkilled : Silent cfg s ((u.exitProcess peer code).appendLog cfg w
          (.message "[P2P] Restarting RTSP after the ONVIF channel detected a stalled tunnel")) :=
        (h.frame (frame_exitProcess peer code) .refl).message w _
      exact .getD (fun t ht => hkilled.startService ht) hkilled
    · exact h
  · exact h

theorem silent_restart {ok : Bool} {code : Int} {peerOk : Bool}
    (h : s.restart cfg ref ok code peerOk = some s') : Silent cfg s s' := by
  obtain ⟨thread, _, _, _, rfl⟩ := Sys.restart_eq_some h
  have hdone : Silent cfg s (s.setReader ref .done) :=
    .frame .refl (frame_setReader_done ref) .refl
  cases hown : s.restartOwn cfg ref thread ok with
  | none => exact hdone
  | some u =>
    have hrestarted : Silent cfg s u := by
      rcases Sys.restartOwn_eq_some hown with ⟨_, hu⟩ | ⟨_, rfl⟩
      · exact hdone.startService hu
      · exact hdone
    simp only
    split
    · exact hrestarted.restartPeer
    · exact hrestarted

/-- A new worker has an empty log, and no process. -/
structure NewWorker (s s' : Sys) : Prop where
  journals : s'.journals = s.journals ++ [([], [])]
  serviceHeap : s'.serviceHeap = s.serviceHeap

/-- A line of output goes into the log of its process's worker. -/
structure Reads (cfg : Config) (s : Sys) (ref : ServiceRef) (line : String) (s' : Sys) : Prop where
  frame : Frame (isReadyLine line = true) s s'
  journals : ∃ t, s.serviceHeap[ref]? = some t ∧ s'.journals = s.journals.modify t.worker
    (Journal.write cfg (.printed ref t.state.service line))

theorem reads_handleLine {raw : String} {now : ℚ} (h : s.handleLine cfg ref raw now = some s') :
    Reads cfg s ref (rstrip raw) s' := by
  refine ⟨frame_handleLine h, ?_⟩
  simp only [Sys.handleLine, Option.bind_eq_bind, Option.bind_eq_some_iff] at h
  obtain ⟨t, ht, _, _, h⟩ := h
  obtain rfl := Option.some.inj h
  refine ⟨t, ht, ?_⟩
  rw [journals_modifyServiceOf]
  exact journals_appendLog _

/-- A step reads a line, makes a worker, or is silent. -/
theorem step_cases {event : Event} (h : s.step cfg event = some s') :
    (∃ ref raw now, event = .line ref raw now ∧ Reads cfg s ref (rstrip raw) s') ∨
      (∀ ref raw now, event ≠ .line ref raw now) ∧ (NewWorker s s' ∨ Silent cfg s s') := by
  have hsilent (hne : ∀ ref raw now, event ≠ .line ref raw now) (h : Silent cfg s s') :
      (∃ ref raw now, event = .line ref raw now ∧ Reads cfg s ref (rstrip raw) s') ∨
        (∀ ref raw now, event ≠ .line ref raw now) ∧ (NewWorker s s' ∨ Silent cfg s s') :=
    .inr ⟨hne, .inr h⟩
  cases event with
  | line ref raw now => exact .inl ⟨ref, raw, now, rfl, reads_handleLine h⟩
  | start camera password =>
    obtain ⟨_, rfl⟩ := Sys.start_eq_some h
    exact hsilent (fun _ _ _ => Event.noConfusion) (.heaps .refl rfl rfl)
  | stop camera =>
    obtain ⟨_, rfl⟩ := Sys.stop_eq_some h
    exact hsilent (fun _ _ _ => Event.noConfusion) (.heaps .refl rfl rfl)
  | kill camera code =>
    obtain ⟨ref, next, rfl, _⟩ := Sys.kill_eq_some h
    exact hsilent (fun _ _ _ => Event.noConfusion)
      (.heaps (.frame .refl (frame_exitProcess ref code) .refl) rfl rfl)
  | createWorker camera =>
    obtain ⟨row, password, _, rfl | ⟨port, _, rfl⟩⟩ := Sys.createWorker_eq_some h
    · exact hsilent (fun _ _ _ => Event.noConfusion) (.heaps .refl rfl rfl)
    · exact .inr ⟨fun _ _ _ => Event.noConfusion, .inl ⟨List.map_append, rfl⟩⟩
  | launch camera ok => exact hsilent (fun _ _ _ => Event.noConfusion) (silent_launch h)
  | spawn camera =>
    obtain ⟨_, _, rfl⟩ := Sys.spawn_eq_some h
    exact hsilent (fun _ _ _ => Event.noConfusion) (.heaps (Silent.refl.setOnvif _) rfl rfl)
  | stopReturns camera =>
    obtain ⟨_, rfl⟩ := Sys.stopReturns_eq_some h
    exact hsilent (fun _ _ _ => Event.noConfusion) (.heaps .refl rfl rfl)
  | onvifCheck w expired => exact hsilent (fun _ _ _ => Event.noConfusion) (silent_onvifCheck h)
  | onvifWatch w => exact hsilent (fun _ _ _ => Event.noConfusion) (silent_onvifWatch h)
  | onvifStart w ok => exact hsilent (fun _ _ _ => Event.noConfusion) (silent_onvifStart h)
  | exit ref code =>
    obtain ⟨_, _, _, rfl⟩ := Sys.exit_eq_some h
    exact hsilent (fun _ _ _ => Event.noConfusion) (.frame .refl (frame_exitProcess ref code) .refl)
  | endOutput ref =>
    refine hsilent (fun _ _ _ => Event.noConfusion) (.frame .refl (frame_endOutput h) (.of_eq ?_))
    simp only [Sys.step, Sys.endOutput, Option.bind_eq_bind, Option.bind_eq_some_iff] at h
    obtain ⟨_, _, _, _, h⟩ := h
    exact Option.some.inj h ▸ rfl
  | handleExit ref now jitter =>
    exact hsilent (fun _ _ _ => Event.noConfusion) (silent_handleExit h)
  | restart ref ok code peerOk =>
    exact hsilent (fun _ _ _ => Event.noConfusion) (silent_restart h)

end Silent

/-! ## Runs -/

/-- The lines that a process has printed. -/
def printedBy (ref : ServiceRef) (events : List Event) : List String :=
  events.filterMap fun event =>
    match event with
    | .line ref' raw _ => if ref' = ref then some (rstrip raw) else none
    | _ => none

/-- What the history of a journal says that the process has printed. -/
def Journal.linesOf (ref : ServiceRef) (journal : Journal) : List String :=
  journal.2.filterMap (LogLine.printedBy ref)

/-- Each log is the tail of its history, and what a process has printed stands in the history of
its worker and in no other. -/
structure Journaled (cfg : Config) (events : List Event) (s : Sys) : Prop where
  kept : ∀ journal ∈ s.journals, journal.1 = lastN cfg.logHistoryLimit (journal.2.map LogLine.text)
  printed : ∀ (ref : ServiceRef) (w : WorkerRef) (journal : Journal),
    s.journals[w]? = some journal → journal.linesOf ref =
      if (s.serviceHeap[ref]?).map ServiceThread.worker = some w then printedBy ref events else []
  unheard : ∀ ref, s.serviceHeap.length ≤ ref → printedBy ref events = []
  housed : ∀ t ∈ s.serviceHeap, t.worker < s.journals.length

section Runs

variable {cfg : Config} {events : List Event} {s s' : Sys} {event : Event}

theorem journaled_init : Journaled cfg [] {} where
  kept _ h := absurd h List.not_mem_nil
  printed _ _ _ h := by cases h
  unheard _ _ := rfl
  housed _ h := absurd h List.not_mem_nil

theorem Journal.write_kept {line : LogLine} {journal : Journal}
    (h : journal.1 = lastN cfg.logHistoryLimit (journal.2.map LogLine.text)) :
    (journal.write cfg line).1 =
      lastN cfg.logHistoryLimit ((journal.write cfg line).2.map LogLine.text) := by
  rw [Journal.write, h, lastN_append_lastN, List.map_append, List.map_singleton]

theorem Journal.linesOf_write {line : LogLine} {journal : Journal} (ref : ServiceRef) :
    (journal.write cfg line).linesOf ref =
      journal.linesOf ref ++ (line.printedBy ref).toList := by
  rw [linesOf, write, List.filterMap_append, linesOf]
  cases hline : line.printedBy ref with
  | none => rw [List.filterMap_cons_none hline, List.filterMap_nil, Option.toList_none]
  | some text => rw [List.filterMap_cons_some hline, List.filterMap_nil, Option.toList_some]

/-- After a change of one journal. -/
theorem mem_modify_cases {journals : List Journal} {f : Journal → Journal} {w : WorkerRef}
    {journal : Journal} (h : journal ∈ journals.modify w f) :
    ∃ old ∈ journals, journal = old ∨ journal = f old := by
  obtain ⟨i, hi⟩ := List.mem_iff_getElem?.mp h
  rw [List.getElem?_modify] at hi
  obtain ⟨old, hold, rfl⟩ := Option.map_eq_some_iff.mp hi
  refine ⟨old, List.mem_of_getElem? hold, ?_⟩
  split
  · exact .inr rfl
  · exact .inl rfl

/-- No thread has changed its owner. -/
theorem Journaled.housed_of_map (h : Journaled cfg events s)
    (hworkers : s'.serviceHeap.map ServiceThread.worker = s.serviceHeap.map ServiceThread.worker)
    {t : ServiceThread} (ht : t ∈ s'.serviceHeap) : t.worker < s.journals.length := by
  have hmem : t.worker ∈ s.serviceHeap.map ServiceThread.worker :=
    hworkers ▸ List.mem_map_of_mem ht
  obtain ⟨u, hu, hworker⟩ := List.mem_map.mp hmem
  exact hworker ▸ h.housed u hu

/-- The heaps of threads and journals after a step that keeps the owners of the threads. -/
theorem Journaled.of_same (h : Journaled cfg events s)
    (hworkers : s'.serviceHeap.map ServiceThread.worker = s.serviceHeap.map ServiceThread.worker)
    (hlength : s'.journals.length = s.journals.length)
    (hkept : ∀ journal ∈ s'.journals,
      journal.1 = lastN cfg.logHistoryLimit (journal.2.map LogLine.text))
    (hlines : ∀ (w : WorkerRef) (journal : Journal), s'.journals[w]? = some journal →
      ∃ old, s.journals[w]? = some old ∧ ∀ ref, journal.linesOf ref = old.linesOf ref) :
    Journaled cfg events s' where
  kept := hkept
  printed ref w journal hjournal := by
    obtain ⟨old, hold, hsame⟩ := hlines w journal hjournal
    rw [hsame, h.printed ref w old hold, ← List.getElem?_map, ← List.getElem?_map, hworkers]
  unheard ref href := by
    have hsame := congrArg List.length hworkers
    rw [List.length_map, List.length_map] at hsame
    exact h.unheard ref (hsame ▸ href)
  housed t ht := hlength.symm ▸ h.housed_of_map hworkers ht

theorem Frame.map_worker {ready : Prop} (h : Frame ready s s') :
    s'.serviceHeap.map ServiceThread.worker = s.serviceHeap.map ServiceThread.worker := by
  refine List.ext_getElem? fun ref => ?_
  rw [List.getElem?_map, List.getElem?_map]
  cases ht' : s'.serviceHeap[ref]? with
  | none =>
    have hnone : s.serviceHeap[ref]? = none :=
      List.getElem?_eq_none_iff.mpr (h.length ▸ List.getElem?_eq_none_iff.mp ht')
    rw [hnone]
  | some t' =>
    obtain ⟨t, ht, hevolves⟩ := h.thread ref t' ht'
    rw [ht, Option.map_some, Option.map_some, hevolves.worker]

/-- Messages are lines of no process. -/
theorem Messages.keeps {journals journals' : List Journal} (h : Messages cfg journals journals')
    (hkept : ∀ journal ∈ journals,
      journal.1 = lastN cfg.logHistoryLimit (journal.2.map LogLine.text)) :
    journals'.length = journals.length ∧
      (∀ journal ∈ journals',
        journal.1 = lastN cfg.logHistoryLimit (journal.2.map LogLine.text)) ∧
      ∀ (w : WorkerRef) (journal : Journal), journals'[w]? = some journal →
        ∃ old, journals[w]? = some old ∧ ∀ ref, journal.linesOf ref = old.linesOf ref := by
  induction h with
  | refl => exact ⟨rfl, hkept, fun w journal hjournal => ⟨journal, hjournal, fun _ => rfl⟩⟩
  | tail _ hstep ih =>
    obtain ⟨hlength, hkept, hlines⟩ := ih
    obtain ⟨i, text, rfl⟩ := hstep
    refine ⟨(List.length_modify ..).trans hlength, fun journal hmem => ?_,
      fun w journal hjournal => ?_⟩
    · obtain ⟨old, hold, rfl | rfl⟩ := mem_modify_cases hmem
      · exact hkept _ hold
      · exact Journal.write_kept (hkept old hold)
    · rw [List.getElem?_modify] at hjournal
      obtain ⟨mid, hmid, rfl⟩ := Option.map_eq_some_iff.mp hjournal
      obtain ⟨old, hold, hsame⟩ := hlines w mid hmid
      refine ⟨old, hold, fun ref => ?_⟩
      split
      · rw [Journal.linesOf_write, LogLine.printedBy, Option.toList_none, List.append_nil, hsame]
      · exact hsame ref

/-- A new process has printed nothing yet. -/
theorem Journaled.addService {camera : CameraId} {w : WorkerRef} {service : Service}
    {launch : Launch} (h : Journaled cfg events s) (hw : w < s.workerHeap.length) :
    Journaled cfg events (s.addService camera w service launch) where
  kept := (journals_addService launch).symm ▸ h.kept
  printed ref i journal hjournal := by
    rw [journals_addService] at hjournal
    rw [h.printed ref i journal hjournal]
    rcases Nat.lt_or_ge ref s.serviceHeap.length with hold | hnew
    · have hsame : (s.addService camera w service launch).serviceHeap[ref]? = s.serviceHeap[ref]? :=
        List.getElem?_append_left hold
      rw [hsame]
    · rw [h.unheard ref hnew, ite_self, ite_self]
  unheard ref href := by
    simp only [Sys.addService, List.length_append] at href
    exact h.unheard ref (Nat.le_trans (Nat.le_add_right _ _) href)
  housed t ht := by
    rw [journals_addService]
    rcases List.mem_append.mp ht with hold | hnew
    · exact h.housed t hold
    · rw [List.mem_singleton.mp hnew, Sys.journals, List.length_map]
      exact hw

theorem Journaled.silent (h : Journaled cfg events s) (hsilent : Silent cfg s s') :
    Journaled cfg events s' := by
  induction hsilent with
  | refl => exact h
  | @heaps u s' _ hworkers hservices ih =>
    have hjournals : s'.journals = u.journals := congrArg (List.map WorkerThread.journal) hworkers
    exact ih.of_same (by rw [hservices]) (congrArg List.length hjournals) (hjournals.symm ▸ ih.kept)
      fun w journal hjournal => ⟨journal, hjournals ▸ hjournal, fun _ => rfl⟩
  | frame _ hframe hmessages ih =>
    obtain ⟨hlength, hkept, hlines⟩ := hmessages.keeps ih.kept
    exact ih.of_same hframe.map_worker hlength hkept hlines
  | start camera w service launch _ hw ih => exact ih.addService hw

theorem Journaled.newWorker (h : Journaled cfg events s) (hnew : NewWorker s s') :
    Journaled cfg events s' where
  kept journal hjournal := by
    rw [hnew.journals] at hjournal
    rcases List.mem_append.mp hjournal with hold | hnil
    · exact h.kept journal hold
    · rw [List.mem_singleton.mp hnil]
      exact (lastN_eq_self (Nat.zero_le _)).symm
  printed ref w journal hjournal := by
    rw [hnew.journals] at hjournal
    rw [hnew.serviceHeap]
    rcases Nat.lt_or_ge w s.journals.length with hlt | hge
    · rw [List.getElem?_append_left hlt] at hjournal
      exact h.printed ref w journal hjournal
    · have hmem : journal ∈ [(([], []) : Journal)] := by
        rw [List.getElem?_append_right hge] at hjournal
        exact List.mem_of_getElem? hjournal
      have hnot : ¬(s.serviceHeap[ref]?).map ServiceThread.worker = some w := fun heq => by
        obtain ⟨t, ht, rfl⟩ := Option.map_eq_some_iff.mp heq
        exact Nat.not_lt.mpr hge (h.housed t (List.mem_of_getElem? ht))
      rw [if_neg hnot, List.mem_singleton.mp hmem]
      rfl
  unheard ref href := h.unheard ref (hnew.serviceHeap ▸ href)
  housed t ht := by
    rw [hnew.journals, List.length_append]
    exact Nat.lt_of_lt_of_le (h.housed t (hnew.serviceHeap ▸ ht)) (Nat.le_add_right _ _)

theorem printedBy_concat (ref : ServiceRef) (events : List Event) (event : Event) :
    printedBy ref (events ++ [event]) = printedBy ref events ++ printedBy ref [event] :=
  List.filterMap_append

/-- The line that is read comes to the lines of its process, in the journal of its worker. -/
theorem Reads.linesOf {ref : ServiceRef} {line : String} (h : Reads cfg s ref line s')
    {w : WorkerRef} {journal : Journal} (hjournal : s'.journals[w]? = some journal) :
    ∃ old, s.journals[w]? = some old ∧ ∀ r, journal.linesOf r = old.linesOf r ++
      if r = ref ∧ (s.serviceHeap[ref]?).map ServiceThread.worker = some w then [line] else [] := by
  obtain ⟨t, ht, hjournals⟩ := h.journals
  rw [hjournals, List.getElem?_modify] at hjournal
  obtain ⟨old, hold, rfl⟩ := Option.map_eq_some_iff.mp hjournal
  refine ⟨old, hold, fun r => ?_⟩
  rw [ht, Option.map_some]
  split
  · next hw =>
    rw [Journal.linesOf_write, LogLine.printedBy, hw]
    by_cases hr : r = ref
    · rw [if_pos hr.symm, if_pos ⟨hr, rfl⟩, Option.toList_some]
    · rw [if_neg (Ne.symm hr), if_neg fun hboth => hr hboth.1, Option.toList_none]
  · next hw =>
    rw [if_neg fun hboth => hw (Option.some.inj hboth.2), List.append_nil]

theorem Reads.kept {ref : ServiceRef} {line : String} (h : Reads cfg s ref line s')
    (hkept : ∀ journal ∈ s.journals,
      journal.1 = lastN cfg.logHistoryLimit (journal.2.map LogLine.text)) :
    ∀ journal ∈ s'.journals,
      journal.1 = lastN cfg.logHistoryLimit (journal.2.map LogLine.text) := by
  obtain ⟨t, _, hjournals⟩ := h.journals
  intro journal hmem
  rw [hjournals] at hmem
  obtain ⟨old, hold, rfl | rfl⟩ := mem_modify_cases hmem
  · exact hkept _ hold
  · exact Journal.write_kept (hkept old hold)

theorem printedBy_concat_line (r ref : ServiceRef) (raw : String) (now : ℚ) (events : List Event) :
    printedBy r (events ++ [.line ref raw now]) =
      printedBy r events ++ if r = ref then [rstrip raw] else [] := by
  rw [printedBy_concat]
  by_cases hr : r = ref
  · rw [if_pos hr]
    exact congrArg _ (List.filterMap_cons_some (if_pos hr.symm))
  · rw [if_neg hr]
    exact congrArg _ (List.filterMap_cons_none (if_neg (Ne.symm hr)))

theorem Journaled.reads {ref : ServiceRef} {raw : String} {now : ℚ} (h : Journaled cfg events s)
    (hreads : Reads cfg s ref (rstrip raw) s') :
    Journaled cfg (events ++ [.line ref raw now]) s' := by
  have hworkers := hreads.frame.map_worker
  obtain ⟨t, ht, hjournals⟩ := hreads.journals
  refine ⟨hreads.kept h.kept, fun r w journal hjournal => ?_, fun r hr => ?_, fun u hu => ?_⟩
  · obtain ⟨old, hold, hlines⟩ := hreads.linesOf hjournal
    rw [hlines, h.printed r w old hold, printedBy_concat_line, ← List.getElem?_map,
      ← List.getElem?_map, ← List.getElem?_map, hworkers]
    by_cases hr : r = ref
    · subst hr
      simp only [true_and, if_true]
      split <;> rfl
    · have hnot (p : Prop) : ¬(r = ref ∧ p) := fun hboth => hr hboth.1
      simp only [if_neg (hnot _), if_neg hr, List.append_nil]
  · rw [hreads.frame.length] at hr
    have hne : r ≠ ref := fun heq =>
      Nat.not_lt.mpr (heq ▸ hr) (List.getElem?_eq_some_iff.mp ht).1
    rw [printedBy_concat_line, if_neg hne, List.append_nil]
    exact h.unheard r hr
  · rw [hjournals, List.length_modify]
    exact h.housed_of_map hworkers hu

theorem Journaled.step (h : Journaled cfg events s) (hstep : s.step cfg event = some s') :
    Journaled cfg (events ++ [event]) s' := by
  rcases step_cases hstep with ⟨ref, raw, now, rfl, hreads⟩ | ⟨hne, hrest⟩
  · exact h.reads hreads
  · have hsame (ref : ServiceRef) : printedBy ref (events ++ [event]) = printedBy ref events := by
      rw [printedBy_concat]
      cases event with
      | line ref' raw now => exact absurd rfl (hne ref' raw now)
      | _ => exact List.append_nil _
    have hjournaled : Journaled cfg events s' := hrest.elim h.newWorker h.silent
    refine ⟨hjournaled.kept, fun ref w journal hjournal => ?_, fun ref href => ?_,
      hjournaled.housed⟩
    · rw [hsame]
      exact hjournaled.printed ref w journal hjournal
    · rw [hsame]
      exact hjournaled.unheard ref href

theorem journaled_of_run (h : runManager cfg events = some s) : Journaled cfg events s :=
  Run.run_induction (I := Journaled cfg) journaled_init
    (fun _ _ _ _ _ h hstep => h.step hstep) h

end Runs

end DahuaBridge
