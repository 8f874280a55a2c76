import DahuaBridge.Manager.Step

/-!
# What a step does to the threads

Each operation on the heaps is described once, and the invariants use only these
descriptions.

* `Evolves ready t t'`: what a step can do to one service state, its process and
  its reader. `ready` says that a `READY` line may be among the causes.
* `Frame`: the step touches no lock, no worker table and no `services` dict, and
  starts no process.
* `kill_eq_some`, `createWorker_eq_some`, `restart_eq_some` and those beside them: what an
  event around a lock has found, and the state after it.
* `step_evolves`: every step makes every thread evolve, or starts it.
-/

namespace DahuaBridge

/-! ## One thread -/

/-- The exit of the process has not been handled. -/
def ServiceThread.Early (thread : ServiceThread) : Prop :=
  thread.reader = .reading ∨ thread.reader = .waiting

/-- What can happen to a service thread in one step. -/
structure Evolves (ready : Prop) (t t' : ServiceThread) : Prop where
  cameraId : t'.cameraId = t.cameraId
  worker : t'.worker = t.worker
  service : t'.state.service = t.state.service
  launch : t'.state.process.launch = t.state.process.launch
  alive : t'.alive = true → t.alive = true
  asleep : t'.asleep = true → t'.alive = false ∨ t.asleep = true
  early : t'.Early → t.Early
  attempt : t'.Early → t'.state.reconnectAttempt = t.state.reconnectAttempt
  online : t'.state.status = .online → t.state.status = .online ∨ t.state.service = .rtsp ∨ ready

theorem Evolves.refl {ready : Prop} (t : ServiceThread) : Evolves ready t t :=
  ⟨rfl, rfl, rfl, rfl, id, .inr, id, fun _ => rfl, .inl⟩

theorem Evolves.trans {ready : Prop} {t t' t'' : ServiceThread} (h : Evolves ready t t')
    (h' : Evolves ready t' t'') : Evolves ready t t'' where
  cameraId := h'.cameraId.trans h.cameraId
  worker := h'.worker.trans h.worker
  service := h'.service.trans h.service
  launch := h'.launch.trans h.launch
  alive := h.alive ∘ h'.alive
  asleep ha := by
    rcases h'.asleep ha with hdead | ha'
    · exact .inl hdead
    rcases h.asleep ha' with hdead | ha
    · exact .inl (Bool.eq_false_iff.mpr fun halive => by simp [h'.alive halive] at hdead)
    · exact .inr ha
  early := h.early ∘ h'.early
  attempt he := (h'.attempt he).trans (h.attempt (h'.early he))
  online ho := by
    rcases h'.online ho with ho | hs | hr
    · exact h.online ho
    · exact .inr (.inl (h.service ▸ hs))
    · exact .inr (.inr hr)

/-- A change of the state alone, which starts no process and counts no attempt. -/
theorem Evolves.of_state {ready : Prop} {t : ServiceThread} {state : ServiceState}
    (hservice : state.service = t.state.service)
    (hlaunch : state.process.launch = t.state.process.launch)
    (halive : state.process.returncode.isNone = true →
      t.state.process.returncode.isNone = true)
    (hattempt : state.reconnectAttempt = t.state.reconnectAttempt)
    (honline : state.status = .online →
      t.state.status = .online ∨ t.state.service = .rtsp ∨ ready) :
    Evolves ready t { t with state := state } :=
  ⟨rfl, rfl, hservice, hlaunch, halive, .inr, id, fun _ => hattempt, honline⟩

/-- The reader moves on; it falls asleep only when the process is dead. -/
theorem Evolves.of_reader {ready : Prop} {t : ServiceThread} {reader : Reader}
    (hasleep : ∀ delay peer, reader = .sleeping delay peer → t.alive = false)
    (hearly : reader = .reading ∨ reader = .waiting → t.Early) :
    Evolves ready t { t with reader := reader } := by
  refine ⟨rfl, rfl, rfl, rfl, id, ?_, hearly, fun _ => rfl, .inl⟩
  intro ha
  left
  cases reader with
  | sleeping delay peer => exact hasleep delay peer rfl
  | reading => cases ha
  | waiting => cases ha
  | done => cases ha

/-- A thread right after `Popen`. -/
structure ServiceThread.Newborn (thread : ServiceThread) : Prop where
  reader : thread.reader = .reading
  status : thread.state.status = .connecting
  attempt : thread.state.reconnectAttempt = 0

/-! ## Heaps -/

/-- The part of a worker that the lifecycle depends on. -/
def WorkerThread.key (thread : WorkerThread) : CameraId × Services :=
  (thread.worker.camera.id, thread.worker.services)

/-- A step that only writes to states, readers, logs and ONVIF threads. -/
structure Frame (ready : Prop) (s s' : Sys) : Prop where
  workers : s'.workers = s.workers
  lock : s'.lock = s.lock
  stopped : s'.stopped = s.stopped
  keys : s'.workerHeap.map WorkerThread.key = s.workerHeap.map WorkerThread.key
  length : s'.serviceHeap.length = s.serviceHeap.length
  thread : ∀ (ref : ServiceRef) (t' : ServiceThread), s'.serviceHeap[ref]? = some t' →
    ∃ t, s.serviceHeap[ref]? = some t ∧ Evolves ready t t'

/-- Every thread evolves from what it was, or is new. -/
structure Sys.Evolves (ready : Prop) (s s' : Sys) : Prop where
  length : s.serviceHeap.length ≤ s'.serviceHeap.length
  thread : ∀ (ref : ServiceRef) (t' : ServiceThread), s'.serviceHeap[ref]? = some t' →
    (∃ t, s.serviceHeap[ref]? = some t ∧ DahuaBridge.Evolves ready t t') ∨
    (s.serviceHeap.length ≤ ref ∧ ∃ t, t.Newborn ∧ DahuaBridge.Evolves ready t t')

/-! ## The events around the locks -/

namespace Sys

section Events

variable {cfg : Config} {s s' : Sys} {camera : CameraId} {ref : ServiceRef} {code : Int}

theorem start_eq_some {row : Camera} {password : String}
    (h : s.step cfg (.start row password) = some s') : s.lock row.id = none ∧
      s' = { s.popWorker row.id (.start row password) with
        stopped := Function.update s.stopped row.id false } := by
  simp only [step] at h
  split at h
  · next hfree => exact ⟨Option.isNone_iff_eq_none.mp hfree, (Option.some.inj h).symm⟩
  · cases h

theorem stop_eq_some (h : s.step cfg (.stop camera) = some s') :
    s.lock camera = none ∧ s' = s.popWorker camera .stop := by
  simp only [step] at h
  split at h
  · next hfree => exact ⟨Option.isNone_iff_eq_none.mp hfree, (Option.some.inj h).symm⟩
  · cases h

/-- The holder of the lock terminates a process, and goes on with the others. -/
theorem kill_eq_some (h : s.kill camera code = some s') : ∃ ref next,
    s' = (s.exitProcess ref code).setLock camera (some next) ∧
      ((∃ remaining, s.lock camera = some (.stop (ref :: remaining)) ∧ next = .stop remaining) ∨
        ∃ row password remaining, s.lock camera = some (.start row password (ref :: remaining)) ∧
          next = .start row password remaining) := by
  unfold kill at h
  split at h
  · next ref remaining hlock =>
    exact ⟨ref, _, (Option.some.inj h).symm, .inl ⟨remaining, hlock, rfl⟩⟩
  · next row password ref remaining hlock =>
    exact ⟨ref, _, (Option.some.inj h).symm, .inr ⟨row, password, remaining, hlock, rfl⟩⟩
  · cases h

/-- `start` gives up, or enters a new worker. -/
theorem createWorker_eq_some (h : s.createWorker cfg camera = some s') :
    ∃ row password, s.lock camera = some (.start row password []) ∧
      (s' = s.setLock camera none ∨ ∃ port, cfg.portFor camera = some port ∧
        s' = { s with
          workers := Function.update s.workers camera (some s.workerHeap.length)
          workerHeap := s.workerHeap ++ [{ worker := { port, camera := row, password } }]
          lock := Function.update s.lock camera (some (.launch s.workerHeap.length)) }) := by
  unfold createWorker at h
  split at h
  · next row password hlock =>
    refine ⟨row, password, hlock, ?_⟩
    split at h
    · split at h
      · exact .inl (Option.some.inj h).symm
      · next port hport => exact .inr ⟨port, hport, (Option.some.inj h).symm⟩
    · exact .inl (Option.some.inj h).symm
  · cases h

theorem spawn_eq_some (h : s.spawn camera = some s') : ∃ w, s.lock camera = some (.spawn w) ∧
    s' = (s.setOnvif w .polling).setLock camera none := by
  unfold spawn at h
  split at h
  · next w hlock => exact ⟨w, hlock, (Option.some.inj h).symm⟩
  · cases h

theorem stopReturns_eq_some (h : s.stopReturns camera = some s') :
    s.lock camera = some (.stop []) ∧
      s' = { s.setLock camera none with stopped := Function.update s.stopped camera true } := by
  unfold stopReturns at h
  split at h
  · next hlock => exact ⟨hlock, (Option.some.inj h).symm⟩
  · cases h

theorem exit_eq_some (h : s.step cfg (.exit ref code) = some s') :
    ∃ t, s.serviceHeap[ref]? = some t ∧ t.alive = true ∧ s' = s.exitProcess ref code := by
  simp only [step] at h
  split at h
  · next t ht =>
    split at h
    · next halive => exact ⟨t, ht, halive, (Option.some.inj h).symm⟩
    · cases h
  · cases h

/-! ### A restart -/

/-- The reader's thread ends, after it has started its own service again if that is still
recorded; `none` when that raises. -/
def restartOwn (cfg : Config) (s : Sys) (ref : ServiceRef) (thread : ServiceThread) (ok : Bool) :
    Option Sys :=
  if s.isRecorded ref thread then
    (s.setReader ref .done).startService cfg thread.cameraId thread.worker thread.state.service ok
  else some (s.setReader ref .done)

theorem restartOwn_eq_some {thread : ServiceThread} {ok : Bool}
    (h : s.restartOwn cfg ref thread ok = some s') :
    (s.isRecorded ref thread = true ∧ (s.setReader ref .done).startService cfg thread.cameraId
      thread.worker thread.state.service ok = some s') ∨
      (s.isRecorded ref thread = false ∧ s' = s.setReader ref .done) := by
  unfold restartOwn at h
  split at h
  · next hrecorded => exact .inl ⟨hrecorded, h⟩
  · next hrecorded => exact .inr ⟨Bool.eq_false_iff.mpr hrecorded, (Option.some.inj h).symm⟩

/-- What a restart does, in its two parts. -/
theorem restart_eq_some {ok peerOk : Bool} (h : s.restart cfg ref ok code peerOk = some s') :
    ∃ thread, s.serviceHeap[ref]? = some thread ∧ thread.asleep = true ∧
      s.lock thread.cameraId = none ∧
      s' = match s.restartOwn cfg ref thread ok with
        | some u => if thread.reader.awaitsPeer then
            u.restartPeer cfg thread.cameraId thread.worker code peerOk else u
        | none => s.setReader ref .done := by
  simp only [restart, Option.bind_eq_bind, Option.bind_eq_some_iff] at h
  obtain ⟨thread, hthread, h⟩ := h
  split at h
  · next delay awaits hreader =>
    obtain ⟨_, hfree, h⟩ := Option.bind_eq_some_iff.mp h
    refine ⟨thread, hthread, by rw [ServiceThread.asleep, hreader], by simpa using hfree, ?_⟩
    rw [hreader, Reader.awaitsPeer, restartOwn]
    have hrecorded : (s.setReader ref .done).isRecorded ref thread = s.isRecorded ref thread := rfl
    rw [hrecorded] at h
    split at h
    · next hrecorded =>
      rw [if_pos hrecorded]
      split at h
      · next u hu =>
        have heq := (Option.some.inj h).symm
        simpa only [hu] using heq
      · next hnone =>
        have heq := (Option.some.inj h).symm
        simpa only [hnone] using heq
    · next hrecorded =>
      rw [if_neg hrecorded]
      exact (Option.some.inj h).symm
  · cases h

end Events

end Sys

section Frame

variable {ready : Prop} {s s' s'' : Sys}

theorem Frame.refl (s : Sys) : Frame ready s s :=
  ⟨rfl, rfl, rfl, rfl, rfl, fun _ t h => ⟨t, h, .refl t⟩⟩

theorem Frame.trans (h : Frame ready s s') (h' : Frame ready s' s'') : Frame ready s s'' where
  workers := h'.workers.trans h.workers
  lock := h'.lock.trans h.lock
  stopped := h'.stopped.trans h.stopped
  keys := h'.keys.trans h.keys
  length := h'.length.trans h.length
  thread ref t'' ht'' := by
    obtain ⟨t', ht', hevolves'⟩ := h'.thread ref t'' ht''
    obtain ⟨t, ht, hevolves⟩ := h.thread ref t' ht'
    exact ⟨t, ht, hevolves.trans hevolves'⟩

theorem Frame.evolves (h : Frame ready s s') : s.Evolves ready s' :=
  ⟨Nat.le_of_eq h.length.symm, fun ref t' ht' => .inl (h.thread ref t' ht')⟩

theorem Sys.Evolves.trans (h : s.Evolves ready s') (h' : s'.Evolves ready s'') :
    s.Evolves ready s'' where
  length := Nat.le_trans h.length h'.length
  thread ref t'' ht'' := by
    rcases h'.thread ref t'' ht'' with ⟨t', ht', hevolves'⟩ | ⟨href, t, hnew, hevolves⟩
    · rcases h.thread ref t' ht' with ⟨t, ht, hevolves⟩ | ⟨href, t, hnew, hevolves⟩
      · exact .inl ⟨t, ht, hevolves.trans hevolves'⟩
      · exact .inr ⟨href, t, hnew, hevolves.trans hevolves'⟩
    · exact .inr ⟨Nat.le_trans h.length href, t, hnew, hevolves⟩

/-- A step that leaves the service heap alone. -/
theorem Sys.Evolves.of_eq (h : s'.serviceHeap = s.serviceHeap) : s.Evolves ready s' where
  length := Nat.le_of_eq (by rw [h])
  thread ref t' ht' := .inl ⟨t', h ▸ ht', .refl t'⟩

theorem frame_modifyService {ref : ServiceRef} {f : ServiceThread → ServiceThread}
    (hf : ∀ t, s.serviceHeap[ref]? = some t → DahuaBridge.Evolves ready t (f t)) :
    Frame ready s (s.modifyService ref f) where
  workers := rfl
  lock := rfl
  stopped := rfl
  keys := rfl
  length := List.length_modify ..
  thread ref' t' ht' := by
    rw [Sys.modifyService, List.getElem?_modify] at ht'
    obtain ⟨t, ht, rfl⟩ := Option.map_eq_some_iff.mp ht'
    refine ⟨t, ht, ?_⟩
    split
    · next href => exact hf t (href ▸ ht)
    · exact .refl t

/-- A change of a worker that keeps what `g` reads keeps it for the heap. -/
theorem map_modifyWorker {β : Type*} {g : WorkerThread → β} {ref : WorkerRef}
    {f : WorkerThread → WorkerThread} (hf : ∀ t, g (f t) = g t) :
    (s.modifyWorker ref f).workerHeap.map g = s.workerHeap.map g := by
  refine List.ext_getElem? fun i => ?_
  rw [List.getElem?_map, List.getElem?_map, Sys.modifyWorker, List.getElem?_modify]
  cases s.workerHeap[i]? with
  | none => rfl
  | some t =>
    simp only [Option.map_eq_map, Option.map_some]
    split
    · rw [hf t]
    · rfl

theorem frame_modifyWorker {ref : WorkerRef} {f : WorkerThread → WorkerThread}
    (hf : ∀ t, (f t).key = t.key) : Frame ready s (s.modifyWorker ref f) where
  workers := rfl
  lock := rfl
  stopped := rfl
  keys := map_modifyWorker hf
  length := rfl
  thread _ t ht := ⟨t, ht, .refl t⟩

/-! ## The operations -/

theorem frame_modifyState {ref : ServiceRef} {f : ServiceState → ServiceState}
    (hf : ∀ t, s.serviceHeap[ref]? = some t →
      DahuaBridge.Evolves ready t { t with state := f t.state }) :
    Frame ready s (s.modifyState ref f) := frame_modifyService hf

theorem frame_setReader {ref : ServiceRef} {reader : Reader}
    (hf : ∀ t, s.serviceHeap[ref]? = some t →
      DahuaBridge.Evolves ready t { t with reader := reader }) :
    Frame ready s (s.setReader ref reader) := frame_modifyService hf

theorem frame_setReader_done (ref : ServiceRef) : Frame ready s (s.setReader ref .done) :=
  frame_setReader fun t _ => .of_reader (fun _ _ h => by cases h) fun h => by
    rcases h with h | h <;> cases h

theorem frame_setOnvif (ref : WorkerRef) (onvif : OnvifWait) :
    Frame ready s (s.setOnvif ref onvif) := frame_modifyWorker fun _ => rfl

theorem frame_appendLog (cfg : Config) (ref : WorkerRef) (line : LogLine) :
    Frame ready s (s.appendLog cfg ref line) := frame_modifyWorker fun _ => rfl

theorem frame_modifyServiceOf {ref : WorkerRef} {service : Service}
    {f : ServiceState → ServiceState}
    (hf : ∀ t : ServiceThread, DahuaBridge.Evolves ready t { t with state := f t.state }) :
    Frame ready s (s.modifyServiceOf ref service f) := by
  unfold Sys.modifyServiceOf
  split
  · exact frame_modifyState fun t _ => hf t
  · exact .refl s

theorem frame_exitProcess (ref : ServiceRef) (code : Int) :
    Frame ready s (s.exitProcess ref code) := by
  refine frame_modifyState fun t _ => .of_state rfl rfl ?_ rfl .inl
  simp only [ServiceState.exited]
  cases t.state.process.returncode with
  | none => exact fun _ => rfl
  | some _ => exact id

theorem evolves_addService (s : Sys) (camera : CameraId) (worker : WorkerRef) (service : Service)
    (launch : Launch) : s.Evolves ready (s.addService camera worker service launch) where
  length := by simp [Sys.addService]
  thread ref t' ht' := by
    simp only [Sys.addService] at ht'
    rcases Nat.lt_or_ge ref s.serviceHeap.length with hlt | hge
    · rw [List.getElem?_append_left hlt] at ht'
      exact .inl ⟨t', ht', .refl t'⟩
    · rw [List.getElem?_append_right hge] at ht'
      have hmem := List.mem_singleton.mp (List.mem_of_getElem? ht')
      exact .inr ⟨hge, t', hmem ▸ ⟨rfl, rfl, rfl⟩, .refl t'⟩

/-- A process has been started under the service, and that has been logged. -/
def Sys.Started (cfg : Config) (s : Sys) (camera : CameraId) (worker : WorkerRef)
    (service : Service) (s' : Sys) : Prop :=
  ∃ launch message,
    s' = (s.addService camera worker service launch).appendLog cfg worker (.message message)

theorem startService_eq_some {cfg : Config} {camera : CameraId} {worker : WorkerRef}
    {service : Service} {ok : Bool} (h : s.startService cfg camera worker service ok = some s') :
    s.Started cfg camera worker service s' := by
  simp only [Sys.startService, Option.bind_eq_bind, Option.bind_eq_some_iff] at h
  obtain ⟨owner, _, bindPort, _, _, _, h⟩ := h
  exact ⟨_, _, (Option.some.inj h).symm⟩

theorem startVendorService_eq_some {cfg : Config} {camera : CameraId} {worker : WorkerRef}
    {ok : Bool} (h : s.startVendorService cfg camera worker ok = some s') :
    s.Started cfg camera worker .rtsp s' := by
  simp only [Sys.startVendorService, Option.bind_eq_bind, Option.bind_eq_some_iff] at h
  obtain ⟨owner, _, _, _, _, _, h⟩ := h
  exact ⟨_, _, (Option.some.inj h).symm⟩

theorem evolves_started {cfg : Config} {camera : CameraId} {worker : WorkerRef} {service : Service}
    (h : s.Started cfg camera worker service s') : s.Evolves ready s' := by
  obtain ⟨launch, message, rfl⟩ := h
  exact (evolves_addService s camera worker service launch).trans
    (frame_appendLog cfg worker (.message message)).evolves

/-! ## The events -/

theorem lineKind_ready {service : Service} {line : String} {remote : Option String}
    (h : lineKind service line = .ready remote) : isReadyLine line = true := by
  by_contra hne
  rw [lineKind, if_neg hne] at h
  repeat' split at h
  all_goals cases h

theorem lineKind_media {service : Service} {line : String}
    (h : lineKind service line = .media) : service = .rtsp := by
  rw [lineKind] at h
  split at h
  · cases h
  split at h
  · next hmedia =>
    rw [Bool.and_eq_true, decide_eq_true_eq] at hmedia
    exact hmedia.2
  repeat' split at h
  all_goals cases h

theorem evolves_onLine (t : ServiceThread) (line : String) (now : ℚ) :
    DahuaBridge.Evolves (isReadyLine line = true) t { t with state := t.state.onLine line now } := by
  unfold ServiceState.onLine
  cases hkind : lineKind t.state.service line with
  | ready remote => exact .of_state rfl rfl id rfl fun _ => .inr (.inr (lineKind_ready hkind))
  | media => exact .of_state rfl rfl id rfl fun _ => .inr (.inl (lineKind_media hkind))
  | transport => exact .of_state rfl rfl id rfl .inl
  | onvifUnavailable => exact .refl t
  | error => exact .of_state rfl rfl id rfl .inl
  | other => exact .refl t

theorem evolves_onOnvif (t : ServiceThread) {kind : LineKind}
    (hkind : ∀ remote, kind = .ready remote → ready) :
    DahuaBridge.Evolves ready t { t with state := t.state.onOnvif kind } := by
  unfold ServiceState.onOnvif
  cases kind with
  | ready remote =>
    simp only
    split
    · exact .of_state rfl rfl id rfl fun _ => .inr (.inr (hkind remote rfl))
    · exact .refl t
  | onvifUnavailable => exact .of_state rfl rfl id rfl fun h => by cases h
  | media => exact .refl t
  | transport => exact .refl t
  | error => exact .refl t
  | other => exact .refl t

theorem frame_handleLine {cfg : Config} {ref : ServiceRef} {raw : String} {now : ℚ}
    (h : s.handleLine cfg ref raw now = some s') :
    Frame (isReadyLine (rstrip raw) = true) s s' := by
  simp only [Sys.handleLine, Option.bind_eq_bind, Option.bind_eq_some_iff] at h
  obtain ⟨thread, _, _, _, h⟩ := h
  obtain rfl := Option.some.inj h
  refine ((frame_appendLog cfg _ _).trans (frame_modifyState fun t _ => ?_)).trans
    (frame_modifyServiceOf fun t => ?_)
  · exact evolves_onLine t (rstrip raw) now
  · exact evolves_onOnvif t fun remote hkind => lineKind_ready hkind

theorem frame_endOutput {ref : ServiceRef} (h : s.endOutput ref = some s') : Frame ready s s' := by
  simp only [Sys.endOutput, Option.bind_eq_bind, Option.bind_eq_some_iff] at h
  obtain ⟨thread, hthread, _, hreading, h⟩ := h
  obtain rfl := Option.some.inj h
  have hreading : thread.reader = .reading := by simpa using hreading
  refine (frame_modifyState fun t _ => .of_state rfl rfl id rfl
    .inl).trans (frame_setReader fun t ht => .of_reader (fun _ _ h => by cases h) fun _ => ?_)
  simp only [Sys.modifyState, Sys.modifyService, List.getElem?_modify_eq, hthread] at ht
  obtain rfl := Option.some.inj ht
  exact .inl hreading

theorem reader_of_setReader {ref : ServiceRef} {reader : Reader} {t : ServiceThread}
    (h : (s.setReader ref reader).serviceHeap[ref]? = some t) : t.reader = reader := by
  rw [Sys.setReader, Sys.modifyService, List.getElem?_modify_eq] at h
  obtain ⟨_, _, rfl⟩ := Option.map_eq_some_iff.mp h
  rfl

theorem evolves_clearError (t : ServiceThread) :
    DahuaBridge.Evolves ready t { t with state := t.state.clearError } :=
  .of_state rfl rfl id rfl .inl

theorem frame_reconnectExit {cfg : Config} {ref : ServiceRef} {thread : ServiceThread}
    {now jitter : ℚ} (hthread : s.serviceHeap[ref]? = some thread) (hdead : thread.alive = false) :
    Frame ready s (s.reconnectExit cfg ref thread now jitter) := by
  unfold Sys.reconnectExit
  -- the reader is asleep before the attempt is counted
  have hasleep (reader : Reader) (hr : reader ≠ .reading ∧ reader ≠ .waiting) :
      Frame ready s ((s.setReader ref reader).modifyState ref (·.reconnect now)) := by
    refine (frame_setReader fun t ht => .of_reader (fun _ _ _ => ?_) fun he => ?_).trans
      (frame_modifyState fun t ht => ?_)
    · rw [hthread] at ht
      rw [← Option.some.inj ht, hdead]
    · exact absurd he (not_or.mpr hr)
    · have hreader := reader_of_setReader ht
      refine ⟨rfl, rfl, rfl, rfl, id, .inr, id, fun he => absurd he ?_, fun h => by cases h⟩
      exact fun he => not_or.mpr hr (hreader ▸ he)
  simp only
  split
  · exact ((hasleep _ ⟨by simp, by simp⟩).trans (frame_appendLog cfg _ _)).trans
      ((frame_modifyServiceOf evolves_clearError).trans (frame_appendLog cfg _ _))
  · exact (hasleep _ ⟨by simp, by simp⟩).trans (frame_appendLog cfg _ _)

theorem evolves_fail (t : ServiceThread) (code : Int) {status : Status} (h : status ≠ .online) :
    DahuaBridge.Evolves ready t { t with state := t.state.fail code status } :=
  .of_state rfl rfl id rfl fun ho => absurd ho h

theorem frame_otherExit {cfg : Config} {ref : ServiceRef} {thread : ServiceThread} {code : Int}
    {logs : List String} {jitter : ℚ} (hthread : s.serviceHeap[ref]? = some thread)
    (hdead : thread.alive = false) :
    Frame ready s (s.otherExit cfg ref thread code logs jitter) := by
  unfold Sys.otherExit
  split
  · refine ((frame_modifyState fun t _ => evolves_fail t code (by decide)).trans
      (frame_appendLog cfg _ _)).trans (frame_setReader fun t ht => .of_reader (fun _ _ _ => ?_) ?_)
    · have hheap : ((s.modifyState ref (ServiceState.fail code .connecting)).appendLog cfg
          thread.worker (.message ("[P2P] Transient Easy4IP failure; retrying in " ++
            toString cfg.transientRetrySeconds ++ " seconds"))).serviceHeap[ref]? =
          some { thread with state := thread.state.fail code .connecting } := by
        simp only [Sys.appendLog, Sys.modifyWorker, Sys.modifyState, Sys.modifyService,
          List.getElem?_modify_eq, hthread]
        rfl
      rw [hheap] at ht
      rw [← Option.some.inj ht]
      exact hdead
    · intro he
      rcases he with he | he <;> cases he
  split
  · exact (frame_modifyState fun t _ => .of_state rfl rfl id rfl
      fun h => by cases h).trans (frame_setReader_done ref)
  · exact (frame_modifyState fun t _ => evolves_fail t code (by decide)).trans
      (frame_setReader_done ref)

theorem frame_handleExit {cfg : Config} {ref : ServiceRef} {now jitter : ℚ}
    (h : s.handleExit cfg ref now jitter = some s') : Frame ready s s' := by
  simp only [Sys.handleExit, Option.bind_eq_bind, Option.bind_eq_some_iff] at h
  obtain ⟨thread, hthread, _, _, code, hcode, owner, _, h⟩ := h
  have hdead : thread.alive = false := by rw [ServiceThread.alive, hcode]; rfl
  split at h
  · split at h
    · obtain ⟨_, _, h⟩ := Option.bind_eq_some_iff.mp h
      obtain rfl := Option.some.inj h
      exact frame_reconnectExit hthread hdead
    · obtain ⟨_, _, h⟩ := Option.bind_eq_some_iff.mp h
      obtain rfl := Option.some.inj h
      exact frame_otherExit hthread hdead
  · obtain rfl := Option.some.inj h
    exact frame_setReader_done ref

theorem frame_onvifCheck {cfg : Config} {worker : WorkerRef} {expired : Bool}
    (h : s.onvifCheck cfg worker expired = some s') : Frame ready s s' := by
  simp only [Sys.onvifCheck, Option.bind_eq_bind, Option.bind_eq_some_iff] at h
  obtain ⟨thread, _, _, _, h⟩ := h
  split at h
  · obtain rfl := Option.some.inj h
    exact (frame_appendLog cfg _ _).trans (frame_setOnvif _ _)
  split at h
  · split at h
    · obtain rfl := Option.some.inj h
      exact frame_setOnvif _ _
    · obtain rfl := Option.some.inj h
      exact frame_setOnvif _ _
  · obtain rfl := Option.some.inj h
    exact frame_setOnvif _ _

theorem frame_onvifWatch {worker : WorkerRef} (h : s.onvifWatch worker = some s') :
    Frame ready s s' := by
  simp only [Sys.onvifWatch, Option.bind_eq_bind, Option.bind_eq_some_iff] at h
  obtain ⟨thread, _, h⟩ := h
  split at h
  · obtain ⟨service, _, h⟩ := Option.bind_eq_some_iff.mp h
    split at h
    · obtain rfl := Option.some.inj h
      exact frame_setOnvif _ _
    · obtain rfl := Option.some.inj h
      exact frame_setOnvif _ _
  · cases h

theorem evolves_getD {o : Option Sys} (hsome : ∀ t, o = some t → s.Evolves ready t)
    (hnone : s.Evolves ready s') : s.Evolves ready (o.getD s') := by
  cases ho : o with
  | none => exact hnone
  | some t => exact hsome t ho

theorem evolves_restartPeer (cfg : Config) (s : Sys) (camera : CameraId) (worker : WorkerRef)
    (code : Int) (ok : Bool) : s.Evolves ready (s.restartPeer cfg camera worker code ok) := by
  unfold Sys.restartPeer
  split
  · split
    · next peer _ =>
      have hkilled : s.Evolves ready ((s.exitProcess peer code).appendLog cfg worker
          (.message "[P2P] Restarting RTSP after the ONVIF channel detected a stalled tunnel")) :=
        ((frame_exitProcess peer code).trans (frame_appendLog cfg worker _)).evolves
      exact evolves_getD (fun t ht => hkilled.trans (evolves_started (startService_eq_some ht))) hkilled
    · exact .of_eq rfl
  · exact .of_eq rfl

theorem evolves_restart {cfg : Config} {ref : ServiceRef} {ok : Bool} {code : Int} {peerOk : Bool}
    (h : s.restart cfg ref ok code peerOk = some s') : s.Evolves ready s' := by
  obtain ⟨thread, _, _, _, rfl⟩ := Sys.restart_eq_some h
  have hdone : s.Evolves ready (s.setReader ref .done) := (frame_setReader_done ref).evolves
  cases hown : s.restartOwn cfg ref thread ok with
  | none => exact hdone
  | some u =>
    have hrestarted : s.Evolves ready u := by
      rcases Sys.restartOwn_eq_some hown with ⟨_, hu⟩ | ⟨_, rfl⟩
      · exact hdone.trans (evolves_started (startService_eq_some hu))
      · exact hdone
    simp only
    split
    · exact hrestarted.trans (evolves_restartPeer cfg u thread.cameraId thread.worker code peerOk)
    · exact hrestarted

theorem evolves_launch {cfg : Config} {camera : CameraId} {ok : Bool}
    (h : s.launch cfg camera ok = some s') : s.Evolves ready s' := by
  have hlock (holder : Option Section) : s.Evolves ready (s.setLock camera holder) := .of_eq rfl
  unfold Sys.launch at h
  split at h
  · split at h
    · obtain rfl := Option.some.inj h
      exact evolves_getD (fun t ht => (hlock none).trans
        (evolves_started (startVendorService_eq_some ht))) (hlock none)
    · obtain rfl := Option.some.inj h
      exact evolves_getD (fun t ht => (hlock _).trans
        (evolves_started (startService_eq_some ht))) (hlock none)
  · cases h

theorem evolves_onvifStart {cfg : Config} {worker : WorkerRef} {ok : Bool}
    (h : s.onvifStart cfg worker ok = some s') : s.Evolves ready s' := by
  simp only [Sys.onvifStart, Option.bind_eq_bind, Option.bind_eq_some_iff] at h
  obtain ⟨thread, _, _, _, _, _, h⟩ := h
  have hdone : s.Evolves ready (s.setOnvif worker .done) := .of_eq rfl
  split at h
  · obtain rfl := Option.some.inj h
    exact evolves_getD (fun t ht => hdone.trans (evolves_started (startService_eq_some ht))) hdone
  · obtain rfl := Option.some.inj h
    exact hdone

theorem evolves_kill {camera : CameraId} {code : Int} (h : s.kill camera code = some s') :
    s.Evolves ready s' := by
  obtain ⟨ref, next, rfl, _⟩ := Sys.kill_eq_some h
  exact (frame_exitProcess ref code).evolves.trans (.of_eq rfl)

theorem evolves_createWorker {cfg : Config} {camera : CameraId}
    (h : s.createWorker cfg camera = some s') : s.Evolves ready s' := by
  obtain ⟨row, password, _, rfl | ⟨port, _, rfl⟩⟩ := Sys.createWorker_eq_some h
  · exact .of_eq rfl
  · exact .of_eq rfl

/-- The event is a `READY` line. -/
def Event.PrintsReady : Event → Prop
  | .line _ raw _ => isReadyLine (rstrip raw) = true
  | _ => False

/-- Every step makes every thread evolve, or starts it. -/
theorem step_evolves {cfg : Config} {event : Event} (h : s.step cfg event = some s') :
    s.Evolves event.PrintsReady s' := by
  cases event with
  | start camera password =>
    obtain ⟨_, rfl⟩ := Sys.start_eq_some h
    exact .of_eq rfl
  | stop camera =>
    obtain ⟨_, rfl⟩ := Sys.stop_eq_some h
    exact .of_eq rfl
  | kill camera code => exact evolves_kill h
  | createWorker camera => exact evolves_createWorker h
  | launch camera ok => exact evolves_launch h
  | spawn camera =>
    obtain ⟨_, _, rfl⟩ := Sys.spawn_eq_some h
    exact .of_eq rfl
  | stopReturns camera =>
    obtain ⟨_, rfl⟩ := Sys.stopReturns_eq_some h
    exact .of_eq rfl
  | onvifCheck worker expired => exact (frame_onvifCheck h).evolves
  | onvifWatch worker => exact (frame_onvifWatch h).evolves
  | onvifStart worker ok => exact evolves_onvifStart h
  | exit ref code =>
    obtain ⟨_, _, _, rfl⟩ := Sys.exit_eq_some h
    exact (frame_exitProcess ref code).evolves
  | line ref raw now => exact (frame_handleLine h).evolves
  | endOutput ref => exact (frame_endOutput h).evolves
  | handleExit ref now jitter => exact (frame_handleExit h).evolves
  | restart ref ok code peerOk => exact evolves_restart h

end Frame

/-- A property of single threads that new ones have, and that evolving keeps,
holds of every thread in every state of a run. -/
theorem threads_invariant {cfg : Config} {ready : Prop} {P : ServiceThread → Prop}
    (hnew : ∀ t : ServiceThread, t.Newborn → P t) (hevolves : ∀ t t', Evolves ready t t' → P t → P t')
    {events : List Event} {s : Sys} (hready : ∀ event ∈ events, event.PrintsReady → ready)
    (h : runManager cfg events = some s) : ∀ t ∈ s.serviceHeap, P t := by
  let I (past : List Event) (s : Sys) : Prop :=
    (∀ event ∈ past, event.PrintsReady → ready) → ∀ t ∈ s.serviceHeap, P t
  have hinit : I [] {} := fun _ t ht => absurd ht List.not_mem_nil
  refine Run.run_induction (I := I) hinit ?_ h hready
  intro past event s s' _ hpast hstep hready t' ht'
  have hbefore := hpast fun event hevent => hready event (List.mem_append_left _ hevent)
  have hevent : event.PrintsReady → ready :=
    hready event (List.mem_append_right _ (List.mem_singleton_self event))
  obtain ⟨ref, href⟩ := List.mem_iff_getElem?.mp ht'
  have hmono : ∀ {t t'}, Evolves event.PrintsReady t t' → Evolves ready t t' := fun he =>
    { he with online := fun ho => (he.online ho).imp_right fun h => h.imp_right hevent }
  rcases (step_evolves hstep).thread ref t' href with ⟨t, ht, he⟩ | ⟨_, t, ht, he⟩
  · exact hevolves t t' (hmono he) (hbefore t (List.mem_of_getElem? ht))
  · exact hevolves t t' (hmono he) (hnew t ht)

end DahuaBridge
