import DahuaBridge.Api.Capacity
import DahuaBridge.Manager.Lifecycle

/-!
# The calls of the manager and its processes

The handlers take a call of `start` or `stop` for one step on `_workers`. In the manager the
calls run side by side with the threads that start ONVIF and that restart what has exited.

* `Sys.Served`: the invariant. Every process was started for a worker, with its arguments.
* `manager_refines_calls`: `_workers` is what the calls make of it one after the other, in the
  order in which they take the lifecycle locks.
* `processes_serve_calls`: what runs is what the last call for the camera asked for.
-/

namespace DahuaBridge

/-! ## What a worker is made with -/

/-- The part of a worker that is set when it is made, and never after. -/
def WorkerThread.record (thread : WorkerThread) : Worker where
  port := thread.worker.port
  camera := thread.worker.camera
  password := thread.worker.password

/-- The process was started for a service of the worker's camera, with the worker's arguments. -/
structure Worker.Serves (cfg : Config) (worker : Worker) (thread : ServiceThread) : Prop where
  cameraId : worker.camera.id = thread.cameraId
  launch : thread.state.process.launch = .vendor worker.camera.serial worker.camera.username
      worker.password (554, worker.port) ∧ thread.state.service = .rtsp ∨
    ∃ bindPort, (match thread.state.service with
        | .rtsp => some worker.port
        | .onvif => cfg.onvifPortFor worker.camera.id) = some bindPort ∧
      thread.state.process.launch = .engine thread.state.service bindPort worker.port
        worker.camera.serial worker.camera.username worker.password

theorem Worker.Serves.evolves {cfg : Config} {ready : Prop} {worker : Worker}
    {t t' : ServiceThread} (h : worker.Serves cfg t) (hevolves : Evolves ready t t') : worker.Serves cfg t' where
  cameraId := h.cameraId.trans hevolves.cameraId.symm
  launch := by
    rw [hevolves.launch, hevolves.service]
    exact h.launch

/-- The local port that the process was told to listen on. -/
def Launch.port : Launch → Int
  | .engine _ bindPort _ _ _ _ => bindPort
  | .vendor _ _ _ map => map.2

/-- How far the ports of a service are from those of RTSP. -/
def Service.portOffset : Service → Int
  | .rtsp => 0
  | .onvif => 1000

/-- By its port a process tells its service and its camera. -/
theorem Worker.Serves.port_eq {cfg : Config} {worker : Worker} {thread : ServiceThread}
    (h : worker.Serves cfg thread) (hport : cfg.portFor worker.camera.id = some worker.port) :
    (1 ≤ thread.cameraId ∧ thread.cameraId ≤ cfg.maxCameras) ∧
      thread.state.process.launch.port =
        cfg.firstPort + thread.cameraId - 1 + thread.state.service.portOffset := by
  have honvif := congrArg (Option.map (· + 1000)) hport
  rw [h.cameraId] at hport honvif
  obtain ⟨hrange, hworker⟩ := portFor_eq_some.mp hport
  refine ⟨hrange, ?_⟩
  rcases h.launch with ⟨hlaunch, hservice⟩ | ⟨bindPort, hbind, hlaunch⟩
  · rw [hlaunch, hservice]
    exact hworker.trans (Int.add_zero _).symm
  · rw [hlaunch]
    show bindPort = _
    cases hservice : thread.state.service with
    | rtsp =>
      rw [hservice] at hbind
      exact (Option.some.inj hbind).symm.trans (hworker.trans (Int.add_zero _).symm)
    | onvif =>
      rw [hservice] at hbind
      have hbind : some (worker.port + 1000) = some bindPort :=
        honvif.symm.trans ((congrArg cfg.onvifPortFor h.cameraId).symm.trans hbind)
      rw [← Option.some.inj hbind, hworker]
      rfl

/-- With at most a thousand cameras the ports of RTSP and those of ONVIF are apart. -/
theorem channel_of_port {first most id id' : Int} {service service' : Service} (hmost : most ≤ 1000)
    (hid : 1 ≤ id ∧ id ≤ most) (hid' : 1 ≤ id' ∧ id' ≤ most)
    (hport : first + id - 1 + service.portOffset = first + id' - 1 + service'.portOffset) :
    id = id' ∧ service = service' := by
  cases service <;> cases service' <;> simp only [Service.portOffset] at hport <;> simp <;> omega

namespace Sys

def records (s : Sys) : List Worker := s.workerHeap.map WorkerThread.record

/-- The record of the camera's worker. -/
def registered (s : Sys) (camera : CameraId) : Option Worker :=
  (s.workers camera).bind (s.records[·]?)

/-- Every process was started for a worker that has it or had it, and no worker has another's. -/
structure Served (cfg : Config) (s : Sys) : Prop where
  ported : ∀ worker ∈ s.records, cfg.portFor worker.camera.id = some worker.port
  thread : ∀ thread ∈ s.serviceHeap, ∃ worker, s.records[thread.worker]? = some worker ∧
    worker.Serves cfg thread
  owned : ∀ (w : WorkerRef) (key : CameraId × Services) (service : Service) (ref : ServiceRef),
    s.keys[w]? = some key → key.2.get service = some ref →
      ∃ thread, s.serviceHeap[ref]? = some thread ∧ thread.worker = w

section Records

variable {cfg : Config} {s s' : Sys} {camera : CameraId} {w : WorkerRef} {ref : ServiceRef}

theorem records_modifyWorker {f : WorkerThread → WorkerThread}
    (hf : ∀ thread, (f thread).record = thread.record) :
    (s.modifyWorker w f).records = s.records := map_modifyWorker hf

@[simp] theorem records_appendLog (line : LogLine) :
    (s.appendLog cfg w line).records = s.records :=
  records_modifyWorker fun _ => rfl

@[simp] theorem records_setOnvif (onvif : OnvifWait) : (s.setOnvif w onvif).records = s.records :=
  records_modifyWorker fun _ => rfl

@[simp] theorem records_setLock (next : Option Section) :
    (s.setLock camera next).records = s.records :=
  rfl

@[simp] theorem records_modifyState (f : ServiceState → ServiceState) :
    (s.modifyState ref f).records = s.records := rfl

@[simp] theorem records_setReader (reader : Reader) :
    (s.setReader ref reader).records = s.records := rfl

@[simp] theorem records_exitProcess (code : Int) :
    (s.exitProcess ref code).records = s.records := rfl

@[simp] theorem records_modifyServiceOf {service : Service} (f : ServiceState → ServiceState) :
    (s.modifyServiceOf w service f).records = s.records := by
  unfold modifyServiceOf
  split <;> rfl

@[simp] theorem records_addService {service : Service} (launch : Launch) :
    (s.addService camera w service launch).records = s.records :=
  records_modifyWorker (s := { s with serviceHeap := _ }) fun _ => rfl

theorem records_handleLine {raw : String} {now : ℚ} (h : s.handleLine cfg ref raw now = some s') :
    s'.records = s.records := by
  simp only [handleLine, Option.bind_eq_bind, Option.bind_eq_some_iff] at h
  obtain ⟨_, _, _, _, h⟩ := h
  rw [← Option.some.inj h]
  simp only [records_modifyServiceOf, records_modifyState, records_appendLog]

theorem records_endOutput (h : s.endOutput ref = some s') : s'.records = s.records := by
  simp only [endOutput, Option.bind_eq_bind, Option.bind_eq_some_iff] at h
  obtain ⟨_, _, _, _, h⟩ := h
  rw [← Option.some.inj h]
  rfl

theorem records_reconnectExit {thread : ServiceThread} {now jitter : ℚ} :
    (s.reconnectExit cfg ref thread now jitter).records = s.records := by
  unfold reconnectExit
  dsimp only
  split <;> simp only [records_appendLog, records_modifyServiceOf, records_modifyState,
    records_setReader]

theorem records_otherExit {thread : ServiceThread} {code : Int} {logs : List String} {jitter : ℚ} :
    (s.otherExit cfg ref thread code logs jitter).records = s.records := by
  unfold otherExit
  split
  · simp only [records_setReader, records_appendLog, records_modifyState]
  · split <;> rfl

theorem records_handleExit {now jitter : ℚ} (h : s.handleExit cfg ref now jitter = some s') :
    s'.records = s.records := by
  simp only [handleExit, Option.bind_eq_bind, Option.bind_eq_some_iff] at h
  obtain ⟨_, _, _, _, _, _, _, _, h⟩ := h
  split at h
  · split at h
    · obtain ⟨_, _, h⟩ := Option.bind_eq_some_iff.mp h
      exact Option.some.inj h ▸ records_reconnectExit
    · obtain ⟨_, _, h⟩ := Option.bind_eq_some_iff.mp h
      exact Option.some.inj h ▸ records_otherExit
  · exact Option.some.inj h ▸ rfl

theorem records_onvifCheck {expired : Bool} (h : s.onvifCheck cfg w expired = some s') :
    s'.records = s.records := by
  simp only [onvifCheck, Option.bind_eq_bind, Option.bind_eq_some_iff] at h
  obtain ⟨_, _, _, _, h⟩ := h
  split at h
  · rw [← Option.some.inj h, records_setOnvif, records_appendLog]
  · split at h
    · split at h <;> exact Option.some.inj h ▸ records_setOnvif _
    · exact Option.some.inj h ▸ records_setOnvif _

theorem records_onvifWatch (h : s.onvifWatch w = some s') : s'.records = s.records := by
  simp only [onvifWatch, Option.bind_eq_bind, Option.bind_eq_some_iff] at h
  obtain ⟨_, _, h⟩ := h
  split at h
  · obtain ⟨_, _, h⟩ := Option.bind_eq_some_iff.mp h
    split at h <;> exact Option.some.inj h ▸ records_setOnvif _
  · cases h

end Records

/-! ## Every process serves its worker -/

section Served

variable {cfg : Config} {s s' : Sys} {camera : CameraId} {w : WorkerRef} {ref : ServiceRef}
  {service : Service} {ready : Prop}

theorem served_init (cfg : Config) : Served cfg {} where
  ported _ h := absurd h List.not_mem_nil
  thread _ h := absurd h List.not_mem_nil
  owned _ _ _ _ h := by cases h

/-- A step that only writes to states, readers, logs and ONVIF threads. -/
theorem Served.frame (h : Served cfg s) (hframe : Frame ready s s')
    (hrecords : s'.records = s.records) : Served cfg s' where
  ported := hrecords ▸ h.ported
  thread t' ht' := by
    obtain ⟨ref, href⟩ := List.mem_iff_getElem?.mp ht'
    obtain ⟨t, ht, hevolves⟩ := hframe.thread ref t' href
    obtain ⟨worker, hworker, hserves⟩ := h.thread t (List.mem_of_getElem? ht)
    rw [hrecords, hevolves.worker]
    exact ⟨worker, hworker, hserves.evolves hevolves⟩
  owned w key service ref hkey hget := by
    have hkeys : s'.keys = s.keys := hframe.keys
    rw [hkeys] at hkey
    obtain ⟨t, ht, howner⟩ := h.owned w key service ref hkey hget
    have hlt : ref < s'.serviceHeap.length := hframe.length ▸ (List.getElem?_eq_some_iff.mp ht).1
    obtain ⟨u, hu, hevolves⟩ := hframe.thread ref _ (List.getElem?_eq_getElem hlt)
    obtain rfl : u = t := Option.some.inj (hu.symm.trans ht)
    exact ⟨_, List.getElem?_eq_getElem hlt, hevolves.worker.trans howner⟩

/-- A step that touches neither heap. -/
theorem Served.of_heaps (h : Served cfg s) (hservices : s'.serviceHeap = s.serviceHeap)
    (hworkers : s'.workerHeap = s.workerHeap) : Served cfg s' := by
  have hrecords : s'.records = s.records := congrArg (List.map WorkerThread.record) hworkers
  have hkeys : s'.keys = s.keys := congrArg (List.map WorkerThread.key) hworkers
  exact ⟨hrecords ▸ h.ported, hservices ▸ hrecords ▸ h.thread, hservices ▸ hkeys ▸ h.owned⟩

theorem records_getElem? {owner : WorkerThread} (h : s.workerHeap[w]? = some owner) :
    s.records[w]? = some owner.record := by rw [records, List.getElem?_map, h, Option.map_some]

/-- A process is started with the arguments of its worker. -/
theorem Served.addService (h : Served cfg s) {owner : WorkerThread} {launch : Launch}
    (howner : s.workerHeap[w]? = some owner)
    (hserves : owner.record.Serves cfg
      { cameraId := camera, worker := w, state := { process := { launch }, service } }) :
    Served cfg (s.addService camera w service launch) where
  ported := (records_addService launch).symm ▸ h.ported
  thread t ht := by
    rw [records_addService]
    rcases List.mem_append.mp ht with hold | hnew
    · exact h.thread t hold
    · rw [List.mem_singleton.mp hnew]
      exact ⟨owner.record, records_getElem? howner, hserves⟩
  owned w' key service' ref hkey hget := by
    rw [keys_addService] at hkey
    obtain ⟨key', hkey', rfl⟩ := Option.map_eq_some_iff.mp hkey
    have hold (hget : key'.2.get service' = some ref) :
        ∃ t, (s.addService camera w service launch).serviceHeap[ref]? = some t ∧ t.worker = w' := by
      obtain ⟨t, ht, hworker⟩ := h.owned w' key' service' ref hkey' hget
      exact ⟨t, addService_old launch ht, hworker⟩
    by_cases hw : w = w'
    · rw [if_pos hw] at hget
      by_cases hservice : service' = service
      · subst hservice
        obtain rfl := Option.some.inj ((Services.get_set_self ..).symm.trans hget)
        let thread : ServiceThread :=
          { cameraId := camera, worker := w, state := { process := { launch }, service := service' } }
        refine ⟨thread, ?_, hw⟩
        simp only [Sys.addService]
        rw [List.getElem?_append_right (Nat.le_refl _), Nat.sub_self]
        rfl
      · exact hold ((Services.get_set_ne _ _ hservice).symm.trans hget)
    · rw [if_neg hw] at hget
      exact hold hget

/-- `_start_service`, called for the worker's own camera. -/
theorem Served.startService (h : Served cfg s) {ok : Bool}
    (hcamera : ∀ owner, s.workerHeap[w]? = some owner → owner.worker.camera.id = camera)
    (hstart : s.startService cfg camera w service ok = some s') :
    Served cfg s' ∧ s'.records = s.records := by
  simp only [Sys.startService, Option.bind_eq_bind, Option.bind_eq_some_iff] at hstart
  obtain ⟨owner, howner, bindPort, hport, _, _, hstart⟩ := hstart
  obtain rfl := Option.some.inj hstart
  have hid := hcamera owner howner
  refine ⟨(h.addService howner ⟨hid, .inr ⟨bindPort, ?_, rfl⟩⟩).frame
    (frame_appendLog cfg w _ : Frame True _ _) (records_appendLog _), ?_⟩
  · subst hid
    cases service <;> exact hport
  · rw [records_appendLog, records_addService]

/-- `_start_vendor_service`. -/
theorem Served.startVendorService (h : Served cfg s) {ok : Bool}
    (hcamera : ∀ owner, s.workerHeap[w]? = some owner → owner.worker.camera.id = camera)
    (hstart : s.startVendorService cfg camera w ok = some s') :
    Served cfg s' ∧ s'.records = s.records := by
  simp only [Sys.startVendorService, Option.bind_eq_bind, Option.bind_eq_some_iff] at hstart
  obtain ⟨owner, howner, _, _, _, _, hstart⟩ := hstart
  obtain rfl := Option.some.inj hstart
  refine ⟨(h.addService howner ⟨hcamera owner howner, .inl ⟨rfl, rfl⟩⟩).frame
    (frame_appendLog cfg w _ : Frame True _ _) (records_appendLog _), ?_⟩
  rw [records_appendLog, records_addService]

/-- What a started or unchanged state has in common. -/
theorem Served.getD {o : Option Sys} {t : Sys}
    (hsome : ∀ u, o = some u → Served cfg u ∧ u.records = s.records)
    (hnone : Served cfg t ∧ t.records = s.records) :
    Served cfg (o.getD t) ∧ (o.getD t).records = s.records := by
  cases ho : o with
  | none => exact hnone
  | some u => exact hsome u ho

/-- The camera of a worker that has a process. -/
theorem Served.camera_of_thread (h : Served cfg s) {t : ServiceThread} (ht : t ∈ s.serviceHeap)
    {owner : WorkerThread} (howner : s.workerHeap[t.worker]? = some owner) :
    owner.worker.camera.id = t.cameraId := by
  obtain ⟨worker, hworker, hserves⟩ := h.thread t ht
  obtain rfl := Option.some.inj ((records_getElem? howner).symm.trans hworker)
  exact hserves.cameraId

theorem Served.restartPeer (h : Served cfg s) {code : Int} {ok : Bool}
    (hcamera : ∀ owner, s.workerHeap[w]? = some owner → owner.worker.camera.id = camera) :
    Served cfg (s.restartPeer cfg camera w code ok) ∧
      (s.restartPeer cfg camera w code ok).records = s.records := by
  unfold Sys.restartPeer
  split
  · split
    · next peer hpeer =>
      have hframe : Frame True s ((s.exitProcess peer code).appendLog cfg w
          (.message "[P2P] Restarting RTSP after the ONVIF channel detected a stalled tunnel")) :=
        (frame_exitProcess peer code).trans (frame_appendLog cfg w _)
      have hrecords : ((s.exitProcess peer code).appendLog cfg w (.message
          "[P2P] Restarting RTSP after the ONVIF channel detected a stalled tunnel")).records =
          s.records := records_appendLog _
      have hkilled := h.frame hframe hrecords
      refine Served.getD (fun u hu => ?_) ⟨hkilled, hrecords⟩
      refine (hkilled.startService (fun owner howner => ?_) hu).imp_right (·.trans hrecords)
      have hrecord : s.records[w]? = some owner.record := hrecords ▸ records_getElem? howner
      rw [records, List.getElem?_map] at hrecord
      obtain ⟨old, hold, hsame⟩ := Option.map_eq_some_iff.mp hrecord
      exact (congrArg (fun worker => worker.camera.id) hsame).symm.trans (hcamera old hold)
    · exact ⟨h, rfl⟩
  · exact ⟨h, rfl⟩

theorem Served.restart (h : Served cfg s) {ok : Bool} {code : Int} {peerOk : Bool}
    (hstep : s.restart cfg ref ok code peerOk = some s') :
    Served cfg s' ∧ s'.records = s.records := by
  obtain ⟨t, ht, _, _, rfl⟩ := Sys.restart_eq_some hstep
  have hdone : Served cfg (s.setReader ref .done) :=
    h.frame (frame_setReader_done ref : Frame True _ _) rfl
  have hmem : t ∈ s.serviceHeap := List.mem_of_getElem? ht
  cases hown : s.restartOwn cfg ref t ok with
  | none => exact ⟨hdone, rfl⟩
  | some u =>
    have hrestarted : Served cfg u ∧ u.records = s.records := by
      rcases Sys.restartOwn_eq_some hown with ⟨_, hu⟩ | ⟨_, rfl⟩
      · exact hdone.startService (fun owner howner => h.camera_of_thread hmem howner) hu
      · exact ⟨hdone, rfl⟩
    simp only
    split
    · obtain ⟨hu, hrecords⟩ := hrestarted
      refine (hu.restartPeer fun owner howner => ?_).imp_right (·.trans hrecords)
      obtain ⟨worker, hworker, hserves⟩ := h.thread t hmem
      have hrecord : s.records[t.worker]? = some owner.record := hrecords ▸ records_getElem? howner
      obtain rfl := Option.some.inj (hrecord.symm.trans hworker)
      exact hserves.cameraId
    · exact hrestarted

theorem Served.onvifStart (h : Served cfg s) {ok : Bool}
    (hstep : s.onvifStart cfg w ok = some s') : Served cfg s' ∧ s'.records = s.records := by
  simp only [Sys.onvifStart, Option.bind_eq_bind, Option.bind_eq_some_iff] at hstep
  obtain ⟨thread, hthread, _, _, _, _, hstep⟩ := hstep
  have hframe : Frame True s (s.setOnvif w .done) := frame_setOnvif w .done
  have hrecords : (s.setOnvif w .done).records = s.records := records_setOnvif _
  have hdone := h.frame hframe hrecords
  split at hstep
  · rw [← Option.some.inj hstep]
    refine Served.getD (fun u hu => ?_) ⟨hdone, hrecords⟩
    refine (hdone.startService (fun owner howner => ?_) hu).imp_right (·.trans hrecords)
    have hsame : some owner.record = some thread.record :=
      (records_getElem? howner).symm.trans (hrecords ▸ records_getElem? hthread)
    exact congrArg (fun worker => worker.camera.id) (Option.some.inj hsame)
  · exact Option.some.inj hstep ▸ ⟨hdone, hrecords⟩

theorem Served.launch (h : Served cfg s) (hinv : s.Inv) {ok : Bool}
    (hstep : s.launch cfg camera ok = some s') : Served cfg s' ∧ s'.records = s.records := by
  unfold Sys.launch at hstep
  split at hstep
  · next w hlock =>
    have hcamera (owner : WorkerThread) (howner : s.workerHeap[w]? = some owner) :
        owner.worker.camera.id = camera :=
      (keys_lookup_unique (keys_eq_of_getElem? howner) (hinv.holder camera _ hlock).2).1
    have hfree : Served cfg (s.setLock camera none) := h.of_heaps rfl rfl
    split at hstep
    · rw [← Option.some.inj hstep]
      exact Served.getD (fun u hu => hfree.startVendorService hcamera hu) ⟨hfree, rfl⟩
    · rw [← Option.some.inj hstep]
      have hspawn : Served cfg (s.setLock camera (some (.spawn w))) := h.of_heaps rfl rfl
      exact Served.getD (fun u hu => hspawn.startService hcamera hu) ⟨hfree, rfl⟩
  · cases hstep

theorem Served.createWorker (h : Served cfg s) (hinv : s.Inv)
    (hstep : s.createWorker cfg camera = some s') : Served cfg s' := by
  obtain ⟨row, password, hlock, rfl | ⟨port, hport, rfl⟩⟩ := Sys.createWorker_eq_some hstep
  · exact h.of_heaps rfl rfl
  · obtain ⟨rfl, -⟩ := hinv.holder camera _ hlock
    let worker : WorkerState := { port, camera := row, password }
    have hrecords : (s.workerHeap ++ [({ worker } : WorkerThread)]).map WorkerThread.record =
        s.records ++ [⟨port, row, password⟩] := List.map_append
    refine ⟨fun record hrecord => ?_, fun t ht => ?_, fun w key service ref hkey hget => ?_⟩
    · rw [records, hrecords] at hrecord
      rcases List.mem_append.mp hrecord with hold | hnew
      · exact h.ported record hold
      · rw [List.mem_singleton.mp hnew]
        exact hport
    · obtain ⟨record, hrecord, hserves⟩ := h.thread t ht
      refine ⟨record, ?_, hserves⟩
      rw [records, hrecords, List.getElem?_append_left (List.getElem?_eq_some_iff.mp hrecord).1]
      exact hrecord
    · have hkeys : (s.workerHeap ++ [({ worker } : WorkerThread)]).map WorkerThread.key =
          s.keys ++ [(row.id, ({} : Services))] := List.map_append
      rw [keys, hkeys] at hkey
      rcases Nat.lt_or_ge w s.keys.length with hlt | hge
      · rw [List.getElem?_append_left hlt] at hkey
        exact h.owned w key service ref hkey hget
      · rw [List.getElem?_append_right hge] at hkey
        rw [List.mem_singleton.mp (List.mem_of_getElem? hkey)] at hget
        cases service <;> cases hget

/-- Only `createWorker` makes a worker. -/
theorem Served.step {event : Event} (h : Served cfg s) (hinv : s.Inv)
    (hstep : s.step cfg event = some s') :
    Served cfg s' ∧ ((∀ camera, event ≠ .createWorker camera) → s'.records = s.records) := by
  have hframe {ready : Prop} (hframe : Frame ready s s') (hrecords : s'.records = s.records) :
      Served cfg s' ∧ ((∀ camera, event ≠ .createWorker camera) → s'.records = s.records) :=
    ⟨h.frame hframe hrecords, fun _ => hrecords⟩
  cases event with
  | start row password =>
    obtain ⟨_, rfl⟩ := Sys.start_eq_some hstep
    exact ⟨h.of_heaps rfl rfl, fun _ => rfl⟩
  | stop camera =>
    obtain ⟨_, rfl⟩ := Sys.stop_eq_some hstep
    exact ⟨h.of_heaps rfl rfl, fun _ => rfl⟩
  | kill camera code =>
    obtain ⟨ref, next, rfl, _⟩ := Sys.kill_eq_some hstep
    have hkilled : Served cfg (s.exitProcess ref code) :=
      h.frame (frame_exitProcess ref code : Frame True _ _) rfl
    exact ⟨hkilled.of_heaps rfl rfl, fun _ => rfl⟩
  | createWorker camera => exact ⟨h.createWorker hinv hstep, fun hne => absurd rfl (hne camera)⟩
  | launch camera ok => exact (h.launch hinv hstep).imp_right fun hsame _ => hsame
  | spawn camera =>
    obtain ⟨w, _, rfl⟩ := Sys.spawn_eq_some hstep
    have hspawned : Served cfg (s.setOnvif w .polling) :=
      h.frame (frame_setOnvif w .polling : Frame True _ _) (records_setOnvif _)
    exact ⟨hspawned.of_heaps rfl rfl, fun _ => records_setOnvif (s := s) (w := w) _⟩
  | stopReturns camera =>
    obtain ⟨_, rfl⟩ := Sys.stopReturns_eq_some hstep
    exact ⟨h.of_heaps rfl rfl, fun _ => rfl⟩
  | onvifCheck w expired =>
    exact hframe (frame_onvifCheck hstep : Frame True s s') (records_onvifCheck hstep)
  | onvifWatch w =>
    exact hframe (frame_onvifWatch hstep : Frame True s s') (records_onvifWatch hstep)
  | onvifStart w ok => exact (h.onvifStart hstep).imp_right fun hsame _ => hsame
  | exit ref code =>
    obtain ⟨_, _, _, rfl⟩ := Sys.exit_eq_some hstep
    exact hframe (frame_exitProcess ref code : Frame True s _) rfl
  | line ref raw now => exact hframe (frame_handleLine hstep) (records_handleLine hstep)
  | endOutput ref =>
    exact hframe (frame_endOutput hstep : Frame True s s') (records_endOutput hstep)
  | handleExit ref now jitter =>
    exact hframe (frame_handleExit hstep : Frame True s s') (records_handleExit hstep)
  | restart ref ok code peerOk => exact (h.restart hstep).imp_right fun hsame _ => hsame

end Served

end Sys

/-! ## The calls, one after the other -/

/-- A call of the manager, by the API or by the start-up. -/
inductive ManagerCall
  | start (row : Camera) (password : String)
  | stop (camera : CameraId)

/-- The call that takes its lifecycle lock in the step. -/
def Event.call : Event → Option ManagerCall
  | .start row password => some (.start row password)
  | .stop camera => some (.stop camera)
  | _ => none

def Workers.call (cfg : Config) (workers : Workers) : ManagerCall → Workers
  | .start row password => (workers.enter cfg row password).1
  | .stop camera => workers.stop camera

/-- `_workers`, after the calls of a run one after the other. -/
def Workers.calls (cfg : Config) (events : List Event) : Workers :=
  (events.filterMap Event.call).foldl (Workers.call cfg) fun _ => none

/-- The worker that a call of `start` makes. -/
def Worker.entry (cfg : Config) (row : Camera) (password : String) : Option Worker :=
  if row.vendor.hasP2P then (cfg.portFor row.id).map fun port => { port, camera := row, password }
  else none

theorem Workers.enter_self (cfg : Config) (workers : Workers) (row : Camera) (password : String) :
    (workers.enter cfg row password).1 row.id = Worker.entry cfg row password := by
  unfold Workers.enter Worker.entry
  split
  · cases cfg.portFor row.id with
    | none => exact Function.update_self ..
    | some port => exact Function.update_self ..
  · exact Function.update_self ..

theorem Workers.enter_of_ne (cfg : Config) (workers : Workers) {row : Camera} (password : String)
    {camera : CameraId} (hne : camera ≠ row.id) :
    (workers.enter cfg row password).1 camera = workers camera := by
  unfold Workers.enter
  split
  · cases cfg.portFor row.id with
    | none => exact Function.update_of_ne hne ..
    | some port => exact (Function.update_of_ne hne ..).trans (Function.update_of_ne hne ..)
  · exact Function.update_of_ne hne ..

theorem Workers.calls_concat (cfg : Config) (events : List Event) (event : Event) :
    Workers.calls cfg (events ++ [event]) =
      event.call.elim (Workers.calls cfg events) (Workers.call cfg (Workers.calls cfg events)) := by
  unfold Workers.calls
  rw [List.filterMap_append, List.foldl_append, List.filterMap_cons, List.filterMap_nil]
  cases event.call with
  | none => rfl
  | some call => rfl

/-- The call of `start` that has not made its worker yet. -/
def Section.starting : Section → Option (Camera × String)
  | .start row password _ => some (row, password)
  | _ => none

namespace Sys

def starting (s : Sys) (camera : CameraId) : Option (Camera × String) :=
  (s.lock camera).bind Section.starting

/-- `_workers` has what the calls have made of it, but for a worker that is still to be made. -/
def Follows (cfg : Config) (calls : Workers) (s : Sys) (camera : CameraId) : Prop :=
  match s.starting camera with
  | some (row, password) => s.registered camera = none ∧ row.id = camera ∧
      calls camera = Worker.entry cfg row password
  | none => s.registered camera = calls camera

section Follows

variable {cfg : Config} {calls calls' : Workers} {s s' : Sys} {camera : CameraId}

/-- Nothing has changed for the camera. -/
theorem Follows.of_same (h : s.Follows cfg calls camera)
    (hregistered : s'.registered camera = s.registered camera)
    (hstarting : s'.starting camera = s.starting camera) (hcalls : calls' camera = calls camera) :
    s'.Follows cfg calls' camera := by
  unfold Follows at h ⊢
  rw [hstarting, hregistered, hcalls]
  exact h

theorem follows_of_idle (hstarting : s.starting camera = none)
    (hregistered : s.registered camera = calls camera) : s.Follows cfg calls camera := by
  unfold Follows
  rw [hstarting]
  exact hregistered

theorem Follows.registered_eq (h : s.Follows cfg calls camera)
    (hstarting : s.starting camera = none) : s.registered camera = calls camera := by
  unfold Follows at h
  rw [hstarting] at h
  exact h

theorem starting_of_free (h : s.lock camera = none) : s.starting camera = none := by
  rw [starting, h, Option.bind_none]

theorem starting_of_lock {task : Section} (h : s.lock camera = some task) :
    s.starting camera = task.starting := by rw [starting, h, Option.bind_some]

theorem registered_congr (hworkers : s'.workers camera = s.workers camera)
    (hrecords : s'.records = s.records) : s'.registered camera = s.registered camera := by
  rw [registered, registered, hworkers, hrecords]

theorem starting_congr (hlock : s'.lock camera = s.lock camera) :
    s'.starting camera = s.starting camera := by rw [starting, starting, hlock]

/-- `start` or `stop` has taken the lock and popped the worker. -/
theorem registered_popWorker (s : Sys) (camera : CameraId) (task : List ServiceRef → Section) :
    (s.popWorker camera task).registered camera = none := by
  have hworkers : (s.popWorker camera task).workers camera = none := Function.update_self ..
  rw [registered, hworkers, Option.bind_none]

theorem lock_popWorker (s : Sys) (camera : CameraId) (task : List ServiceRef → Section) :
    ∃ refs, (s.popWorker camera task).lock camera = some (task refs) := ⟨_, Function.update_self ..⟩

theorem registered_popWorker_of_ne {other : CameraId} (task : List ServiceRef → Section)
    (hne : other ≠ camera) : (s.popWorker camera task).registered other = s.registered other :=
  registered_congr (Function.update_of_ne hne ..) rfl

theorem starting_popWorker_of_ne {other : CameraId} (task : List ServiceRef → Section)
    (hne : other ≠ camera) : (s.popWorker camera task).starting other = s.starting other :=
  starting_congr (Function.update_of_ne hne ..)

theorem follows_start {row : Camera} {password : String}
    (h : ∀ camera, s.Follows cfg calls camera)
    (hstep : s.step cfg (.start row password) = some s') (camera : CameraId) :
    s'.Follows cfg (calls.enter cfg row password).1 camera := by
  obtain ⟨_, rfl⟩ := start_eq_some hstep
  by_cases hcamera : camera = row.id
  · subst hcamera
    obtain ⟨refs, hlock⟩ := lock_popWorker s row.id (.start row password)
    have hstarting : (s.popWorker row.id (.start row password)).starting row.id =
        some (row, password) := starting_of_lock hlock
    show Follows cfg _ (s.popWorker row.id (.start row password)) row.id
    unfold Follows
    rw [hstarting]
    exact ⟨registered_popWorker s row.id _, rfl, Workers.enter_self cfg calls row password⟩
  · exact (h camera).of_same (registered_popWorker_of_ne (.start row password) hcamera)
      (starting_popWorker_of_ne (.start row password) hcamera)
      (Workers.enter_of_ne cfg calls password hcamera)

theorem follows_stop {stopped : CameraId} (h : ∀ camera, s.Follows cfg calls camera)
    (hstep : s.step cfg (.stop stopped) = some s') (camera : CameraId) :
    s'.Follows cfg (calls.stop stopped) camera := by
  obtain ⟨_, rfl⟩ := stop_eq_some hstep
  by_cases hcamera : camera = stopped
  · subst hcamera
    obtain ⟨refs, hlock⟩ := lock_popWorker s camera .stop
    have hstarting : (s.popWorker camera .stop).starting camera = none := starting_of_lock hlock
    have hcalls : calls.stop camera camera = none := Function.update_self ..
    exact follows_of_idle hstarting ((registered_popWorker s camera .stop).trans hcalls.symm)
  · exact (h camera).of_same (registered_popWorker_of_ne .stop hcamera)
      (starting_popWorker_of_ne .stop hcamera) (Function.update_of_ne hcamera ..)

theorem follows_createWorker {created : CameraId} (h : ∀ camera, s.Follows cfg calls camera)
    (hinv : s.Inv) (hstep : s.createWorker cfg created = some s') (camera : CameraId) :
    s'.Follows cfg calls camera := by
  unfold Sys.createWorker at hstep
  split at hstep
  · next row password hlock =>
    have hself := h created
    unfold Follows at hself
    rw [starting_of_lock hlock] at hself
    obtain ⟨hnone, rfl, hcalls⟩ := hself
    have hfailed (hentry : Worker.entry cfg row password = none)
        (hs : s' = s.setLock row.id none) : s'.Follows cfg calls camera := by
      subst hs
      by_cases hcamera : camera = row.id
      · subst hcamera
        exact follows_of_idle (starting_of_free (lock_setLock ..))
          (hnone.trans (hcalls.trans hentry).symm)
      · exact (h camera).of_same rfl (starting_congr (Function.update_of_ne hcamera ..)) rfl
    unfold Worker.entry at hcalls hfailed
    split at hstep
    · next hvendor =>
      rw [if_pos hvendor] at hcalls hfailed
      split at hstep
      · next hport => exact hfailed (by rw [hport]; rfl) (Option.some.inj hstep).symm
      · next port hport =>
        obtain rfl := Option.some.inj hstep
        have hrecords : (s.workerHeap ++ [({ worker := { port, camera := row, password } } :
            WorkerThread)]).map WorkerThread.record = s.records ++ [⟨port, row, password⟩] :=
          List.map_append
        by_cases hcamera : camera = row.id
        · subst hcamera
          have htaken : Function.update s.lock row.id (some (.launch s.workerHeap.length)) row.id =
              some (.launch s.workerHeap.length) := Function.update_self ..
          refine follows_of_idle ((congrArg (Option.bind · Section.starting) htaken).trans rfl) ?_
          have hnew : (s.records ++ [⟨port, row, password⟩])[s.workerHeap.length]? =
              some ⟨port, row, password⟩ := by
            have hlength : s.records.length = s.workerHeap.length := List.length_map _
            rw [← hlength, List.getElem?_concat_length]
          rw [hcalls, hport, registered]
          simp only [Function.update_self, Option.bind_some]
          rw [records, hrecords, hnew]
          rfl
        · refine (h camera).of_same ?_ (starting_congr (Function.update_of_ne hcamera ..)) rfl
          have hsame : Function.update s.workers row.id (some s.workerHeap.length) camera =
              s.workers camera := Function.update_of_ne hcamera ..
          unfold registered
          simp only [hsame]
          rw [records, hrecords]
          cases hw : s.workers camera with
          | none => rfl
          | some w =>
            obtain ⟨services, hkey⟩ := hinv.owner camera w hw
            have hlt : w < s.records.length := by
              have hw := (List.getElem?_eq_some_iff.mp hkey).1
              rwa [keys, List.length_map, ← List.length_map WorkerThread.record] at hw
            exact List.getElem?_append_left hlt
    · next hvendor =>
      rw [if_neg hvendor] at hfailed
      exact hfailed rfl (Option.some.inj hstep).symm
  · cases hstep

/-- The lock and the worker table are left alone by a start of a process. -/
theorem started_lock {w : WorkerRef} {service : Service} (h : s.Started cfg camera w service s') :
    s'.workers = s.workers ∧ s'.lock = s.lock := by
  obtain ⟨_, _, rfl⟩ := h
  exact ⟨rfl, rfl⟩

/-- `start` holds the lock further on, or gives it back. -/
theorem launch_lock {ok : Bool} (hstep : s.launch cfg camera ok = some s') :
    ∃ w next, s.lock camera = some (.launch w) ∧ next.bind Section.starting = none ∧
      s'.workers = s.workers ∧ s'.lock = Function.update s.lock camera next := by
  have hgetD {next : Option Section} (o : Option Sys) (hsome : ∀ u, o = some u →
      u.workers = s.workers ∧ u.lock = Function.update s.lock camera next) :
      (o.getD (s.setLock camera none)).workers = s.workers ∧
        ((o.getD (s.setLock camera none)).lock = Function.update s.lock camera next ∨
          (o.getD (s.setLock camera none)).lock = Function.update s.lock camera none) := by
    cases ho : o with
    | none => exact ⟨rfl, .inr rfl⟩
    | some u => exact ⟨(hsome u ho).1, .inl (hsome u ho).2⟩
  unfold Sys.launch at hstep
  split at hstep
  · next w hlock =>
    split at hstep
    · obtain rfl := Option.some.inj hstep
      obtain ⟨hworkers, hnext⟩ := hgetD ((s.setLock camera none).startVendorService cfg camera w ok)
        (fun u hu => started_lock (startVendorService_eq_some hu))
      exact ⟨w, none, hlock, rfl, hworkers, hnext.elim id id⟩
    · obtain rfl := Option.some.inj hstep
      obtain ⟨hworkers, hnext⟩ :=
        hgetD ((s.setLock camera (some (.spawn w))).startService cfg camera w .rtsp ok)
          (fun u hu => started_lock (startService_eq_some hu))
      rcases hnext with hnext | hnext
      · exact ⟨w, some (.spawn w), hlock, rfl, hworkers, hnext⟩
      · exact ⟨w, none, hlock, rfl, hworkers, hnext⟩
  · cases hstep

/-- The lock of a camera passes to a task that makes no worker, from one that does not either. -/
theorem starting_update {t : Sys} (next : Option Section) (hidle : s.starting camera = none)
    (hnext : next.bind Section.starting = none)
    (hlock : t.lock = Function.update s.lock camera next) (other : CameraId) :
    t.starting other = s.starting other := by
  by_cases hother : other = camera
  · rw [hother, hidle, starting, hlock, Function.update_self]
    exact hnext
  · exact starting_congr ((congrFun hlock other).trans (Function.update_of_ne hother ..))

/-- Only the two calls and `createWorker` change `_workers`, or what is still to be made. -/
theorem step_idle {event : Event} (hinv : s.Inv) (hcall : event.call = none)
    (hcreate : ∀ camera, event ≠ .createWorker camera) (hstep : s.step cfg event = some s') :
    s'.workers = s.workers ∧ ∀ camera, s'.starting camera = s.starting camera := by
  have hsame (hworkers : s'.workers = s.workers) (hlock : s'.lock = s.lock) :
      s'.workers = s.workers ∧ ∀ camera, s'.starting camera = s.starting camera :=
    ⟨hworkers, fun camera => starting_congr (congrFun hlock camera)⟩
  cases event with
  | start row password => cases hcall
  | stop stopped => cases hcall
  | createWorker created => exact absurd rfl (hcreate created)
  | kill holder code =>
    obtain ⟨ref, next, rfl, hlock⟩ := kill_eq_some hstep
    refine ⟨rfl, fun camera => ?_⟩
    by_cases hcamera : camera = holder
    · rw [hcamera, starting_of_lock (lock_setLock ..)]
      rcases hlock with ⟨remaining, hlock, rfl⟩ | ⟨row, password, remaining, hlock, rfl⟩
      · exact (starting_of_lock hlock).symm
      · exact (starting_of_lock hlock).symm
    · exact starting_congr (Function.update_of_ne hcamera ..)
  | launch holder ok =>
    obtain ⟨w, next, hlock, hnext, hworkers, hlock'⟩ := launch_lock hstep
    exact ⟨hworkers, starting_update next (starting_of_lock hlock) hnext hlock'⟩
  | spawn holder =>
    obtain ⟨w, hlock, rfl⟩ := spawn_eq_some hstep
    exact ⟨rfl, starting_update none (starting_of_lock hlock) rfl rfl⟩
  | stopReturns holder =>
    obtain ⟨hlock, rfl⟩ := stopReturns_eq_some hstep
    exact ⟨rfl, starting_update none (starting_of_lock hlock) rfl rfl⟩
  | onvifCheck w expired =>
    have hframe : Frame True s s' := frame_onvifCheck hstep
    exact hsame hframe.workers hframe.lock
  | onvifWatch w =>
    have hframe : Frame True s s' := frame_onvifWatch hstep
    exact hsame hframe.workers hframe.lock
  | onvifStart w ok =>
    have hstarts := Starts.onvifStart hinv hstep
    exact hsame hstarts.workers hstarts.lock
  | exit ref code =>
    obtain ⟨_, _, _, rfl⟩ := exit_eq_some hstep
    exact hsame rfl rfl
  | line ref raw now =>
    have hframe := frame_handleLine hstep
    exact hsame hframe.workers hframe.lock
  | endOutput ref =>
    have hframe : Frame True s s' := frame_endOutput hstep
    exact hsame hframe.workers hframe.lock
  | handleExit ref now jitter =>
    have hframe : Frame True s s' := frame_handleExit hstep
    exact hsame hframe.workers hframe.lock
  | restart ref ok code peerOk =>
    have hstarts := Starts.restart hinv hstep
    exact hsame hstarts.workers hstarts.lock

theorem follows_step {event : Event} (h : ∀ camera, s.Follows cfg calls camera) (hinv : s.Inv)
    (hserved : Served cfg s) (hstep : s.step cfg event = some s') (camera : CameraId) :
    s'.Follows cfg (event.call.elim calls (Workers.call cfg calls)) camera := by
  have hidle (hcall : event.call = none) (hcreate : ∀ camera, event ≠ .createWorker camera) :
      s'.Follows cfg calls camera := by
    obtain ⟨hworkers, hstarting⟩ := step_idle hinv hcall hcreate hstep
    have hrecords := (hserved.step hinv hstep).2 hcreate
    exact (h camera).of_same (registered_congr (congrFun hworkers camera) hrecords)
      (hstarting camera) rfl
  cases event with
  | start row password => exact follows_start h hstep camera
  | stop stopped => exact follows_stop h hstep camera
  | createWorker created => exact follows_createWorker h hinv hstep camera
  | _ => exact hidle rfl fun _ => Event.noConfusion

end Follows

end Sys

/-! ## Every run -/

section Run

variable {cfg : Config} {events : List Event} {s : Sys}

theorem runManager_served (h : runManager cfg events = some s) : Sys.Served cfg s :=
  (Run.run_invariant (I := fun s => s.Inv ∧ Sys.Served cfg s) ⟨Sys.inv_init, Sys.served_init cfg⟩
    (fun _ _ _ hpast hstep => ⟨(hpast.1.step hstep).1, (hpast.2.step hpast.1 hstep).1⟩) h).2

theorem runManager_follows (h : runManager cfg events = some s) (camera : CameraId) :
    s.Follows cfg (Workers.calls cfg events) camera := by
  refine Run.run_induction (I := fun past (s : Sys) => ∀ camera,
    s.Follows cfg (Workers.calls cfg past) camera) (fun _ => Sys.follows_of_idle rfl rfl) ?_ h
    camera
  intro past event t t' hrun hpast hstep camera
  rw [Workers.calls_concat]
  exact Sys.follows_step hpast (runManager_inv hrun) (runManager_served hrun) hstep camera

/-- In every run, with any interleaving of the calls, the starts of ONVIF and the restarts, the
worker of a camera is the one that the calls leave when they are made one after the other, in
the order in which they took the lifecycle locks. Only between its two parts a `start` has
popped the old worker and not yet entered the new one. -/
theorem manager_refines_calls (h : runManager cfg events = some s) (camera : CameraId) :
    (s.starting camera = none → s.registered camera = Workers.calls cfg events camera) ∧
      ∀ row password, s.starting camera = some (row, password) →
        s.registered camera = none ∧ row.id = camera ∧
          Workers.calls cfg events camera = Worker.entry cfg row password := by
  have hfollows := runManager_follows h camera
  refine ⟨hfollows.registered_eq, fun row password hstarting => ?_⟩
  unfold Sys.Follows at hfollows
  rw [hstarting] at hfollows
  exact hfollows

/-- A call of `stop` while the restarted process of another call is coming up, and a new call. -/
def restartedThenMoved : List Event :=
  [.start exampleRow "secret", .createWorker 1, .launch 1 true, .spawn 1, .exit 0 75, .endOutput 0,
    .handleExit 0 10 1, .start { exampleRow with id := 2, serial := "5K00002" } "other",
    .restart 0 true 0 true, .createWorker 2, .launch 2 true, .stop 1, .kill 1 (-15), .spawn 2]

theorem manager_refines_calls_moved : ∃ s, runManager {} restartedThenMoved = some s ∧
    ∀ camera ∈ [(1 : CameraId), 2], s.registered camera =
      Workers.calls {} restartedThenMoved camera := by
  have hidle : (runManager {} restartedThenMoved).map (fun s => [s.starting 1, s.starting 2]) =
      some [none, none] := by decide +kernel
  obtain ⟨s, hs, hidle⟩ := Option.map_eq_some_iff.mp hidle
  obtain ⟨hone, hidle⟩ := List.cons.inj hidle
  obtain ⟨htwo, -⟩ := List.cons.inj hidle
  refine ⟨s, hs, fun camera hcamera => ?_⟩
  rcases List.mem_cons.mp hcamera with rfl | hcamera
  · exact (manager_refines_calls hs 1).1 hone
  · rw [List.mem_singleton.mp hcamera]
    exact (manager_refines_calls hs 2).1 htwo

/-- A process that is alive while no call is at work on its camera is one that the last call asked
for: it has the serial, the name, the password and the ports of that call. No two processes that
are alive listen on the same port, at any time. -/
theorem processes_serve_calls (h : runManager cfg events = some s) :
    (∀ t ∈ s.serviceHeap, t.alive = true → s.lock t.cameraId = none →
      ∃ worker, Workers.calls cfg events t.cameraId = some worker ∧ worker.Serves cfg t) ∧
    (cfg.maxCameras ≤ 1000 → ∀ (ref ref' : ServiceRef) (t t' : ServiceThread),
      s.serviceHeap[ref]? = some t → s.serviceHeap[ref']? = some t' → t.alive = true →
      t'.alive = true → t.state.process.launch.port = t'.state.process.launch.port →
      ref = ref') := by
  have hinv := runManager_inv h
  have hserved := runManager_served h
  constructor
  · intro t ht halive hfree
    obtain ⟨ref, href⟩ := List.mem_iff_getElem?.mp ht
    have hcovers := hinv.covered ref t href halive
    rw [Sys.covers_iff_records (Sys.remaining_of_free hfree)] at hcovers
    obtain ⟨w, services, hw, hkey, hget⟩ := hcovers
    -- the worker that has the process is the one that it was started for
    obtain ⟨u, hu, rfl⟩ := hserved.owned w _ _ ref hkey hget
    obtain rfl : t = u := Option.some.inj (href.symm.trans hu)
    obtain ⟨worker, hworker, hserves⟩ := hserved.thread t ht
    refine ⟨worker, ?_, hserves⟩
    rw [← (manager_refines_calls h t.cameraId).1 (Sys.starting_of_free hfree), Sys.registered, hw]
    exact hworker
  · intro hmax ref ref' t t' ht ht' halive halive' hsame
    obtain ⟨worker, hworker, hserves⟩ := hserved.thread t (List.mem_of_getElem? ht)
    obtain ⟨worker', hworker', hserves'⟩ := hserved.thread t' (List.mem_of_getElem? ht')
    obtain ⟨hid, hport⟩ := hserves.port_eq (hserved.ported _ (List.mem_of_getElem? hworker))
    obtain ⟨hid', hport'⟩ := hserves'.port_eq (hserved.ported _ (List.mem_of_getElem? hworker'))
    rw [hport, hport'] at hsame
    obtain ⟨hcamera, hservice⟩ := channel_of_port hmax hid hid' hsame
    exact hinv.unique ht ht' halive halive' hcamera hservice

theorem processes_serve_calls_moved : ∃ s t worker, runManager {} restartedThenMoved = some s ∧
    t ∈ s.serviceHeap ∧ t.alive = true ∧
      Workers.calls {} restartedThenMoved t.cameraId = some worker ∧ worker.Serves {} t := by
  have hthreads : (runManager {} restartedThenMoved).map (fun s =>
      (s.serviceHeap.map fun t => (t.cameraId, t.alive), (s.lock 2).isNone)) =
        some ([(1, false), (1, false), (2, true)], true) := by decide +kernel
  obtain ⟨s, hs, hthreads⟩ := Option.map_eq_some_iff.mp hthreads
  obtain ⟨hheap, hfree⟩ := Prod.mk.inj hthreads
  have hmem : (2, true) ∈ s.serviceHeap.map fun t => (t.cameraId, t.alive) := by
    rw [hheap]
    decide
  obtain ⟨t, ht, hkey⟩ := List.mem_map.mp hmem
  obtain ⟨hcamera, halive⟩ := Prod.mk.inj hkey
  obtain ⟨worker, hworker, hserves⟩ := (processes_serve_calls hs).1 t ht halive
    (by rw [hcamera]; exact Option.isNone_iff_eq_none.mp hfree)
  exact ⟨s, t, worker, hs, ht, halive, hworker, hserves⟩

end Run

end DahuaBridge
