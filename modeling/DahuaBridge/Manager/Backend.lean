import DahuaBridge.Manager.Lifecycle

/-!
# The backend over restarts

`start` chooses between `_start_vendor_service` and `_start_service`. The section after a
restart delay does not: it calls `_start_service`, whatever the backend.

* `launches_engine`: with the default backend every process comes from `_start_service`.
* `VendorInv`: with the vendor backend there is one service, no ONVIF thread and no restart
  of a peer.
* `restarts_keep_backend`: with the vendor backend every process is the vendor worker exactly
  if no reader has started its process again.
-/

namespace DahuaBridge

/-! ## Launches -/

namespace Launch

/-- From `_start_vendor_service`, with the port map of the camera. -/
def isVendorFor (cfg : Config) (camera : CameraId) : Launch → Bool
  | vendor _ _ _ map => map.1 = 554 && cfg.portFor camera = some map.2
  | engine .. => false

/-- From `_start_service`. -/
def isEngine : Launch → Bool
  | vendor .. => false
  | engine .. => true

end Launch

theorem not_vendor_of_engine {cfg : Config} {camera : CameraId} {launch : Launch}
    (h : launch.isEngine = true) : ¬launch.isVendorFor cfg camera = true := by
  cases launch with
  | engine => exact nofun
  | vendor => cases h

/-- Every process is one that was there, or its launch has a property. -/
def Launches (P : CameraId → Launch → Prop) (s s' : Sys) : Prop :=
  ∀ (ref : ServiceRef) (t' : ServiceThread), s'.serviceHeap[ref]? = some t' →
    (∃ t, s.serviceHeap[ref]? = some t ∧ t'.cameraId = t.cameraId ∧
      t'.state.process.launch = t.state.process.launch) ∨
    P t'.cameraId t'.state.process.launch

section Launches

variable {P : CameraId → Launch → Prop} {cfg : Config} {s s' s'' : Sys} {camera : CameraId}
  {worker : WorkerRef} {service : Service} {ref : ServiceRef} {ok : Bool}

theorem Launches.of_frame {ready : Prop} (h : Frame ready s s') : Launches P s s' := by
  intro ref t' ht'
  obtain ⟨t, ht, hevolves⟩ := h.thread ref t' ht'
  exact .inl ⟨t, ht, hevolves.cameraId, hevolves.launch⟩

theorem Launches.of_eq (h : s'.serviceHeap = s.serviceHeap) : Launches P s s' :=
  fun _ t' ht' => .inl ⟨t', h ▸ ht', rfl, rfl⟩

theorem Launches.trans (h : Launches P s s') (h' : Launches P s' s'') : Launches P s s'' := by
  intro ref t'' ht''
  rcases h' ref t'' ht'' with ⟨t', ht', hcamera', hlaunch'⟩ | hnew
  · rcases h ref t' ht' with ⟨t, ht, hcamera, hlaunch⟩ | hnew
    · exact .inl ⟨t, ht, hcamera'.trans hcamera, hlaunch'.trans hlaunch⟩
    · rw [hcamera', hlaunch']
      exact .inr hnew
  · exact .inr hnew

theorem Launches.getD {o : Option Sys} (hsome : ∀ t, o = some t → Launches P s t)
    (hnone : Launches P s s') : Launches P s (o.getD s') := by
  cases ho : o with
  | none => exact hnone
  | some t => exact hsome t ho

theorem launches_addService {launch : Launch} (h : P camera launch) :
    Launches P s (s.addService camera worker service launch) := by
  intro ref t' ht'
  simp only [Sys.addService] at ht'
  rcases Nat.lt_or_ge ref s.serviceHeap.length with hlt | hge
  · rw [List.getElem?_append_left hlt] at ht'
    exact .inl ⟨t', ht', rfl, rfl⟩
  · rw [List.getElem?_append_right hge] at ht'
    obtain rfl := List.mem_singleton.mp (List.mem_of_getElem? ht')
    exact .inr h

theorem launches_startService (hengine : ∀ launch, launch.isEngine = true → P camera launch)
    (h : s.startService cfg camera worker service ok = some s') : Launches P s s' := by
  simp only [Sys.startService, Option.bind_eq_bind, Option.bind_eq_some_iff] at h
  obtain ⟨owner, _, bindPort, _, _, _, h⟩ := h
  obtain rfl := Option.some.inj h
  exact (launches_addService (hengine _ rfl)).trans
    (.of_frame (frame_appendLog cfg worker _ : Frame True _ _))

theorem launches_startVendorService
    (hvendor : ∀ owner serial username password, s.workerHeap[worker]? = some owner →
      P camera (.vendor serial username password (554, owner.worker.port)))
    (h : s.startVendorService cfg camera worker ok = some s') : Launches P s s' := by
  simp only [Sys.startVendorService, Option.bind_eq_bind, Option.bind_eq_some_iff] at h
  obtain ⟨owner, howner, _, _, _, _, h⟩ := h
  obtain rfl := Option.some.inj h
  exact (launches_addService (hvendor owner _ _ _ howner)).trans
    (.of_frame (frame_appendLog cfg worker _ : Frame True _ _))

theorem launches_onvifStart (hengine : ∀ camera launch, launch.isEngine = true → P camera launch)
    (h : s.onvifStart cfg worker ok = some s') : Launches P s s' := by
  simp only [Sys.onvifStart, Option.bind_eq_bind, Option.bind_eq_some_iff] at h
  obtain ⟨thread, _, _, _, _, _, h⟩ := h
  have hdone : Launches P s (s.setOnvif worker .done) := .of_eq rfl
  split at h
  · obtain rfl := Option.some.inj h
    exact .getD (fun t ht => hdone.trans (launches_startService (hengine _) ht)) hdone
  · obtain rfl := Option.some.inj h
    exact hdone

theorem launches_restartPeer {code : Int}
    (hengine : ∀ camera launch, launch.isEngine = true → P camera launch) :
    Launches P s (s.restartPeer cfg camera worker code ok) := by
  unfold Sys.restartPeer
  split
  · split
    · next peer _ =>
      have hkilled : Launches P s ((s.exitProcess peer code).appendLog cfg worker
          (.message "[P2P] Restarting RTSP after the ONVIF channel detected a stalled tunnel")) :=
        .of_frame ((frame_exitProcess peer code).trans (frame_appendLog cfg worker _) :
          Frame True _ _)
      exact .getD (fun t ht => hkilled.trans (launches_startService (hengine _) ht)) hkilled
    · exact .of_eq rfl
  · exact .of_eq rfl

theorem launches_restart {code : Int} {peerOk : Bool}
    (hengine : ∀ camera launch, launch.isEngine = true → P camera launch)
    (h : s.restart cfg ref ok code peerOk = some s') : Launches P s s' := by
  obtain ⟨thread, _, _, _, rfl⟩ := Sys.restart_eq_some h
  have hdone : Launches P s (s.setReader ref .done) :=
    .of_frame (frame_setReader_done ref : Frame True _ _)
  cases hown : s.restartOwn cfg ref thread ok with
  | none => exact hdone
  | some u =>
    have hrestarted : Launches P s u := by
      rcases Sys.restartOwn_eq_some hown with ⟨_, hu⟩ | ⟨_, rfl⟩
      · exact hdone.trans (launches_startService (hengine _) hu)
      · exact hdone
    simp only
    split
    · exact hrestarted.trans (launches_restartPeer hengine)
    · exact hrestarted

/-- The first process of a worker comes from the backend. -/
theorem launches_launch (hengine : cfg.backend = .engine → ∀ launch, launch.isEngine = true →
      P camera launch)
    (hvendor : cfg.backend = .vendor → ∀ w owner serial username password,
      s.lock camera = some (.launch w) → s.workerHeap[w]? = some owner →
      P camera (.vendor serial username password (554, owner.worker.port)))
    (h : s.launch cfg camera ok = some s') : Launches P s s' := by
  have hlock (holder : Option Section) : Launches P s (s.setLock camera holder) := .of_eq rfl
  unfold Sys.launch at h
  split at h
  · next w hlaunch =>
    split at h
    · next hbackend =>
      obtain rfl := Option.some.inj h
      exact .getD (fun t ht => (hlock none).trans (launches_startVendorService
        (fun owner _ _ _ howner => hvendor hbackend w owner _ _ _ hlaunch howner) ht)) (hlock none)
    · next hbackend =>
      obtain rfl := Option.some.inj h
      exact .getD (fun t ht => (hlock _).trans (launches_startService (hengine hbackend) ht))
        (hlock none)
  · cases h

/-- The event does not start a process. -/
def Event.Launchless : Event → Prop
  | .launch _ _ => False
  | .onvifStart _ _ => False
  | .restart _ _ _ _ => False
  | _ => True

theorem launches_of_launchless {event : Event} (hevent : event.Launchless)
    (h : s.step cfg event = some s') : Launches P s s' := by
  have hframe (hframe : Frame event.PrintsReady s s') : Launches P s s' := .of_frame hframe
  cases event with
  | start camera password =>
    obtain ⟨_, rfl⟩ := Sys.start_eq_some h
    exact .of_eq rfl
  | stop camera =>
    obtain ⟨_, rfl⟩ := Sys.stop_eq_some h
    exact .of_eq rfl
  | kill camera code =>
    obtain ⟨ref, next, rfl, _⟩ := Sys.kill_eq_some h
    exact (Launches.of_frame (frame_exitProcess ref code : Frame True _ _)).trans (.of_eq rfl)
  | createWorker camera =>
    obtain ⟨row, password, _, rfl | ⟨port, _, rfl⟩⟩ := Sys.createWorker_eq_some h
    · exact .of_eq rfl
    · exact .of_eq rfl
  | launch camera ok => exact hevent.elim
  | spawn camera =>
    obtain ⟨_, _, rfl⟩ := Sys.spawn_eq_some h
    exact .of_eq rfl
  | stopReturns camera =>
    obtain ⟨_, rfl⟩ := Sys.stopReturns_eq_some h
    exact .of_eq rfl
  | onvifCheck worker expired => exact hframe (frame_onvifCheck h)
  | onvifWatch worker => exact hframe (frame_onvifWatch h)
  | onvifStart worker ok => exact hevent.elim
  | exit ref code =>
    obtain ⟨_, _, _, rfl⟩ := Sys.exit_eq_some h
    exact hframe (frame_exitProcess ref code)
  | line ref raw now => exact hframe (frame_handleLine h)
  | endOutput ref => exact hframe (frame_endOutput h)
  | handleExit ref now jitter => exact hframe (frame_handleExit h)
  | restart ref ok code peerOk => exact hevent.elim

end Launches

/-! ## The default backend -/

/-- With the default backend every process comes from `_start_service`. -/
theorem launches_engine {cfg : Config} {events : List Event} {s : Sys}
    (hbackend : cfg.backend = .engine) (h : runManager cfg events = some s) :
    ∀ t ∈ s.serviceHeap, t.state.process.launch.isEngine = true := by
  let I (s : Sys) : Prop := ∀ t ∈ s.serviceHeap, t.state.process.launch.isEngine = true
  have hinit : I {} := fun t ht => absurd ht List.not_mem_nil
  refine Run.run_invariant (I := I) hinit ?_ h
  intro event s s' hs hstep t' ht'
  have hlaunches : Launches (fun _ launch => launch.isEngine = true) s s' := by
    by_cases hevent : event.Launchless
    · exact launches_of_launchless hevent hstep
    · cases event with
      | launch camera ok =>
        refine launches_launch (fun _ _ hengine => hengine) (fun hvendor => ?_) hstep
        cases hbackend.symm.trans hvendor
      | onvifStart worker ok => exact launches_onvifStart (fun _ _ hengine => hengine) hstep
      | restart ref ok code peerOk => exact launches_restart (fun _ _ hengine => hengine) hstep
      | _ => exact absurd True.intro hevent
  obtain ⟨ref, href⟩ := List.mem_iff_getElem?.mp ht'
  rcases hlaunches ref t' href with ⟨t, ht, _, hlaunch⟩ | hnew
  · rw [hlaunch]
    exact hs t (List.mem_of_getElem? ht)
  · exact hnew

/-! ## The vendor backend -/

/-- With the vendor backend a worker has one service, `rtsp`; there are no ONVIF threads and
no restarts of a peer. -/
structure VendorInv (cfg : Config) (s : Sys) : Prop where
  spawn : ∀ camera w, s.lock camera ≠ some (.spawn w)
  onvif : ∀ o ∈ s.workerHeap, o.onvif = .none
  port : ∀ o ∈ s.workerHeap, cfg.portFor o.worker.camera.id = some o.worker.port
  service : ∀ t ∈ s.serviceHeap, t.state.service = .rtsp
  peer : ∀ t ∈ s.serviceHeap, t.reader.awaitsPeer = false

theorem vendorInv_init (cfg : Config) : VendorInv cfg {} where
  spawn _ _ h := by cases h
  onvif _ h := absurd h List.not_mem_nil
  port _ h := absurd h List.not_mem_nil
  service _ h := absurd h List.not_mem_nil
  peer _ h := absurd h List.not_mem_nil

section Vendor

variable {cfg : Config} {s s' : Sys} {camera : CameraId} {w : WorkerRef} {ref : ServiceRef}

theorem VendorInv.of_heaps (h : VendorInv cfg s) (hworkers : s'.workerHeap = s.workerHeap)
    (hservices : s'.serviceHeap = s.serviceHeap)
    (hlock : ∀ camera w, s'.lock camera ≠ some (.spawn w)) : VendorInv cfg s' where
  spawn := hlock
  onvif := hworkers ▸ h.onvif
  port := hworkers ▸ h.port
  service := hservices ▸ h.service
  peer := hservices ▸ h.peer

theorem VendorInv.update_lock (h : VendorInv cfg s) {next : Option Section}
    (hlock : s'.lock = Function.update s.lock camera next) (hnext : ∀ w, next ≠ some (.spawn w)) :
    ∀ camera w, s'.lock camera ≠ some (.spawn w) := by
  intro camera' w
  rw [hlock]
  by_cases hcamera : camera' = camera
  · rw [hcamera, Function.update_self]
    exact hnext w
  · rw [Function.update_of_ne hcamera]
    exact h.spawn camera' w

theorem VendorInv.modifyService (h : VendorInv cfg s) {f : ServiceThread → ServiceThread}
    (hf : ∀ t : ServiceThread, (f t).state.service = t.state.service ∧
      (t.reader.awaitsPeer = false → (f t).reader.awaitsPeer = false)) :
    VendorInv cfg (s.modifyService ref f) := by
  have hmem : ∀ t' ∈ (s.modifyService ref f).serviceHeap, ∃ t ∈ s.serviceHeap, t' = t ∨ t' = f t := by
    intro t' ht'
    obtain ⟨i, hi⟩ := List.mem_iff_getElem?.mp ht'
    rw [Sys.modifyService, List.getElem?_modify] at hi
    obtain ⟨t, ht, rfl⟩ := Option.map_eq_some_iff.mp hi
    refine ⟨t, List.mem_of_getElem? ht, ?_⟩
    split
    · exact .inr rfl
    · exact .inl rfl
  refine ⟨h.spawn, h.onvif, h.port, fun t' ht' => ?_, fun t' ht' => ?_⟩
  · obtain ⟨t, ht, rfl | rfl⟩ := hmem t' ht'
    · exact h.service t' ht
    · exact (hf t).1.trans (h.service t ht)
  · obtain ⟨t, ht, rfl | rfl⟩ := hmem t' ht'
    · exact h.peer t' ht
    · exact (hf t).2 (h.peer t ht)

theorem VendorInv.modifyState (h : VendorInv cfg s) {f : ServiceState → ServiceState}
    (hf : ∀ state, (f state).service = state.service) : VendorInv cfg (s.modifyState ref f) :=
  h.modifyService fun t => ⟨hf t.state, id⟩

theorem VendorInv.setReader (h : VendorInv cfg s) {reader : Reader}
    (hreader : reader.awaitsPeer = false) : VendorInv cfg (s.setReader ref reader) :=
  h.modifyService fun _ => ⟨rfl, fun _ => hreader⟩

theorem VendorInv.modifyServiceOf (h : VendorInv cfg s) {service : Service}
    {f : ServiceState → ServiceState} (hf : ∀ state, (f state).service = state.service) :
    VendorInv cfg (s.modifyServiceOf w service f) := by
  unfold Sys.modifyServiceOf
  split
  · exact h.modifyState hf
  · exact h

theorem VendorInv.modifyWorker (h : VendorInv cfg s) {f : WorkerThread → WorkerThread}
    (hf : ∀ o : WorkerThread, (f o).onvif = o.onvif ∧ (f o).worker.camera = o.worker.camera ∧
      (f o).worker.port = o.worker.port) : VendorInv cfg (s.modifyWorker w f) := by
  have hmem : ∀ o' ∈ (s.modifyWorker w f).workerHeap, ∃ o ∈ s.workerHeap, o' = o ∨ o' = f o := by
    intro o' ho'
    obtain ⟨i, hi⟩ := List.mem_iff_getElem?.mp ho'
    rw [Sys.modifyWorker, List.getElem?_modify] at hi
    obtain ⟨o, ho, rfl⟩ := Option.map_eq_some_iff.mp hi
    refine ⟨o, List.mem_of_getElem? ho, ?_⟩
    split
    · exact .inr rfl
    · exact .inl rfl
  refine ⟨h.spawn, fun o' ho' => ?_, fun o' ho' => ?_, h.service, h.peer⟩
  · obtain ⟨o, ho, rfl | rfl⟩ := hmem o' ho'
    · exact h.onvif o' ho
    · exact (hf o).1.trans (h.onvif o ho)
  · obtain ⟨o, ho, rfl | rfl⟩ := hmem o' ho'
    · exact h.port o' ho
    · rw [(hf o).2.1, (hf o).2.2]
      exact h.port o ho

theorem VendorInv.appendLog (h : VendorInv cfg s) (line : LogLine) :
    VendorInv cfg (s.appendLog cfg w line) := h.modifyWorker fun _ => ⟨rfl, rfl, rfl⟩

/-- One more RTSP process. -/
theorem VendorInv.addService (h : VendorInv cfg s) (launch : Launch) :
    VendorInv cfg (s.addService camera w .rtsp launch) := by
  have hworkers : VendorInv cfg (s.modifyWorker w fun owner => { owner with worker :=
      { owner.worker with services := owner.worker.services.set .rtsp s.serviceHeap.length } }) :=
    h.modifyWorker fun _ => ⟨rfl, rfl, rfl⟩
  refine ⟨h.spawn, hworkers.onvif, hworkers.port, fun t ht => ?_, fun t ht => ?_⟩
  · rcases List.mem_append.mp ht with ht | ht
    · exact h.service t ht
    · rw [List.mem_singleton.mp ht]
  · rcases List.mem_append.mp ht with ht | ht
    · exact h.peer t ht
    · rw [List.mem_singleton.mp ht]
      rfl

theorem VendorInv.startService (h : VendorInv cfg s) {ok : Bool}
    (hstart : s.startService cfg camera w .rtsp ok = some s') : VendorInv cfg s' := by
  obtain ⟨launch, message, rfl⟩ := startService_eq_some hstart
  exact (h.addService launch).appendLog (.message message)

theorem VendorInv.startVendorService (h : VendorInv cfg s) {ok : Bool}
    (hstart : s.startVendorService cfg camera w ok = some s') : VendorInv cfg s' := by
  obtain ⟨launch, message, rfl⟩ := startVendorService_eq_some hstart
  exact (h.addService launch).appendLog (.message message)

/-! ### Steps -/

theorem VendorInv.handleLine (h : VendorInv cfg s) {raw : String} {now : ℚ}
    (hstep : s.handleLine cfg ref raw now = some s') : VendorInv cfg s' := by
  simp only [Sys.handleLine, Option.bind_eq_bind, Option.bind_eq_some_iff] at hstep
  obtain ⟨thread, _, _, _, hstep⟩ := hstep
  obtain rfl := Option.some.inj hstep
  refine ((h.appendLog _).modifyState fun state => ?_).modifyServiceOf fun state => ?_
  · unfold ServiceState.onLine
    split <;> rfl
  · unfold ServiceState.onOnvif
    split
    · split <;> rfl
    · rfl
    · rfl

theorem VendorInv.endOutput (h : VendorInv cfg s) (hstep : s.endOutput ref = some s') :
    VendorInv cfg s' := by
  simp only [Sys.endOutput, Option.bind_eq_bind, Option.bind_eq_some_iff] at hstep
  obtain ⟨thread, _, _, _, hstep⟩ := hstep
  obtain rfl := Option.some.inj hstep
  refine VendorInv.setReader ?_ rfl
  exact h.modifyState fun _ => rfl

/-- Without an ONVIF process there is no peer to restart. -/
theorem VendorInv.stuckPeer (h : VendorInv cfg s) {thread : ServiceThread}
    (hthread : s.serviceHeap[ref]? = some thread) : s.stuckPeer ref thread = false := by
  have hservice := h.service thread (List.mem_of_getElem? hthread)
  unfold Sys.stuckPeer
  rw [hservice]
  rfl

theorem VendorInv.handleExit (h : VendorInv cfg s) {now jitter : ℚ}
    (hstep : s.handleExit cfg ref now jitter = some s') : VendorInv cfg s' := by
  simp only [Sys.handleExit, Option.bind_eq_bind, Option.bind_eq_some_iff] at hstep
  obtain ⟨thread, hthread, _, _, code, _, owner, _, hstep⟩ := hstep
  split at hstep
  · split at hstep
    · obtain ⟨_, _, hstep⟩ := Option.bind_eq_some_iff.mp hstep
      obtain rfl := Option.some.inj hstep
      unfold Sys.reconnectExit
      simp only [h.stuckPeer hthread, Bool.false_eq_true, if_false]
      refine VendorInv.appendLog (VendorInv.modifyState (h.setReader rfl) ?_) _
      exact fun _ => rfl
    · obtain ⟨_, _, hstep⟩ := Option.bind_eq_some_iff.mp hstep
      obtain rfl := Option.some.inj hstep
      unfold Sys.otherExit
      split
      · refine VendorInv.setReader (VendorInv.appendLog ?_ _) rfl
        exact h.modifyState fun _ => rfl
      split
      · refine VendorInv.setReader ?_ rfl
        exact h.modifyState fun _ => rfl
      · refine VendorInv.setReader ?_ rfl
        exact h.modifyState fun _ => rfl
  · obtain rfl := Option.some.inj hstep
    exact h.setReader rfl

/-- What a restart does: nothing but to end the thread, or it starts the RTSP service. -/
theorem VendorInv.restart_cases (h : VendorInv cfg s) {ok peerOk : Bool} {code : Int}
    (hstep : s.restart cfg ref ok code peerOk = some s') :
    ∃ thread, s.serviceHeap[ref]? = some thread ∧ thread.state.service = .rtsp ∧
      s' = if s.isRecorded ref thread then
          ((s.setReader ref .done).startService cfg thread.cameraId thread.worker .rtsp ok).getD
            (s.setReader ref .done)
        else s.setReader ref .done := by
  obtain ⟨thread, hthread, _, _, rfl⟩ := Sys.restart_eq_some hstep
  have hmem := List.mem_of_getElem? hthread
  refine ⟨thread, hthread, h.service thread hmem, ?_⟩
  rw [h.peer thread hmem, Sys.restartOwn, h.service thread hmem]
  cases s.isRecorded ref thread with
  | true =>
    rw [if_pos rfl, if_pos rfl]
    cases (s.setReader ref .done).startService cfg thread.cameraId thread.worker .rtsp ok <;> rfl
  | false => rfl

theorem VendorInv.restart (h : VendorInv cfg s) {ok peerOk : Bool} {code : Int}
    (hstep : s.restart cfg ref ok code peerOk = some s') : VendorInv cfg s' := by
  obtain ⟨thread, _, _, rfl⟩ := h.restart_cases hstep
  have hdone : VendorInv cfg (s.setReader ref .done) := h.setReader rfl
  split
  · cases hstart : (s.setReader ref .done).startService cfg thread.cameraId thread.worker .rtsp ok with
    | none => exact hdone
    | some u => exact hdone.startService hstart
  · exact hdone

theorem VendorInv.launch (h : VendorInv cfg s) (hbackend : cfg.backend = .vendor) {ok : Bool}
    (hstep : s.launch cfg camera ok = some s') : VendorInv cfg s' := by
  simp only [Sys.launch, hbackend] at hstep
  split at hstep
  · next w hlock =>
    obtain rfl := Option.some.inj hstep
    have hfree : VendorInv cfg (s.setLock camera none) :=
      h.of_heaps rfl rfl (h.update_lock rfl nofun)
    cases hstart : (s.setLock camera none).startVendorService cfg camera w ok with
    | none => exact hfree
    | some u => exact hfree.startVendorService hstart
  · cases hstep

theorem VendorInv.createWorker (h : VendorInv cfg s) (hinv : s.Inv)
    (hstep : s.createWorker cfg camera = some s') : VendorInv cfg s' := by
  obtain ⟨row, password, hlock, rfl | ⟨port, hport, rfl⟩⟩ := Sys.createWorker_eq_some hstep
  · exact h.of_heaps rfl rfl (h.update_lock rfl nofun)
  · have hrow : row.id = camera := (hinv.holder camera _ hlock).1
    refine ⟨h.update_lock rfl nofun, fun o ho => ?_, fun o ho => ?_, h.service, h.peer⟩
    · rcases List.mem_append.mp ho with ho | ho
      · exact h.onvif o ho
      · rw [List.mem_singleton.mp ho]
    · rcases List.mem_append.mp ho with ho | ho
      · exact h.port o ho
      · rw [List.mem_singleton.mp ho, hrow]
        exact hport

/-- The ONVIF thread of a worker has not been started. -/
theorem VendorInv.not_onvif (h : VendorInv cfg s) {thread : WorkerThread}
    (hthread : s.workerHeap[w]? = some thread) : thread.onvif = .none :=
  h.onvif thread (List.mem_of_getElem? hthread)

theorem VendorInv.step (h : VendorInv cfg s) (hbackend : cfg.backend = .vendor) (hinv : s.Inv)
    {event : Event} (hstep : s.step cfg event = some s') : VendorInv cfg s' := by
  cases event with
  | start row password =>
    obtain ⟨_, rfl⟩ := Sys.start_eq_some hstep
    exact h.of_heaps rfl rfl (h.update_lock rfl nofun)
  | stop camera =>
    obtain ⟨_, rfl⟩ := Sys.stop_eq_some hstep
    exact h.of_heaps rfl rfl (h.update_lock rfl nofun)
  | kill camera code =>
    obtain ⟨ref, next, rfl, hlock⟩ := Sys.kill_eq_some hstep
    have hexited : VendorInv cfg (s.exitProcess ref code) := h.modifyState fun _ => rfl
    refine hexited.of_heaps rfl rfl (hexited.update_lock rfl ?_)
    rcases hlock with ⟨_, _, rfl⟩ | ⟨_, _, _, _, rfl⟩
    · exact nofun
    · exact nofun
  | createWorker camera => exact h.createWorker hinv hstep
  | launch camera ok => exact h.launch hbackend hstep
  | spawn camera =>
    obtain ⟨w, hlock, _⟩ := Sys.spawn_eq_some hstep
    exact absurd hlock (h.spawn camera w)
  | stopReturns camera =>
    obtain ⟨_, rfl⟩ := Sys.stopReturns_eq_some hstep
    exact h.of_heaps rfl rfl (h.update_lock rfl nofun)
  | onvifCheck w expired =>
    simp only [Sys.step, Sys.onvifCheck, Option.bind_eq_bind, Option.bind_eq_some_iff] at hstep
    obtain ⟨thread, hthread, _, hpolling, _⟩ := hstep
    simp [h.not_onvif hthread] at hpolling
  | onvifWatch w =>
    simp only [Sys.step, Sys.onvifWatch, Option.bind_eq_bind, Option.bind_eq_some_iff] at hstep
    obtain ⟨thread, hthread, hstep⟩ := hstep
    rw [h.not_onvif hthread] at hstep
    cases hstep
  | onvifStart w ok =>
    simp only [Sys.step, Sys.onvifStart, Option.bind_eq_bind, Option.bind_eq_some_iff] at hstep
    obtain ⟨thread, hthread, _, hstarting, _⟩ := hstep
    simp [h.not_onvif hthread] at hstarting
  | exit ref code =>
    obtain ⟨_, _, _, rfl⟩ := Sys.exit_eq_some hstep
    exact h.modifyState fun _ => rfl
  | line ref raw now => exact h.handleLine hstep
  | endOutput ref => exact h.endOutput hstep
  | handleExit ref now jitter => exact h.handleExit hstep
  | restart ref ok code peerOk => exact h.restart hstep

end Vendor

/-! ## Restarts -/

/-- A reader starts its process again: the delay is over, its state is still recorded in the
current worker, and `Popen` succeeds. -/
def Sys.Rebuilds (s : Sys) : Event → Prop
  | .restart ref ok _ _ => ok = true ∧ (s.serviceHeap[ref]?).any (s.isRecorded ref) = true
  | _ => False

instance (s : Sys) (event : Event) : Decidable (s.Rebuilds event) := by
  cases event <;> unfold Sys.Rebuilds <;> infer_instance

/-- Every process is the vendor worker with the port map of its camera. -/
def Sys.AllVendor (cfg : Config) (s : Sys) : Prop :=
  ∀ t ∈ s.serviceHeap, t.state.process.launch.isVendorFor cfg t.cameraId = true

section Restarts

variable {cfg : Config} {s s' : Sys} {event : Event}

theorem Sys.AllVendor.of_launches
    (h : s.AllVendor cfg) (hlaunches : Launches (fun camera launch =>
      launch.isVendorFor cfg camera = true) s s') : s'.AllVendor cfg := by
  intro t' ht'
  obtain ⟨ref, href⟩ := List.mem_iff_getElem?.mp ht'
  rcases hlaunches ref t' href with ⟨t, ht, hcamera, hlaunch⟩ | hnew
  · rw [hcamera, hlaunch]
    exact h t (List.mem_of_getElem? ht)
  · exact hnew

/-- A process that has been started stays as it was launched. -/
theorem Sys.AllVendor.of_step (h : s'.AllVendor cfg) (hstep : s.step cfg event = some s') :
    s.AllVendor cfg := by
  have hevolves := step_evolves hstep
  intro t ht
  obtain ⟨ref, href⟩ := List.mem_iff_getElem?.mp ht
  have hlt := (List.getElem?_eq_some_iff.mp href).1
  have hget := List.getElem?_eq_getElem (Nat.lt_of_lt_of_le hlt hevolves.length)
  have hvendor := h _ (List.mem_of_getElem? hget)
  rcases hevolves.thread ref _ hget with ⟨t', ht', he⟩ | ⟨hge, _⟩
  · obtain rfl : t = t' := Option.some.inj (href.symm.trans ht')
    rwa [he.cameraId, he.launch] at hvendor
  · exact absurd hlt (Nat.not_lt.mpr hge)

theorem Sys.AllVendor.of_run {events : List Event} (h : s'.AllVendor cfg)
    (hrun : Run.run (Sys.step cfg) events s = some s') : s.AllVendor cfg := by
  induction events generalizing s with
  | nil =>
    obtain rfl : s = s' := Option.some.inj hrun
    exact h
  | cons event events ih =>
    obtain ⟨t, hstep, hrest⟩ := Option.bind_eq_some_iff.mp hrun
    exact (ih hrest).of_step hstep

/-- The RTSP service can be started for every worker that exists. -/
theorem exists_startService {camera : CameraId} {w : WorkerRef} {owner : WorkerThread}
    (howner : s.workerHeap[w]? = some owner) :
    ∃ u, s.startService cfg camera w .rtsp true = some u ∧
      ∃ t ∈ u.serviceHeap, t.state.process.launch.isEngine = true := by
  obtain ⟨u, hu⟩ : ∃ u, s.startService cfg camera w .rtsp true = some u := by
    simp only [Sys.startService, howner, Config.bindPort]
    exact ⟨_, rfl⟩
  refine ⟨u, hu, ?_⟩
  simp only [Sys.startService, Option.bind_eq_bind, Option.bind_eq_some_iff] at hu
  obtain ⟨_, _, _, _, _, _, hu⟩ := hu
  obtain rfl := Option.some.inj hu
  exact ⟨_, List.mem_append_right _ (List.mem_singleton_self _), rfl⟩

/-- With the vendor backend a restart keeps the processes what they are exactly if it starts
none. -/
theorem VendorInv.restart_iff (h : VendorInv cfg s) (hall : s.AllVendor cfg) {ref : ServiceRef}
    {ok peerOk : Bool} {code : Int} (hstep : s.restart cfg ref ok code peerOk = some s') :
    s'.AllVendor cfg ↔ ¬s.Rebuilds (.restart ref ok code peerOk) := by
  obtain ⟨thread, hthread, hservice, rfl⟩ := h.restart_cases hstep
  have hdone : (s.setReader ref .done).AllVendor cfg :=
    hall.of_launches (.of_frame (frame_setReader_done ref : Frame True _ _))
  have hrebuilds : s.Rebuilds (.restart ref ok code peerOk) ↔
      ok = true ∧ s.isRecorded ref thread = true := by
    rw [Sys.Rebuilds, hthread, Option.any_some]
  rw [hrebuilds]
  by_cases hrecorded : s.isRecorded ref thread = true
  · rw [if_pos hrecorded]
    cases ok with
    | false =>
      have hnone : (s.setReader ref .done).startService cfg thread.cameraId thread.worker .rtsp
          false = none := by
        refine Option.eq_none_iff_forall_ne_some.mpr fun u hu => ?_
        simp [Sys.startService, guard] at hu
      rw [hnone]
      exact iff_of_true hdone (by simp)
    | true =>
      obtain ⟨owner, howner⟩ : ∃ owner, s.workerHeap[thread.worker]? = some owner := by
        unfold Sys.isRecorded at hrecorded
        cases howner : s.workerHeap[thread.worker]? with
        | none => simp [howner] at hrecorded
        | some owner => exact ⟨owner, rfl⟩
      have howner' : (s.setReader ref .done).workerHeap[thread.worker]? = some owner := howner
      obtain ⟨u, hu, t, ht, hengine⟩ : ∃ u, (s.setReader ref .done).startService cfg thread.cameraId
          thread.worker .rtsp true = some u ∧ ∃ t ∈ u.serviceHeap,
            t.state.process.launch.isEngine = true := exists_startService howner'
      rw [hu]
      -- the new process comes from `_start_service`
      exact iff_of_false (fun hvendor => not_vendor_of_engine hengine (hvendor t ht))
        (by simp [hrecorded])
  · rw [if_neg hrecorded]
    exact iff_of_true hdone fun hrebuilds => hrecorded hrebuilds.2

/-- What every step does with the vendor backend. -/
theorem VendorInv.step_iff (h : VendorInv cfg s) (hbackend : cfg.backend = .vendor) (hinv : s.Inv)
    (hall : s.AllVendor cfg) (hstep : s.step cfg event = some s') :
    s'.AllVendor cfg ↔ ¬s.Rebuilds event := by
  by_cases hevent : event.Launchless
  · refine iff_of_true (hall.of_launches (launches_of_launchless hevent hstep)) fun hrebuilds => ?_
    cases event with
    | restart ref ok code peerOk => exact hevent.elim
    | _ => exact hrebuilds.elim
  · cases event with
    | launch camera ok =>
      refine iff_of_true (hall.of_launches ?_) id
      refine launches_launch (fun hengine => ?_) (fun _ w owner _ _ _ hlock howner => ?_) hstep
      · cases hbackend.symm.trans hengine
      · -- the port of the worker is that of its camera
        have hkey := (hinv.holder camera _ hlock).2
        have hcamera := (Sys.keys_lookup_unique hkey (Sys.keys_eq_of_getElem? howner)).1
        have hport := h.port owner (List.mem_of_getElem? howner)
        rw [← hcamera] at hport
        simp [Launch.isVendorFor, hport]
    | onvifStart w ok =>
      simp only [Sys.step, Sys.onvifStart, Option.bind_eq_bind, Option.bind_eq_some_iff] at hstep
      obtain ⟨thread, hthread, _, hstarting, _⟩ := hstep
      simp [h.not_onvif hthread] at hstarting
    | restart ref ok code peerOk => exact h.restart_iff hall hstep
    | _ => exact absurd True.intro hevent

end Restarts

/-- Over every run, with the vendor backend every process is the vendor worker with its
camera's port map exactly if no reader has started its process again; with the default
backend every process comes from `_start_service`. -/
theorem restarts_keep_backend {cfg : Config} {events : List Event} {s : Sys}
    (hrun : runManager cfg events = some s) :
    (cfg.backend = .vendor → (s.AllVendor cfg ↔
      Run.Along (Sys.step cfg) (fun t event => ¬t.Rebuilds event) events {})) ∧
    (cfg.backend = .engine → ∀ t ∈ s.serviceHeap, t.state.process.launch.isEngine = true) := by
  refine ⟨fun hbackend => ?_, fun hbackend => launches_engine hbackend hrun⟩
  have hreached : (∀ past t, past <+: events → Run.run (Sys.step cfg) past {} = some t →
      t.AllVendor cfg) ↔ Run.Along (Sys.step cfg) (fun t event => ¬t.Rebuilds event) events {} :=
    Run.reached_iff_along (I := fun t => t.Inv ∧ VendorInv cfg t) (P := fun _ _ => True)
      (fun event t t' _ hinv hall hstep =>
        ⟨⟨(hinv.1.step hstep).1, hinv.2.step hbackend hinv.1 hstep⟩,
          hinv.2.step_iff hbackend hinv.1 hall hstep⟩)
      ⟨Sys.inv_init, vendorInv_init cfg⟩ (fun t ht => absurd ht List.not_mem_nil)
      (Run.along_of_forall (Q := fun _ => True) fun _ _ => True.intro) hrun
  rw [← hreached]
  constructor
  · rintro hall past t ⟨future, rfl⟩ ht
    rw [runManager, Run.run_append, ht] at hrun
    exact hall.of_run hrun
  · exact fun hprefixes => hprefixes events s (List.prefix_refl _) hrun

/-- A vendor worker that asks for a reconnect. -/
def vendorReconnect : List Event :=
  [.start exampleRow "secret", .createWorker 1, .launch 1 true, .exit 0 75, .endOutput 0,
    .handleExit 0 10 0, .restart 0 true 0 true]

/-- The process that takes its place comes from `_start_service`. -/
theorem vendorReconnect_engine : ∃ s, runManager { backend := .vendor } vendorReconnect = some s ∧
    s.serviceHeap.map (fun t => t.state.process.launch.isEngine) = [false, true] ∧
    ¬s.AllVendor { backend := .vendor } := by
  have hview : (runManager { backend := .vendor } vendorReconnect).map
      (fun s => s.serviceHeap.map fun t => t.state.process.launch.isEngine) =
      some [false, true] := by decide +kernel
  obtain ⟨s, hs, hview⟩ := Option.map_eq_some_iff.mp hview
  refine ⟨s, hs, hview, fun hall => ?_⟩
  have hmem : true ∈ s.serviceHeap.map fun t => t.state.process.launch.isEngine := by
    rw [hview]
    exact List.mem_cons_of_mem _ List.mem_cons_self
  obtain ⟨t, ht, hengine⟩ := List.mem_map.mp hmem
  exact not_vendor_of_engine hengine (hall t ht)

/-- Before that every process was the vendor worker. -/
theorem restarts_keep_backend_reconnect :
    ∃ s, runManager { backend := .vendor } (vendorReconnect.take 6) = some s ∧
      s.serviceHeap.length = 1 ∧ s.AllVendor { backend := .vendor } := by
  have hview : (runManager { backend := .vendor } (vendorReconnect.take 6)).map
      (·.serviceHeap.length) = some 1 := by decide +kernel
  obtain ⟨s, hs, hlength⟩ := Option.map_eq_some_iff.mp hview
  exact ⟨s, hs, hlength, ((restarts_keep_backend hs).1 rfl).mpr (by decide +kernel)⟩

end DahuaBridge
