import DahuaBridge.Manager.Backoff

/-!
# Which RTSP session an ONVIF exit restarts

An ONVIF process that asks for a reconnect takes the RTSP session down with it if it finds
it connecting and alive. It finds that out when its exit is handled, and acts after the
delay. In between nobody looks again.

* `Watcher`: a run that remembers what each ONVIF exit saw.
* `restart_of_peerTarget`, `restart_of_no_target`: `peerTarget` names the process that
  a restart terminates.
* `Waiting`: what the RTSP session of a waiting ONVIF reader still is, kept by every step
  that does not disturb it.
* `peer_restart_hits_stuck`: if nothing disturbs the session in the delay, the restart hits
  what was seen, and it is still connecting.
* `mediaInDelay_hits_online`: a session that comes online in the delay is killed.
-/

namespace DahuaBridge

/-! ## What is seen and what is restarted -/

namespace Sys

/-- The RTSP session of a worker, if it is connecting and alive. -/
def connectingRtsp (s : Sys) (worker : WorkerRef) : Option ServiceRef :=
  (s.serviceOf worker .rtsp).filter fun peer =>
    (s.serviceHeap[peer]?).any fun rtsp => rtsp.state.status = .connecting && rtsp.alive

/-- The handling of an exit sees the RTSP session of its worker. -/
def observe (s : Sys) (event : Event) (seen : ServiceRef → Option ServiceRef) :
    ServiceRef → Option ServiceRef :=
  match event with
  | .handleExit ref _ _ =>
    match s.serviceHeap[ref]? with
    | some thread => Function.update seen ref (s.connectingRtsp thread.worker)
    | none => seen
  | _ => seen

/-- The state in which a reader comes to the restart of its peer, if it comes to that. -/
def beforePeer (cfg : Config) (s : Sys) (ref : ServiceRef) (ok : Bool) : Option Sys := do
  let thread ← s.serviceHeap[ref]?
  guard (thread.reader.awaitsPeer && (s.lock thread.cameraId).isNone)
  s.restartOwn cfg ref thread ok

/-- The session whose process the reader then terminates. -/
def peerTarget (cfg : Config) (s : Sys) (ref : ServiceRef) (ok : Bool) : Option ServiceRef := do
  let thread ← s.serviceHeap[ref]?
  let s ← s.beforePeer cfg ref ok
  guard (s.workers thread.cameraId = some thread.worker)
  s.serviceOf thread.worker .rtsp

end Sys

/-- A run and what the exits handled in it have seen. -/
structure Watcher where
  sys : Sys := {}
  seen : ServiceRef → Option ServiceRef := fun _ => none

def Watcher.step (cfg : Config) (w : Watcher) (event : Event) : Option Watcher :=
  (w.sys.step cfg event).map fun s' => { sys := s', seen := w.sys.observe event w.seen }

/-- Watching a run does not change it. -/
theorem watcher_run (cfg : Config) (events : List Event) :
    (Run.run (Watcher.step cfg) events {}).map Watcher.sys = runManager cfg events := by
  refine Run.run_map fun w event => ?_
  rw [Watcher.step, Option.map_map]
  exact Option.map_id'

section Target

variable {cfg : Config} {s s' : Sys} {ref peer : ServiceRef} {ok peerOk : Bool} {code : Int}

/-- The restart terminates its target and starts the RTSP service again. -/
theorem restart_of_peerTarget (hpeer : s.peerTarget cfg ref ok = some peer)
    (hstep : s.restart cfg ref ok code peerOk = some s') :
    ∃ u thread killed, s.beforePeer cfg ref ok = some u ∧ s.serviceHeap[ref]? = some thread ∧
      killed = (u.exitProcess peer code).appendLog cfg thread.worker
        (.message "[P2P] Restarting RTSP after the ONVIF channel detected a stalled tunnel") ∧
      s' = (killed.startService cfg thread.cameraId thread.worker .rtsp peerOk).getD killed := by
  simp only [Sys.peerTarget, Option.bind_eq_bind, Option.bind_eq_some_iff] at hpeer
  obtain ⟨thread, hthread, u, hbefore, _, hcurrent, hpeer⟩ := hpeer
  have hcurrent : u.workers thread.cameraId = some thread.worker := by simpa using hcurrent
  refine ⟨u, thread, _, hbefore, hthread, rfl, ?_⟩
  obtain ⟨thread', hthread', _, _, rfl⟩ := Sys.restart_eq_some hstep
  obtain rfl : thread = thread' := Option.some.inj (hthread.symm.trans hthread')
  simp only [Sys.beforePeer, hthread, Option.bind_eq_bind, Option.bind_some,
    Option.bind_eq_some_iff] at hbefore
  obtain ⟨_, hguard, hown⟩ := hbefore
  have hguard : thread.reader.awaitsPeer = true ∧ (s.lock thread.cameraId).isNone = true := by
    simpa using hguard
  simp only [hown, hguard.1, if_true, Sys.restartPeer, if_pos hcurrent, hpeer]

/-- Without a target the restart terminates nothing. -/
theorem restart_of_no_target (hnone : s.peerTarget cfg ref ok = none)
    (hstep : s.restart cfg ref ok code peerOk = some s') :
    ∃ thread, s.serviceHeap[ref]? = some thread ∧
      s' = (s.restartOwn cfg ref thread ok).getD (s.setReader ref .done) := by
  obtain ⟨thread, hthread, _, hfree, rfl⟩ := Sys.restart_eq_some hstep
  refine ⟨thread, hthread, ?_⟩
  cases hown : s.restartOwn cfg ref thread ok with
  | none => rfl
  | some u =>
    simp only [Option.getD_some]
    split
    · next hawaits =>
      have hbefore : s.beforePeer cfg ref ok = some u := by
        rw [Sys.beforePeer, hthread, Option.bind_eq_bind, Option.bind_some, hawaits, hfree]
        exact hown
      simp only [Sys.peerTarget, hthread, hbefore, Option.bind_eq_bind, Option.bind_some] at hnone
      unfold Sys.restartPeer
      split
      · next hcurrent =>
        rw [hcurrent] at hnone
        have hslot : u.serviceOf thread.worker .rtsp = none := by simpa using hnone
        rw [hslot]
      · rfl
    · rfl

end Target

/-! ## Disturbances -/

/-- The status becomes online. -/
def LineKind.setsOnline : LineKind → Bool
  | .ready _ => true
  | .media => true
  | _ => false

namespace Sys

/-- The process has exited, and not so that it will be started again. -/
def exitsForGood (s : Sys) (ref : ServiceRef) : Bool :=
  match s.serviceHeap[ref]? with
  | some thread =>
    match thread.state.process.returncode, s.workerHeap[thread.worker]? with
    | some code, some owner => code ≠ 75 && (code = 0 || !isTransient owner.worker.logs)
    | _, _ => false
  | none => false

/-- The event takes an RTSP session out of the state that an ONVIF exit has seen: it comes
online, it ends, or its own reader replaces it. -/
def disturbs (s : Sys) (event : Event) (peer : ServiceRef) : Bool :=
  match event with
  | .line ref raw _ => ref = peer && (lineKind .rtsp (rstrip raw)).setsOnline
  | .handleExit ref _ _ => ref = peer && s.exitsForGood ref
  | .restart ref ok _ _ => ref = peer && ok
  | _ => false

/-- The reader is in the delay before a restart of its peer, and its worker is current. -/
def Waits (s : Sys) (ref : ServiceRef) (t : ServiceThread) : Prop :=
  s.serviceHeap[ref]? = some t ∧ t.reader.awaitsPeer = true ∧
    s.workers t.cameraId = some t.worker

/-- No RTSP session that a waiting reader is about to restart is disturbed. -/
def Quiet (s : Sys) (event : Event) : Prop :=
  ∀ t ∈ s.serviceHeap, t.reader.awaitsPeer = true → s.workers t.cameraId = some t.worker →
    ∀ peer ∈ s.serviceOf t.worker .rtsp, s.disturbs event peer = false

instance (s : Sys) (event : Event) : Decidable (s.Quiet event) :=
  inferInstanceAs (Decidable (∀ t ∈ s.serviceHeap, t.reader.awaitsPeer = true →
    s.workers t.cameraId = some t.worker →
      ∀ peer ∈ s.serviceOf t.worker .rtsp, s.disturbs event peer = false))

/-- A waiting reader is about to restart this session. -/
def Awaited (s : Sys) (peer : ServiceRef) : Prop :=
  ∃ ref t, s.Waits ref t ∧ s.serviceOf t.worker .rtsp = some peer

theorem Quiet.of_awaited {s : Sys} {event : Event} {peer : ServiceRef} (h : s.Quiet event)
    (hpeer : s.Awaited peer) : s.disturbs event peer = false := by
  obtain ⟨ref, t, ⟨ht, hawaits, hcurrent⟩, hslot⟩ := hpeer
  exact h t (List.mem_of_getElem? ht) hawaits hcurrent peer hslot

end Sys

/-! ## Waiting readers -/

section Waiting

variable {cfg : Config} {s s' : Sys} {ref peer : ServiceRef} {w : WorkerRef} {camera : CameraId}
  {service : Service} {seen : ServiceRef → Option ServiceRef}

/-- The reader is still the worker's ONVIF session, and the RTSP session is the one that its
exit saw, still connecting. -/
structure Stuck (seen : ServiceRef → Option ServiceRef) (s : Sys) (ref : ServiceRef)
    (t : ServiceThread) : Prop where
  onvif : s.serviceOf t.worker .onvif = some ref
  rtsp : ∃ peer p, seen ref = some peer ∧ s.serviceOf t.worker .rtsp = some peer ∧
    s.serviceHeap[peer]? = some p ∧ p.state.status = .connecting

structure Waiting (seen : ServiceRef → Option ServiceRef) (s : Sys) : Prop where
  worker : ∀ t ∈ s.serviceHeap, t.worker < s.workerHeap.length
  stuck : ∀ ref t, s.Waits ref t → Stuck seen s ref t

theorem waiting_init : Waiting seen {} where
  worker t ht := absurd ht List.not_mem_nil
  stuck ref t h := by cases h.1

/-- No waiting reader belongs to this worker. -/
def Sys.NoneWaits (s : Sys) (w : WorkerRef) : Prop := ∀ ref t, s.Waits ref t → t.worker ≠ w

/-! ### Steps that leave the service heap alone -/

theorem Waiting.of_heap (h : Waiting seen s) (hheap : s'.serviceHeap = s.serviceHeap)
    (hlength : s.workerHeap.length ≤ s'.workerHeap.length)
    (hslots : ∀ w < s.workerHeap.length, ∀ service, s'.serviceOf w service = s.serviceOf w service)
    (hworkers : ∀ camera, ∀ w < s.workerHeap.length, s'.workers camera = some w →
      s.workers camera = some w) : Waiting seen s' where
  worker t ht := Nat.lt_of_lt_of_le (h.worker t (hheap ▸ ht)) hlength
  stuck ref t hwaits := by
    obtain ⟨ht, hawaits, hcurrent⟩ := hwaits
    rw [hheap] at ht
    have hw := h.worker t (List.mem_of_getElem? ht)
    obtain ⟨honvif, peer, p, hseen, hrtsp, hp, hstatus⟩ :=
      h.stuck ref t ⟨ht, hawaits, hworkers t.cameraId t.worker hw hcurrent⟩
    exact ⟨(hslots t.worker hw .onvif).trans honvif, peer, p, hseen,
      (hslots t.worker hw .rtsp).trans hrtsp, hheap ▸ hp, hstatus⟩

/-! ### Steps that write to states and readers -/

/-- No reader starts to wait, and the sessions in `A` stay connecting. -/
structure Spares (A : ServiceRef → Prop) (s s' : Sys) : Prop where
  thread : ∀ (ref : ServiceRef) (t' : ServiceThread), s'.serviceHeap[ref]? = some t' →
    ∃ t, s.serviceHeap[ref]? = some t ∧
      (t'.reader.awaitsPeer = true → t.reader.awaitsPeer = true) ∧
      (A ref → t.state.status = .connecting → t'.state.status = .connecting)

variable {A : ServiceRef → Prop}

theorem Spares.of_eq (h : s'.serviceHeap = s.serviceHeap) : Spares A s s' :=
  ⟨fun _ t' ht' => ⟨t', h ▸ ht', id, fun _ => id⟩⟩

theorem Spares.trans {s'' : Sys} (h : Spares A s s') (h' : Spares A s' s'') : Spares A s s'' where
  thread ref t'' ht'' := by
    obtain ⟨t', ht', hreader', hstatus'⟩ := h'.thread ref t'' ht''
    obtain ⟨t, ht, hreader, hstatus⟩ := h.thread ref t' ht'
    exact ⟨t, ht, hreader ∘ hreader', fun ha => hstatus' ha ∘ hstatus ha⟩

theorem spares_modifyService {f : ServiceThread → ServiceThread}
    (hf : ∀ t, s.serviceHeap[ref]? = some t →
      ((f t).reader.awaitsPeer = true → t.reader.awaitsPeer = true) ∧
      (A ref → t.state.status = .connecting → (f t).state.status = .connecting)) :
    Spares A s (s.modifyService ref f) where
  thread ref' t' ht' := by
    rw [Sys.modifyService, List.getElem?_modify] at ht'
    obtain ⟨t, ht, rfl⟩ := Option.map_eq_some_iff.mp ht'
    refine ⟨t, ht, ?_⟩
    split
    · next href =>
      subst href
      exact hf t ht
    · exact ⟨id, fun _ => id⟩

theorem spares_modifyState {f : ServiceState → ServiceState}
    (hf : ∀ t, s.serviceHeap[ref]? = some t → A ref → t.state.status = .connecting →
      (f t.state).status = .connecting) : Spares A s (s.modifyState ref f) :=
  spares_modifyService fun t ht => ⟨id, hf t ht⟩

theorem spares_modifyServiceOf {f : ServiceState → ServiceState}
    (hf : ∀ ref t, s.serviceOf w service = some ref → s.serviceHeap[ref]? = some t → A ref →
      t.state.status = .connecting → (f t.state).status = .connecting) :
    Spares A s (s.modifyServiceOf w service f) := by
  unfold Sys.modifyServiceOf
  split
  · next ref hslot => exact spares_modifyState fun t ht => hf ref t hslot ht
  · exact .of_eq rfl

theorem spares_setReader {reader : Reader} (h : reader.awaitsPeer = false) :
    Spares A s (s.setReader ref reader) :=
  spares_modifyService fun _ _ => ⟨fun hawaits => (by cases h.symm.trans hawaits), fun _ => id⟩

theorem spares_exitProcess {code : Int} : Spares A s (s.exitProcess ref code) :=
  spares_modifyState fun _ _ _ => id

theorem spares_appendLog {line : LogLine} : Spares A s (s.appendLog cfg w line) := .of_eq rfl

/-- A waiting reader was waiting before, or its exit has been handled in this step. -/
theorem Waiting.of_frame {ready : Prop} (h : Waiting seen s) (hframe : Frame ready s s')
    (hspares : ∀ ref (t : ServiceThread), s.serviceHeap[ref]? = some t → s.Awaited ref →
      t.state.status = .connecting →
      ∃ t', s'.serviceHeap[ref]? = some t' ∧ t'.state.status = .connecting)
    (hwaits : ∀ ref t t', s.serviceHeap[ref]? = some t → s'.Waits ref t' →
      t.reader.awaitsPeer = true ∨ Stuck seen s' ref t') :
    Waiting seen s' where
  worker t' ht' := by
    obtain ⟨ref, href⟩ := List.mem_iff_getElem?.mp ht'
    obtain ⟨t, ht, he⟩ := hframe.thread ref t' href
    have hlength : s'.workerHeap.length = s.workerHeap.length := by
      simpa using congrArg List.length hframe.keys
    rw [he.worker, hlength]
    exact h.worker t (List.mem_of_getElem? ht)
  stuck ref t' hwaits' := by
    obtain ⟨t, ht, he⟩ := hframe.thread ref t' hwaits'.1
    rcases hwaits ref t t' ht hwaits' with hawaits | hstuck
    · have hcurrent : s.workers t.cameraId = some t.worker := by
        rw [← hframe.workers, ← he.worker, ← he.cameraId]
        exact hwaits'.2.2
      obtain ⟨honvif, peer, p, hseen, hrtsp, hp, hstatus⟩ := h.stuck ref t ⟨ht, hawaits, hcurrent⟩
      obtain ⟨p', hp', hstatus'⟩ :=
        hspares peer p hp ⟨ref, t, ⟨ht, hawaits, hcurrent⟩, hrtsp⟩ hstatus
      rw [← he.worker] at honvif hrtsp
      exact ⟨(serviceOf_eq hframe.keys ..).trans honvif, peer, p', hseen,
        (serviceOf_eq hframe.keys ..).trans hrtsp, hp', hstatus'⟩
    · exact hstuck

theorem Spares.connecting {ready : Prop} (hframe : Frame ready s s') (h : Spares A s s')
    {t : ServiceThread} (ht : s.serviceHeap[ref]? = some t) (ha : A ref)
    (hstatus : t.state.status = .connecting) :
    ∃ t', s'.serviceHeap[ref]? = some t' ∧ t'.state.status = .connecting := by
  have hlt : ref < s'.serviceHeap.length := by
    rw [hframe.length]
    exact (List.getElem?_eq_some_iff.mp ht).1
  obtain ⟨t', ht'⟩ : ∃ t', s'.serviceHeap[ref]? = some t' := ⟨_, List.getElem?_eq_getElem hlt⟩
  obtain ⟨u, hu, _, hkeeps⟩ := h.thread ref t' ht'
  obtain rfl : t = u := Option.some.inj (ht.symm.trans hu)
  exact ⟨t', ht', hkeeps ha hstatus⟩

theorem Waiting.of_spares {ready : Prop} (h : Waiting seen s) (hframe : Frame ready s s')
    (hspares : Spares s.Awaited s s') : Waiting seen s' := by
  refine h.of_frame hframe (fun ref t ht ha hs => hspares.connecting hframe ht ha hs) ?_
  intro ref t t' ht hwaits
  obtain ⟨u, hu, hreader, _⟩ := hspares.thread ref t' hwaits.1
  obtain rfl : t = u := Option.some.inj (ht.symm.trans hu)
  exact .inl (hreader hwaits.2.1)

theorem Sys.NoneWaits.of_spares {ready : Prop} (h : s.NoneWaits w) (hframe : Frame ready s s')
    (hspares : Spares A s s') : s'.NoneWaits w := by
  intro ref t' hwaits
  obtain ⟨t, ht, he⟩ := hframe.thread ref t' hwaits.1
  obtain ⟨u, hu, hreader, _⟩ := hspares.thread ref t' hwaits.1
  obtain rfl : t = u := Option.some.inj (ht.symm.trans hu)
  rw [he.worker]
  refine h ref t ⟨ht, hreader hwaits.2.1, ?_⟩
  rw [← hframe.workers, ← he.worker, ← he.cameraId]
  exact hwaits.2.2

/-! ### Starting a process -/

theorem asleep_of_awaitsPeer {t : ServiceThread} (h : t.reader.awaitsPeer = true) :
    t.asleep = true := by
  rw [ServiceThread.asleep]
  cases hreader : t.reader with
  | sleeping _ _ => rfl
  | _ =>
    rw [hreader] at h
    cases h

theorem waits_addService {launch : Launch} {t : ServiceThread}
    (h : (s.addService camera w service launch).Waits ref t) : s.Waits ref t := by
  obtain ⟨ht, hawaits, hcurrent⟩ := h
  rcases Sys.addService_getElem? ht with hold | ⟨_, _, _, hawake⟩
  · exact ⟨hold, hawaits, hcurrent⟩
  · cases hawake.symm.trans (asleep_of_awaitsPeer hawaits)

/-- A process may be started in a worker that no waiting reader belongs to. -/
theorem Waiting.addService (h : Waiting seen s) (hw : w < s.workerHeap.length)
    (hnone : s.NoneWaits w) (launch : Launch) :
    Waiting seen (s.addService camera w service launch) where
  worker t ht := by
    simp only [Sys.addService, List.length_modify]
    rcases List.mem_append.mp ht with ht | ht
    · exact h.worker t ht
    · rw [List.mem_singleton.mp ht]
      exact hw
  stuck ref t hwaits := by
    have hwaits := waits_addService hwaits
    have hslot (service' : Service) : (s.addService camera w service launch).serviceOf t.worker
        service' = s.serviceOf t.worker service' :=
      serviceOf_congr (Sys.keys_addService_ne launch (hnone ref t hwaits).symm) service'
    obtain ⟨honvif, peer, p, hseen, hrtsp, hp, hstatus⟩ := h.stuck ref t hwaits
    exact ⟨(hslot .onvif).trans honvif, peer, p, hseen, (hslot .rtsp).trans hrtsp,
      Sys.addService_old launch hp, hstatus⟩

theorem Waiting.started (h : Waiting seen s) (hw : w < s.workerHeap.length)
    (hnone : s.NoneWaits w) (hstarted : s.Started cfg camera w service s') :
    Waiting seen s' ∧ s'.NoneWaits w := by
  obtain ⟨launch, message, rfl⟩ := hstarted
  have hadded : (s.addService camera w service launch).NoneWaits w := fun ref t hwaits =>
    hnone ref t (waits_addService hwaits)
  have hframe : Frame True (s.addService camera w service launch) _ :=
    frame_appendLog cfg w (.message message)
  exact ⟨(h.addService hw hnone launch).of_spares hframe spares_appendLog,
    hadded.of_spares hframe (spares_appendLog (A := fun _ => True))⟩

theorem Waiting.getD {o : Option Sys} (hsome : ∀ u, o = some u → Waiting seen u)
    (hnone : Waiting seen s) : Waiting seen (o.getD s) := by
  cases ho : o with
  | none => exact hnone
  | some u => exact hsome u ho

/-! ### The lock holder's steps -/

theorem Waiting.setLock (h : Waiting seen s) (holder : Option Section) :
    Waiting seen (s.setLock camera holder) :=
  h.of_heap rfl (Nat.le_refl _) (fun _ _ _ => rfl) fun _ _ _ hw => hw

theorem Waiting.popWorker (h : Waiting seen s) (task : List ServiceRef → Section)
    (stopped : CameraId → Bool) :
    Waiting seen { s.popWorker camera task with stopped := stopped } := by
  refine h.of_heap rfl (Nat.le_refl _) (fun _ _ _ => rfl) fun camera' w _ hw => ?_
  simp only [Sys.popWorker, Function.update_apply] at hw
  split at hw
  · cases hw
  · exact hw

theorem Waiting.kill {code : Int} (h : Waiting seen s) (hstep : s.kill camera code = some s') :
    Waiting seen s' := by
  obtain ⟨ref, next, rfl, _⟩ := Sys.kill_eq_some hstep
  have hkilled : Waiting seen (s.exitProcess ref code) :=
    h.of_spares (frame_exitProcess ref code : Frame True s _) spares_exitProcess
  exact hkilled.setLock _

theorem Waiting.createWorker (h : Waiting seen s) (hstep : s.createWorker cfg camera = some s') :
    Waiting seen s' := by
  obtain ⟨row, password, _, rfl | ⟨port, _, rfl⟩⟩ := Sys.createWorker_eq_some hstep
  · exact h.setLock none
  · refine h.of_heap rfl (by simp) (fun w hw service => ?_) fun camera' w hlt hw => ?_
    · simp only [Sys.serviceOf, List.getElem?_append_left hw]
    · simp only [Function.update_apply] at hw
      split at hw
      · exact absurd (Option.some.inj hw) (Nat.ne_of_gt hlt)
      · exact hw

theorem Waiting.launch {ok : Bool} (h : Waiting seen s) (hinv : s.Inv)
    (hstep : s.launch cfg camera ok = some s') : Waiting seen s' := by
  unfold Sys.launch at hstep
  split at hstep
  · next w hlock =>
    obtain ⟨_, hkey⟩ := hinv.holder camera _ hlock
    obtain ⟨owner, howner, hkey'⟩ :=
      Option.map_eq_some_iff.mp ((List.getElem?_map ..).symm.trans hkey)
    have hw : w < s.workerHeap.length := (List.getElem?_eq_some_iff.mp howner).1
    -- the worker has no services yet, and a waiting reader is one
    have hnone : s.NoneWaits w := by
      rintro ref t hwaits rfl
      have honvif := (h.stuck ref t hwaits).onvif
      rw [Sys.serviceOf, howner, Option.bind_some] at honvif
      have hservices : owner.worker.services = {} := congrArg Prod.snd hkey'
      rw [hservices] at honvif
      cases honvif
    split at hstep
    · obtain rfl := Option.some.inj hstep
      exact .getD (fun u hu => ((h.setLock none).started hw hnone
        (startVendorService_eq_some hu)).1) (h.setLock none)
    · obtain rfl := Option.some.inj hstep
      exact .getD (fun u hu => ((h.setLock _).started hw hnone (startService_eq_some hu)).1)
        (h.setLock none)
  · cases hstep

theorem Waiting.setOnvif (h : Waiting seen s) (onvif : OnvifWait) :
    Waiting seen (s.setOnvif w onvif) :=
  h.of_spares (frame_setOnvif w onvif : Frame True s _) (.of_eq rfl)

theorem Waiting.appendLog (h : Waiting seen s) (line : LogLine) :
    Waiting seen (s.appendLog cfg w line) :=
  h.of_spares (frame_appendLog cfg w line : Frame True s _) spares_appendLog

theorem Waiting.spawn (h : Waiting seen s) (hstep : s.spawn camera = some s') :
    Waiting seen s' := by
  obtain ⟨w, _, rfl⟩ := Sys.spawn_eq_some hstep
  exact (h.setOnvif .polling).setLock none

theorem Waiting.stopReturns (h : Waiting seen s) (hstep : s.stopReturns camera = some s') :
    Waiting seen s' := by
  obtain ⟨_, rfl⟩ := Sys.stopReturns_eq_some hstep
  exact h.of_heap rfl (Nat.le_refl _) (fun _ _ _ => rfl) fun _ _ _ hw => hw

/-! ### The ONVIF thread -/

theorem Waiting.onvifCheck {expired : Bool} (h : Waiting seen s)
    (hstep : s.onvifCheck cfg w expired = some s') : Waiting seen s' := by
  simp only [Sys.onvifCheck, Option.bind_eq_bind, Option.bind_eq_some_iff] at hstep
  obtain ⟨thread, _, _, _, hstep⟩ := hstep
  split at hstep
  · obtain rfl := Option.some.inj hstep
    exact (h.appendLog _).setOnvif _
  split at hstep
  · split at hstep
    · obtain rfl := Option.some.inj hstep
      exact h.setOnvif _
    · obtain rfl := Option.some.inj hstep
      exact h.setOnvif _
  · obtain rfl := Option.some.inj hstep
    exact h.setOnvif _

theorem Waiting.onvifWatch (h : Waiting seen s) (hstep : s.onvifWatch w = some s') :
    Waiting seen s' := by
  simp only [Sys.onvifWatch, Option.bind_eq_bind, Option.bind_eq_some_iff] at hstep
  obtain ⟨thread, _, hstep⟩ := hstep
  split at hstep
  · obtain ⟨service, _, hstep⟩ := Option.bind_eq_some_iff.mp hstep
    split at hstep
    · obtain rfl := Option.some.inj hstep
      exact h.setOnvif _
    · obtain rfl := Option.some.inj hstep
      exact h.setOnvif _
  · cases hstep

/-- The ONVIF service is started where there is none, so nothing waits there. -/
theorem Waiting.onvifStart {ok : Bool} (h : Waiting seen s)
    (hstep : s.onvifStart cfg w ok = some s') : Waiting seen s' := by
  simp only [Sys.onvifStart, Option.bind_eq_bind, Option.bind_eq_some_iff] at hstep
  obtain ⟨thread, hthread, _, _, _, _, hstep⟩ := hstep
  have hdone : Waiting seen (s.setOnvif w .done) := h.setOnvif .done
  split at hstep
  · next hcurrent =>
    obtain rfl := Option.some.inj hstep
    have hnone : s.NoneWaits w := by
      rintro ref t hwaits rfl
      have honvif := (h.stuck ref t hwaits).onvif
      rw [Sys.serviceOf, hthread, Option.bind_some] at honvif
      cases hcurrent.2.symm.trans honvif
    have hw : w < (s.setOnvif w .done).workerHeap.length := by
      rw [Sys.setOnvif, Sys.modifyWorker, List.length_modify]
      exact (List.getElem?_eq_some_iff.mp hthread).1
    exact .getD (fun u hu => (hdone.started hw hnone (startService_eq_some hu)).1) hdone
  · obtain rfl := Option.some.inj hstep
    exact hdone

/-! ### The reader: lines and the end of the output -/

/-- What a worker has under a service is of that service. -/
theorem service_of_serviceOf (hinv : s.Inv) (hslot : s.serviceOf w service = some ref)
    {t : ServiceThread} (ht : s.serviceHeap[ref]? = some t) : t.state.service = service := by
  obtain ⟨owner, howner, hget⟩ := Option.bind_eq_some_iff.mp hslot
  obtain ⟨u, hu, _, hservice⟩ :=
    hinv.services w _ _ service ref (Sys.keys_eq_of_getElem? howner) hget
  obtain rfl : t = u := Option.some.inj (ht.symm.trans hu)
  exact hservice

theorem onLine_status {state : ServiceState} {line : String} {now : ℚ}
    (h : (lineKind state.service line).setsOnline = false) :
    (state.onLine line now).status = state.status := by
  unfold ServiceState.onLine
  cases hkind : lineKind state.service line with
  | ready _ =>
    rw [hkind] at h
    cases h
  | media =>
    rw [hkind] at h
    cases h
  | _ => rfl

theorem Waiting.handleLine {raw : String} {now : ℚ} (h : Waiting seen s) (hinv : s.Inv)
    (hquiet : s.Quiet (.line ref raw now)) (hstep : s.handleLine cfg ref raw now = some s') :
    Waiting seen s' := by
  refine h.of_spares (frame_handleLine hstep) ?_
  simp only [Sys.handleLine, Option.bind_eq_bind, Option.bind_eq_some_iff] at hstep
  obtain ⟨thread, _, _, _, hstep⟩ := hstep
  obtain rfl := Option.some.inj hstep
  have hrtsp {ref : ServiceRef} {t : ServiceThread} (ht : s.serviceHeap[ref]? = some t)
      (ha : s.Awaited ref) : t.state.service = .rtsp := by
    obtain ⟨_, u, _, hslot⟩ := ha
    exact service_of_serviceOf hinv hslot ht
  refine (spares_appendLog.trans (spares_modifyState fun t ht ha hstatus => ?_)).trans
    (spares_modifyServiceOf fun onvif t honvif ht ha _ => ?_)
  · have hdisturbs : (ref = ref && (lineKind .rtsp (rstrip raw)).setsOnline) = false :=
      hquiet.of_awaited ha
    rw [← hrtsp ht ha] at hdisturbs
    exact (onLine_status (by simpa using hdisturbs)).trans hstatus
  · -- the ONVIF session of the worker is not an RTSP session
    have hframe : Frame True s ((s.appendLog cfg thread.worker
        (.printed ref thread.state.service (rstrip raw))).modifyState ref
          (·.onLine (rstrip raw) now)) := by
      refine (frame_appendLog cfg _ _).trans (frame_modifyState fun t _ => ?_)
      exact { evolves_onLine t (rstrip raw) now with online := fun _ => .inr (.inr True.intro) }
    rw [serviceOf_eq hframe.keys] at honvif
    obtain ⟨u, hu, _⟩ := hframe.thread onvif t ht
    cases (hrtsp hu ha).symm.trans (service_of_serviceOf hinv honvif hu)

theorem Waiting.endOutput (h : Waiting seen s) (hstep : s.endOutput ref = some s') :
    Waiting seen s' := by
  refine h.of_spares (frame_endOutput hstep : Frame True s s') ?_
  simp only [Sys.endOutput, Option.bind_eq_bind, Option.bind_eq_some_iff] at hstep
  obtain ⟨thread, _, _, _, hstep⟩ := hstep
  obtain rfl := Option.some.inj hstep
  exact (spares_modifyState fun _ _ _ hstatus => hstatus).trans (spares_setReader rfl)

/-! ### The reader: the exit -/

/-- What is remembered for a reader that does not wait does not matter. -/
theorem Waiting.congr {seen' : ServiceRef → Option ServiceRef} (h : Waiting seen s)
    (hseen : ∀ ref t, s.Waits ref t → seen' ref = seen ref) : Waiting seen' s where
  worker := h.worker
  stuck ref t hwaits := by
    obtain ⟨honvif, peer, p, hsaw, hrest⟩ := h.stuck ref t hwaits
    exact ⟨honvif, peer, p, (hseen ref t hwaits).trans hsaw, hrest⟩

theorem serviceOf_of_isRecorded (hinv : s.Inv) {t : ServiceThread}
    (ht : s.serviceHeap[ref]? = some t) (hrecorded : s.isRecorded ref t = true) :
    s.workers t.cameraId = some t.worker ∧ s.serviceOf t.worker t.state.service = some ref := by
  obtain ⟨hw, w, services, hworker, hkey, hget⟩ := hinv.records_of_isRecorded ht hrecorded
  obtain rfl : t.worker = w := Option.some.inj (hw.symm.trans hworker)
  obtain ⟨owner, howner, hkey'⟩ :=
    Option.map_eq_some_iff.mp ((List.getElem?_map ..).symm.trans hkey)
  obtain rfl : owner.worker.services = services := congrArg Prod.snd hkey'
  rw [Sys.serviceOf, howner, Option.bind_some]
  exact ⟨hw, hget⟩

/-- The peer that an exit decides to restart is the session that it has seen. -/
theorem stuckPeer_eq_true {t : ServiceThread} (h : s.stuckPeer ref t = true) :
    t.state.service = .onvif ∧ ∃ peer p, s.connectingRtsp t.worker = some peer ∧
      s.serviceOf t.worker .rtsp = some peer ∧ peer ≠ ref ∧ s.serviceHeap[peer]? = some p ∧
      p.state.status = .connecting := by
  rw [Sys.stuckPeer, Bool.and_eq_true, decide_eq_true_eq] at h
  refine ⟨h.1, ?_⟩
  have hpeer := h.2
  split at hpeer
  · next peer hslot =>
    rw [Bool.and_eq_true, decide_eq_true_eq] at hpeer
    obtain ⟨hne, hp⟩ := hpeer
    split at hp
    · next p hheap =>
      have hstatus : p.state.status = .connecting := by simpa using (Bool.and_eq_true_iff.mp hp).1
      refine ⟨peer, p, ?_, hslot, hne, hheap, hstatus⟩
      rw [Sys.connectingRtsp, hslot, Option.filter_some, if_pos]
      rw [hheap]
      exact hp
    · cases hp
  · cases hpeer

theorem setReader_getElem?_ne {reader : Reader} {ref' : ServiceRef} (hne : ref' ≠ ref) :
    (s.setReader ref reader).serviceHeap[ref']? = s.serviceHeap[ref']? :=
  List.getElem?_modify_ne _ _ hne.symm

theorem setReader_getElem?_self {reader : Reader} {t : ServiceThread}
    (ht : s.serviceHeap[ref]? = some t) :
    (s.setReader ref reader).serviceHeap[ref]? = some { t with reader := reader } := by
  rw [Sys.setReader, Sys.modifyService, List.getElem?_modify_eq, ht]
  rfl

/-- The reader goes to sleep with what its exit has seen. -/
theorem Waiting.sleep {t : ServiceThread} {delay : ℚ} (h : Waiting seen s) (hinv : s.Inv)
    (ht : s.serviceHeap[ref]? = some t) (hdead : t.alive = false)
    (hrecorded : s.isRecorded ref t = true) (hseen : seen ref = s.connectingRtsp t.worker) :
    Waiting seen (s.setReader ref (.sleeping delay (s.stuckPeer ref t))) := by
  have hframe : Frame True s (s.setReader ref (.sleeping delay (s.stuckPeer ref t))) := by
    refine frame_setReader fun u hu => .of_reader (fun _ _ _ => ?_) fun he => ?_
    · obtain rfl : t = u := Option.some.inj (ht.symm.trans hu)
      exact hdead
    · rcases he with he | he <;> cases he
  have hstatus : ∀ (peer : ServiceRef) (p : ServiceThread), s.serviceHeap[peer]? = some p →
      p.state.status = .connecting →
      ∃ p', (s.setReader ref (.sleeping delay (s.stuckPeer ref t))).serviceHeap[peer]? = some p' ∧
        p'.state.status = .connecting := by
    intro peer p hp hconnecting
    rw [Sys.setReader, Sys.modifyService, List.getElem?_modify, hp]
    refine ⟨_, rfl, ?_⟩
    split
    · exact hconnecting
    · exact hconnecting
  refine h.of_frame hframe (fun peer p hp _ => hstatus peer p hp) fun ref' u u' hu hwaits => ?_
  by_cases href : ref' = ref
  · -- the reader that falls asleep
    subst href
    obtain rfl : t = u := Option.some.inj (ht.symm.trans hu)
    obtain rfl := Option.some.inj ((setReader_getElem?_self ht).symm.trans hwaits.1)
    obtain ⟨honvif, peer, p, hsaw, hslot, _, hp, hconnecting⟩ := stuckPeer_eq_true hwaits.2.1
    obtain ⟨p', hp', hconnecting'⟩ := hstatus peer p hp hconnecting
    have hown := (serviceOf_of_isRecorded hinv ht hrecorded).2
    rw [honvif] at hown
    exact .inr ⟨hown, peer, p', hseen.trans hsaw, hslot, hp', hconnecting'⟩
  · have hold : s.serviceHeap[ref']? = some u' := (setReader_getElem?_ne href).symm.trans hwaits.1
    obtain rfl : u = u' := Option.some.inj (hu.symm.trans hold)
    exact .inl hwaits.2.1

theorem Waiting.reconnectExit {t : ServiceThread} {now jitter : ℚ} (h : Waiting seen s)
    (hinv : s.Inv) (ht : s.serviceHeap[ref]? = some t) (hdead : t.alive = false)
    (hrecorded : s.isRecorded ref t = true) (hseen : seen ref = s.connectingRtsp t.worker) :
    Waiting seen (s.reconnectExit cfg ref t now jitter) := by
  unfold Sys.reconnectExit
  simp only
  generalize hdelay : reconnectDelay (t.state.reconnect now).reconnectAttempt jitter = delay
  have hasleep : Waiting seen (s.setReader ref (.sleeping delay (s.stuckPeer ref t))) :=
    h.sleep hinv ht hdead hrecorded hseen
  have hcounted : Waiting seen ((s.setReader ref (.sleeping delay (s.stuckPeer ref t))).modifyState
      ref (·.reconnect now)) := by
    refine hasleep.of_spares (frame_modifyState fun u hu => ?_ : Frame True _ _)
      (spares_modifyState fun _ _ _ _ => rfl)
    obtain rfl := Option.some.inj ((setReader_getElem?_self ht).symm.trans hu)
    refine ⟨rfl, rfl, rfl, rfl, id, .inr, id, fun he => ?_, fun _ => .inr (.inr True.intro)⟩
    rcases he with he | he <;> cases he
  split
  · refine Waiting.appendLog ?_ _
    refine (hcounted.appendLog _).of_spares (frame_modifyServiceOf evolves_clearError : Frame True _ _)
      (spares_modifyServiceOf fun _ _ _ _ _ hstatus => hstatus)
  · exact hcounted.appendLog _

theorem Waiting.otherExit {t : ServiceThread} {code : Int} {logs : List String} {jitter : ℚ}
    (h : Waiting seen s) (ht : s.serviceHeap[ref]? = some t) (hdead : t.alive = false)
    (hretries : s.Awaited ref → code ≠ 0 ∧ isTransient logs = true) :
    Waiting seen (s.otherExit cfg ref t code logs jitter) := by
  refine h.of_spares (frame_otherExit ht hdead : Frame True s _) ?_
  unfold Sys.otherExit
  split
  · exact ((spares_modifyState fun _ _ _ _ => rfl).trans spares_appendLog).trans
      (spares_setReader rfl)
  · next hfinal =>
    have hnot (f : ServiceState → ServiceState) : Spares s.Awaited s (s.modifyState ref f) :=
      spares_modifyState fun _ _ ha _ => absurd (hretries ha) hfinal
    split
    · exact (hnot _).trans (spares_setReader rfl)
    · exact (hnot _).trans (spares_setReader rfl)

/-- The exit is handled, and what it saw is remembered. -/
theorem Waiting.handleExit {now jitter : ℚ} (h : Waiting seen s) (hinv : s.Inv)
    (hquiet : s.Quiet (.handleExit ref now jitter))
    (hstep : s.handleExit cfg ref now jitter = some s') :
    Waiting (s.observe (.handleExit ref now jitter) seen) s' := by
  simp only [Sys.handleExit, Option.bind_eq_bind, Option.bind_eq_some_iff] at hstep
  obtain ⟨t, ht, _, hwaiting, code, hcode, owner, howner, hstep⟩ := hstep
  have hwaiting : t.reader = .waiting := by simpa using hwaiting
  have hdead : t.alive = false := by rw [ServiceThread.alive, hcode]; rfl
  have hobserve : s.observe (.handleExit ref now jitter) seen =
      Function.update seen ref (s.connectingRtsp t.worker) := by simp only [Sys.observe, ht]
  rw [hobserve]
  -- the reader itself did not wait yet
  have hcongr : Waiting (Function.update seen ref (s.connectingRtsp t.worker)) s := by
    refine h.congr fun ref' u hwaits => Function.update_of_ne ?_ _ _
    rintro rfl
    obtain rfl : t = u := Option.some.inj (ht.symm.trans hwaits.1)
    have hawaits := hwaits.2.1
    rw [hwaiting] at hawaits
    cases hawaits
  split at hstep
  · next hrecorded =>
    split at hstep
    · obtain ⟨_, _, hstep⟩ := Option.bind_eq_some_iff.mp hstep
      obtain rfl := Option.some.inj hstep
      exact hcongr.reconnectExit hinv ht hdead hrecorded (Function.update_self ..)
    · next hreconnect =>
      obtain ⟨_, _, hstep⟩ := Option.bind_eq_some_iff.mp hstep
      obtain rfl := Option.some.inj hstep
      refine hcongr.otherExit ht hdead fun ha => ?_
      have hdisturbs : (ref = ref && s.exitsForGood ref) = false := hquiet.of_awaited ha
      simpa [Sys.exitsForGood, ht, hcode, howner, hreconnect] using hdisturbs
  · obtain rfl := Option.some.inj hstep
    exact hcongr.of_spares (frame_setReader_done ref : Frame True s _) (spares_setReader rfl)

/-! ### The reader: the restart -/

/-- A waiting reader's state is recorded. -/
theorem Waiting.isRecorded (h : Waiting seen s) {t : ServiceThread} (hwaits : s.Waits ref t) :
    s.isRecorded ref t = true := by
  obtain ⟨owner, howner, hget⟩ := Option.bind_eq_some_iff.mp (h.stuck ref t hwaits).onvif
  have hmem : ref ∈ owner.worker.services.values := Services.mem_values.mpr ⟨.onvif, hget⟩
  simp [Sys.isRecorded, hwaits.2.2, howner, hmem]

/-- Once the reader that restarts its service is done, no reader of the worker waits. -/
theorem Waiting.noneWaits_done {t : ServiceThread} {code : Int} {ok peerOk : Bool}
    (h : Waiting seen s) (hinv : s.Inv) (hquiet : s.Quiet (.restart ref ok code peerOk))
    (ht : s.serviceHeap[ref]? = some t) (hrecorded : s.isRecorded ref t = true) (hok : ok = true) :
    (s.setReader ref .done).NoneWaits t.worker := by
  intro ref' u hwaits hworker
  have hne : ref' ≠ ref := by
    rintro rfl
    have hreader := reader_of_setReader hwaits.1
    have hawaits := hwaits.2.1
    rw [hreader] at hawaits
    cases hawaits
  have hbefore : s.Waits ref' u :=
    ⟨(setReader_getElem?_ne hne).symm.trans hwaits.1, hwaits.2.1, hwaits.2.2⟩
  obtain ⟨honvif, peer, p, _, hrtsp, _⟩ := h.stuck ref' u hbefore
  obtain ⟨_, hown⟩ := serviceOf_of_isRecorded hinv ht hrecorded
  rw [← hworker] at hown
  cases hservice : t.state.service with
  | onvif =>
    -- the worker has one ONVIF session
    rw [hservice, honvif] at hown
    exact hne (Option.some.inj hown)
  | rtsp =>
    -- the reader of the RTSP session would replace what is waited for
    rw [hservice] at hown
    have hdisturbs : (ref = ref && ok) = false := hquiet.of_awaited ⟨ref', u, hbefore, hown⟩
    simp [hok] at hdisturbs

theorem Waiting.restartPeer {code : Int} {ok : Bool} (h : Waiting seen s) (hnone : s.NoneWaits w) :
    Waiting seen (s.restartPeer cfg camera w code ok) := by
  unfold Sys.restartPeer
  split
  · split
    · next peer hslot =>
      obtain ⟨owner, howner, _⟩ := Option.bind_eq_some_iff.mp hslot
      have hframe : Frame True s ((s.exitProcess peer code).appendLog cfg w
          (.message "[P2P] Restarting RTSP after the ONVIF channel detected a stalled tunnel")) :=
        (frame_exitProcess peer code).trans (frame_appendLog cfg w _)
      have hspares {A : ServiceRef → Prop} : Spares A s ((s.exitProcess peer code).appendLog cfg w
          (.message "[P2P] Restarting RTSP after the ONVIF channel detected a stalled tunnel")) :=
        spares_exitProcess.trans spares_appendLog
      have hkilled := h.of_spares hframe hspares
      have hw : w < ((s.exitProcess peer code).appendLog cfg w (.message
          "[P2P] Restarting RTSP after the ONVIF channel detected a stalled tunnel")
          ).workerHeap.length := by
        simp only [Sys.appendLog, Sys.modifyWorker, List.length_modify]
        exact (List.getElem?_eq_some_iff.mp howner).1
      have hnone' := hnone.of_spares hframe (hspares (A := fun _ => True))
      exact .getD (fun u hu => (hkilled.started hw hnone' (startService_eq_some hu)).1) hkilled
    · exact h
  · exact h

theorem startService_ok {ok : Bool} (h : s.startService cfg camera w service ok = some s') :
    ok = true := by
  simp only [Sys.startService, Option.bind_eq_bind, Option.bind_eq_some_iff] at h
  obtain ⟨_, _, _, _, _, hok, _⟩ := h
  simpa using hok

theorem Waiting.restart {code : Int} {ok peerOk : Bool} (h : Waiting seen s) (hinv : s.Inv)
    (hquiet : s.Quiet (.restart ref ok code peerOk))
    (hstep : s.restart cfg ref ok code peerOk = some s') : Waiting seen s' := by
  obtain ⟨t, ht, _, _, rfl⟩ := Sys.restart_eq_some hstep
  have hdone : Waiting seen (s.setReader ref .done) :=
    h.of_spares (frame_setReader_done ref : Frame True s _) (spares_setReader rfl)
  have hw : t.worker < s.workerHeap.length := h.worker t (List.mem_of_getElem? ht)
  cases hown : s.restartOwn cfg ref t ok with
  | none => exact hdone
  | some u =>
    unfold Sys.restartOwn at hown
    simp only
    split at hown
    · next hrecorded =>
      have hnone := h.noneWaits_done hinv hquiet ht hrecorded (startService_ok hown)
      obtain ⟨hstarted, hnone'⟩ := hdone.started hw hnone (startService_eq_some hown)
      split
      · exact hstarted.restartPeer hnone'
      · exact hstarted
    · next hrecorded =>
      obtain rfl := Option.some.inj hown
      split
      · next hawaits =>
        -- a waiting reader of the current worker is recorded
        unfold Sys.restartPeer
        split
        · next hcurrent => exact absurd (h.isRecorded ⟨ht, hawaits, hcurrent⟩) hrecorded
        · exact hdone
      · exact hdone

/-! ### Every step -/

theorem Waiting.step {event : Event} (h : Waiting seen s) (hinv : s.Inv) (hquiet : s.Quiet event)
    (hstep : s.step cfg event = some s') : Waiting (s.observe event seen) s' := by
  cases event with
  | start row password =>
    obtain ⟨_, rfl⟩ := Sys.start_eq_some hstep
    exact h.popWorker _ _
  | stop camera =>
    obtain ⟨_, rfl⟩ := Sys.stop_eq_some hstep
    exact h.popWorker .stop s.stopped
  | kill camera code => exact h.kill hstep
  | createWorker camera => exact h.createWorker hstep
  | launch camera ok => exact h.launch hinv hstep
  | spawn camera => exact h.spawn hstep
  | stopReturns camera => exact h.stopReturns hstep
  | onvifCheck w expired => exact h.onvifCheck hstep
  | onvifWatch w => exact h.onvifWatch hstep
  | onvifStart w ok => exact h.onvifStart hstep
  | exit ref code =>
    obtain ⟨_, _, _, rfl⟩ := Sys.exit_eq_some hstep
    exact h.of_spares (frame_exitProcess ref code : Frame True s _) spares_exitProcess
  | line ref raw now => exact h.handleLine hinv hquiet hstep
  | endOutput ref => exact h.endOutput hstep
  | handleExit ref now jitter => exact h.handleExit hinv hquiet hstep
  | restart ref ok code peerOk => exact h.restart hinv hquiet hstep

/-! ## What a restart hits -/

theorem serviceOf_addService_ne {launch : Launch} {service' : Service} (hne : service' ≠ service)
    (w' : WorkerRef) :
    (s.addService camera w service launch).serviceOf w' service' = s.serviceOf w' service' := by
  simp only [Sys.addService, Sys.serviceOf, List.getElem?_modify]
  cases s.workerHeap[w']? with
  | none => rfl
  | some owner =>
    simp only [Option.map_eq_map, Option.map_some, Option.bind_some]
    split
    · exact Services.get_set_ne _ _ hne
    · rfl

/-- The restart hits the session that the exit has seen, and it is still connecting. -/
theorem Waiting.hits {ok : Bool} (h : Waiting seen s) (hinv : s.Inv)
    (hpeer : s.peerTarget cfg ref ok = some peer) :
    seen ref = some peer ∧ ∃ u p, s.beforePeer cfg ref ok = some u ∧
      u.serviceHeap[peer]? = some p ∧ p.state.status = .connecting := by
  simp only [Sys.peerTarget, Option.bind_eq_bind, Option.bind_eq_some_iff] at hpeer
  obtain ⟨t, ht, u, hbefore, _, hcurrent, hslot⟩ := hpeer
  have hcurrent : u.workers t.cameraId = some t.worker := by simpa using hcurrent
  have hown := hbefore
  simp only [Sys.beforePeer, ht, Option.bind_eq_bind, Option.bind_some,
    Option.bind_eq_some_iff] at hown
  obtain ⟨_, hguard, hown⟩ := hown
  have hawaits : t.reader.awaitsPeer = true := by
    have hboth : t.reader.awaitsPeer = true ∧ (s.lock t.cameraId).isNone = true := by
      simpa using hguard
    exact hboth.1
  have hworkers : u.workers = s.workers := by
    unfold Sys.restartOwn at hown
    split at hown
    · obtain ⟨launch, message, rfl⟩ := startService_eq_some hown
      rfl
    · obtain rfl := Option.some.inj hown
      rfl
  rw [hworkers] at hcurrent
  have hwaits : s.Waits ref t := ⟨ht, hawaits, hcurrent⟩
  obtain ⟨honvif, peer', p, hseen, hrtsp, hp, hstatus⟩ := h.stuck ref t hwaits
  -- the reader first starts its own service again, which is the ONVIF one
  rw [Sys.restartOwn, if_pos (h.isRecorded hwaits), service_of_serviceOf hinv honvif ht] at hown
  obtain ⟨launch, message, rfl⟩ := startService_eq_some hown
  have hne : Service.rtsp ≠ .onvif := by decide
  have hsame : ((s.setReader ref .done).addService t.cameraId t.worker .onvif launch).serviceOf
      t.worker .rtsp = (s.setReader ref .done).serviceOf t.worker .rtsp :=
    serviceOf_addService_ne hne t.worker
  have hslot' : (s.setReader ref .done).serviceOf t.worker .rtsp = some peer' := hrtsp
  have hframe : Frame True ((s.setReader ref .done).addService t.cameraId t.worker .onvif launch) _ :=
    frame_appendLog cfg t.worker (.message message)
  rw [serviceOf_eq hframe.keys, hsame, hslot'] at hslot
  obtain rfl := Option.some.inj hslot
  have hdone : ∃ p', (s.setReader ref .done).serviceHeap[peer']? = some p' ∧
      p'.state.status = .connecting := by
    rw [Sys.setReader, Sys.modifyService, List.getElem?_modify, hp]
    refine ⟨_, rfl, ?_⟩
    split
    · exact hstatus
    · exact hstatus
  obtain ⟨p', hp', hstatus'⟩ := hdone
  exact ⟨hseen, _, p', hbefore, Sys.addService_old launch hp', hstatus'⟩

end Waiting

/-- In every run in which no event disturbs an RTSP session that a waiting ONVIF reader is
about to restart, the session that it terminates is the one that the exit saw connecting and
alive, and it is connecting right before. -/
theorem peer_restart_hits_stuck {cfg : Config} {events : List Event} {w : Watcher}
    {ref peer : ServiceRef} {ok : Bool}
    (hquiet : Run.Along (Watcher.step cfg) (fun w event => w.sys.Quiet event) events {})
    (hrun : Run.run (Watcher.step cfg) events {} = some w)
    (hpeer : w.sys.peerTarget cfg ref ok = some peer) :
    w.seen ref = some peer ∧ ∃ u p, w.sys.beforePeer cfg ref ok = some u ∧
      u.serviceHeap[peer]? = some p ∧ p.state.status = .connecting := by
  have hwaiting : w.sys.Inv ∧ Waiting w.seen w.sys := by
    refine Run.run_invariant_along (I := fun w : Watcher => w.sys.Inv ∧ Waiting w.seen w.sys)
      ⟨Sys.inv_init, waiting_init⟩ (fun event v v' hquiet hv hstep => ?_) hquiet hrun
    obtain ⟨s', hs', rfl⟩ := Option.map_eq_some_iff.mp hstep
    exact ⟨(hv.1.step hs').1, hv.2.step hv.1 hquiet hs'⟩
  exact hwaiting.2.hits hwaiting.1 hpeer

/-! ## A session that comes online in the delay -/

/-- The ONVIF process asks for a reconnect while the RTSP session is connecting. -/
def stuckOnvif : List Event :=
  [.start exampleRow "secret", .createWorker 1, .launch 1 true, .spawn 1,
    .line 0 "Ready to connect!" 1, .onvifCheck 0 false, .onvifWatch 0, .onvifStart 0 true,
    .exit 1 75, .endOutput 1, .handleExit 1 10 3]

/-- The first media arrives in the delay, and the session is terminated all the same. -/
theorem mediaInDelay_hits_online : ∃ w u p,
    Run.run (Watcher.step {}) (stuckOnvif ++ [.line 0 "RTSP media data: 1024 bytes" 11]) {} = some w ∧
      w.sys.peerTarget {} 1 true = some 0 ∧ w.sys.beforePeer {} 1 true = some u ∧
      u.serviceHeap[0]? = some p ∧ p.state.status = .online := by
  have hview : ((Run.run (Watcher.step {}) (stuckOnvif ++
      [.line 0 "RTSP media data: 1024 bytes" 11]) {}).bind fun w =>
        (w.sys.beforePeer {} 1 true).bind fun u => (u.serviceHeap[0]?).map fun p =>
          (w.sys.peerTarget {} 1 true, p.state.status)) = some (some 0, .online) := by
    decide +kernel
  obtain ⟨w, hw, hview⟩ := Option.bind_eq_some_iff.mp hview
  obtain ⟨u, hu, hview⟩ := Option.bind_eq_some_iff.mp hview
  obtain ⟨p, hp, hview⟩ := Option.map_eq_some_iff.mp hview
  obtain ⟨htarget, hstatus⟩ := Prod.mk.inj hview
  exact ⟨w, u, p, hw, htarget, hu, hp, hstatus⟩

/-- Without that line the restart hits what was seen. -/
theorem peer_restart_hits_stuck_connecting : ∃ w, Run.run (Watcher.step {}) stuckOnvif {} = some w ∧
    w.sys.peerTarget {} 1 true = some 0 ∧ w.seen 1 = some 0 := by
  have hview : (Run.run (Watcher.step {}) stuckOnvif {}).map
      (fun w => w.sys.peerTarget {} 1 true) = some (some 0) := by decide +kernel
  obtain ⟨w, hw, htarget⟩ := Option.map_eq_some_iff.mp hview
  exact ⟨w, hw, htarget, (peer_restart_hits_stuck (by decide +kernel) hw htarget).1⟩

end DahuaBridge
