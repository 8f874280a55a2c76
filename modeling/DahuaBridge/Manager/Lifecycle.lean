import DahuaBridge.Manager.Threads

/-!
# One process per channel

The invariant behind the lifecycle locks. A live process is accounted for: while
its camera's lock holder terminates processes it is among those still to
terminate, and otherwise it is the one recorded in the camera's current worker.

* `Sys.Inv`: the invariant; `Inv.frame` for the steps that only write to states.
* `Inv.addService`: a process may be started where none of its channel is alive.
* `one_process_per_channel`: over every run, each camera channel has at most one
  live process, and a stopped camera has none and starts none.
-/

namespace DahuaBridge

/-! ## The invariant -/

/-- The processes that the holder of a lock still has to terminate. -/
def Section.remaining : Section → Option (List ServiceRef)
  | .stop remaining => some remaining
  | .start _ _ remaining => some remaining
  | .launch _ => none
  | .spawn _ => none

namespace Sys

/-- The camera id and the `services` of each worker. -/
def keys (s : Sys) : List (CameraId × Services) := s.workerHeap.map WorkerThread.key

/-- `ref` is recorded under the service in the camera's current worker. -/
def Records (s : Sys) (camera : CameraId) (service : Service) (ref : ServiceRef) : Prop :=
  ∃ w services, s.workers camera = some w ∧ s.keys[w]? = some (camera, services) ∧
    services.get service = some ref

/-- What the camera's lock holder still has to terminate, if it is at that. -/
def remaining (s : Sys) (camera : CameraId) : Option (List ServiceRef) :=
  (s.lock camera).bind Section.remaining

/-- A live process of this camera and service would be accounted for. -/
def Covers (s : Sys) (camera : CameraId) (service : Service) (ref : ServiceRef) : Prop :=
  match s.remaining camera with
  | some remaining => ref ∈ remaining
  | none => s.Records camera service ref

/-- The references are valid, and no two are of one service. -/
structure Distinct (s : Sys) (refs : List ServiceRef) : Prop where
  valid : ∀ ref ∈ refs, ref < s.serviceHeap.length
  inj : ∀ ref ∈ refs, ∀ ref' ∈ refs, ∀ t t', s.serviceHeap[ref]? = some t →
    s.serviceHeap[ref']? = some t' → t.state.service = t'.state.service → ref = ref'

/-- What is known while the lock is held in a section. -/
def Holds (s : Sys) (camera : CameraId) : Section → Prop
  | .stop remaining => s.workers camera = none ∧ s.Distinct remaining
  | .start row _ remaining =>
    row.id = camera ∧ s.stopped camera = false ∧ s.workers camera = none ∧ s.Distinct remaining
  | .launch w => s.workers camera = some w ∧ s.keys[w]? = some (camera, {})
  | .spawn w => s.workers camera = some w

/-- No process of the camera is alive. -/
def Dead (s : Sys) (camera : CameraId) : Prop :=
  ∀ t ∈ s.serviceHeap, t.cameraId = camera → t.alive = false

structure Inv (s : Sys) : Prop where
  owner : ∀ camera w, s.workers camera = some w → ∃ services, s.keys[w]? = some (camera, services)
  services : ∀ (w : WorkerRef) (camera : CameraId) (services : Services) (service : Service)
    (ref : ServiceRef), s.keys[w]? = some (camera, services) → services.get service = some ref →
    ∃ t, s.serviceHeap[ref]? = some t ∧ t.cameraId = camera ∧ t.state.service = service
  covered : ∀ (ref : ServiceRef) (t : ServiceThread), s.serviceHeap[ref]? = some t →
    t.alive = true → s.Covers t.cameraId t.state.service ref
  asleep : ∀ t ∈ s.serviceHeap, t.asleep = true → t.alive = false
  holder : ∀ camera task, s.lock camera = some task → s.Holds camera task
  stopped : ∀ camera, s.stopped camera = true → s.workers camera = none ∧ s.Dead camera

theorem inv_init : Inv {} where
  owner _ _ h := by cases h
  services _ _ _ _ _ h := by cases h
  covered _ _ h := by cases h
  asleep t ht := absurd ht List.not_mem_nil
  holder _ _ h := by cases h
  stopped _ h := by cases h

section Inv

variable {s s' : Sys} {camera : CameraId} {service : Service} {w : WorkerRef} {ref : ServiceRef}

theorem covers_iff_mem {task : Section} {refs : List ServiceRef} (hlock : s.lock camera = some task)
    (htask : task.remaining = some refs) : s.Covers camera service ref ↔ ref ∈ refs := by
  rw [Covers, remaining, hlock, Option.bind_some, htask]

theorem covers_iff_records (h : s.remaining camera = none) :
    s.Covers camera service ref ↔ s.Records camera service ref := by
  rw [Covers, h]

theorem remaining_of_free (h : s.lock camera = none) : s.remaining camera = none := by
  rw [remaining, h, Option.bind_none]

theorem keys_lookup_unique {camera' : CameraId} {services services' : Services}
    (h : s.keys[w]? = some (camera, services)) (h' : s.keys[w]? = some (camera', services')) :
    camera = camera' ∧ services = services' := by
  rw [h] at h'
  exact Prod.mk.inj (Option.some.inj h')

/-- A recorded process that is asleep or dead leaves its channel without a live one. -/
theorem Inv.dead_of_recorded (h : s.Inv) (hlock : s.remaining camera = none)
    (hrecorded : s.Records camera service ref) {t₀ : ServiceThread}
    (ht₀ : s.serviceHeap[ref]? = some t₀) (hdead : t₀.alive = false) :
    ∀ t ∈ s.serviceHeap, t.cameraId = camera → t.state.service = service → t.alive = false := by
  intro t ht hcamera hservice
  by_contra halive
  rw [Bool.not_eq_false] at halive
  obtain ⟨ref', href'⟩ := List.mem_iff_getElem?.mp ht
  have hcovers := h.covered ref' t href' halive
  rw [hcamera, hservice, covers_iff_records hlock] at hcovers
  obtain ⟨w, services, hw, hkey, hget⟩ := hcovers
  obtain ⟨w', services', hw', hkey', hget'⟩ := hrecorded
  obtain rfl : w = w' := Option.some.inj (hw.symm.trans hw')
  obtain ⟨_, rfl⟩ := keys_lookup_unique hkey hkey'
  obtain rfl : ref' = ref := Option.some.inj (hget.symm.trans hget')
  rw [ht₀] at href'
  rw [Option.some.inj href', halive] at hdead
  cases hdead

/-- A channel under which nothing is recorded has no live process. -/
theorem Inv.dead_of_none (h : s.Inv) (hlock : s.remaining camera = none)
    (hw : s.workers camera = some w) {services : Services}
    (hkey : s.keys[w]? = some (camera, services)) (hnone : services.get service = none) :
    ∀ t ∈ s.serviceHeap, t.cameraId = camera → t.state.service = service → t.alive = false := by
  intro t ht hcamera hservice
  by_contra halive
  rw [Bool.not_eq_false] at halive
  obtain ⟨ref', href'⟩ := List.mem_iff_getElem?.mp ht
  have hcovers := h.covered ref' t href' halive
  rw [hcamera, hservice, covers_iff_records hlock] at hcovers
  obtain ⟨w', services', hw', hkey', hget⟩ := hcovers
  obtain rfl : w = w' := Option.some.inj (hw.symm.trans hw')
  obtain ⟨_, rfl⟩ := keys_lookup_unique hkey hkey'
  rw [hnone] at hget
  cases hget

/-! ## Steps that only write to states -/

variable {ready : Prop}

theorem Distinct.frame (hframe : Frame ready s s') {refs : List ServiceRef} (h : s.Distinct refs) :
    s'.Distinct refs where
  valid ref href := hframe.length ▸ h.valid ref href
  inj ref href ref' href' t t' ht ht' hservice := by
    obtain ⟨u, hu, he⟩ := hframe.thread ref t ht
    obtain ⟨u', hu', he'⟩ := hframe.thread ref' t' ht'
    rw [he.service, he'.service] at hservice
    exact h.inj ref href ref' href' u u' hu hu' hservice

theorem covers_frame (hframe : Frame ready s s') (h : s.Covers camera service ref) :
    s'.Covers camera service ref := by
  have hkeys : s'.keys = s.keys := hframe.keys
  unfold Covers remaining Records at h ⊢
  rw [hframe.lock, hframe.workers, hkeys]
  exact h

theorem Holds.of_eq {task : Section} (hdistinct : ∀ refs, s.Distinct refs → s'.Distinct refs)
    (hkeys : ∀ (w : WorkerRef) (key : CameraId × Services), task = .launch w →
      s.keys[w]? = some key → s'.keys[w]? = some key)
    (hw : s'.workers camera = s.workers camera) (hstopped : s'.stopped camera = s.stopped camera)
    (h : s.Holds camera task) : s'.Holds camera task := by
  cases task with
  | stop remaining => exact ⟨hw.trans h.1, hdistinct remaining h.2⟩
  | start row password remaining =>
    exact ⟨h.1, hstopped.trans h.2.1, hw.trans h.2.2.1, hdistinct remaining h.2.2.2⟩
  | launch w => exact ⟨hw.trans h.1, hkeys w _ rfl h.2⟩
  | spawn w => exact hw.trans h

theorem dead_frame (hframe : Frame ready s s') (h : s.Dead camera) : s'.Dead camera := by
  intro t' ht' hcamera
  obtain ⟨ref, href⟩ := List.mem_iff_getElem?.mp ht'
  obtain ⟨t, ht, he⟩ := hframe.thread ref t' href
  rw [he.cameraId] at hcamera
  by_contra halive
  rw [Bool.not_eq_false] at halive
  have hdead := h t (List.mem_of_getElem? ht) hcamera
  rw [he.alive halive] at hdead
  cases hdead

theorem Inv.frame (h : s.Inv) (hframe : Frame ready s s') : s'.Inv := by
  have hkeys : s'.keys = s.keys := hframe.keys
  constructor
  · intro camera w hw
    rw [hframe.workers] at hw
    rw [hkeys]
    exact h.owner camera w hw
  · intro w camera services service ref hkey hget
    rw [hkeys] at hkey
    obtain ⟨t, ht, hcamera, hservice⟩ := h.services w camera services service ref hkey hget
    have hlt : ref < s'.serviceHeap.length :=
      hframe.length ▸ (List.getElem?_eq_some_iff.mp ht).1
    obtain ⟨u, hu, he⟩ := hframe.thread ref _ (List.getElem?_eq_getElem hlt)
    obtain rfl : u = t := Option.some.inj (hu.symm.trans ht)
    exact ⟨_, List.getElem?_eq_getElem hlt, he.cameraId.trans hcamera, he.service.trans hservice⟩
  · intro ref t' ht' halive
    obtain ⟨t, ht, he⟩ := hframe.thread ref t' ht'
    rw [he.cameraId, he.service]
    exact covers_frame hframe (h.covered ref t ht (he.alive halive))
  · intro t' ht' hasleep
    obtain ⟨ref, href⟩ := List.mem_iff_getElem?.mp ht'
    obtain ⟨t, ht, he⟩ := hframe.thread ref t' href
    rcases he.asleep hasleep with hdead | hbefore
    · exact hdead
    · have hdead := h.asleep t (List.mem_of_getElem? ht) hbefore
      by_contra halive
      rw [he.alive (by simpa using halive)] at hdead
      cases hdead
  · intro camera task hlock
    rw [hframe.lock] at hlock
    refine (h.holder camera task hlock).of_eq (fun _ hd => hd.frame hframe) (fun w _ _ hkey => ?_)
      (congrFun hframe.workers camera) (congrFun hframe.stopped camera)
    rw [hkeys]
    exact hkey
  · intro camera hstopped
    rw [hframe.stopped] at hstopped
    obtain ⟨hw, hdead⟩ := h.stopped camera hstopped
    exact ⟨by rw [hframe.workers]; exact hw, dead_frame hframe hdead⟩

/-! ## Starting a process -/

theorem keys_addService (s : Sys) (camera : CameraId) (w : WorkerRef) (service : Service)
    (launch : Launch) (w' : WorkerRef) : (s.addService camera w service launch).keys[w']? =
      (s.keys[w']?).map fun key =>
        if w = w' then (key.1, key.2.set service s.serviceHeap.length) else key := by
  simp only [keys, addService, List.getElem?_map, List.getElem?_modify]
  cases s.workerHeap[w']? with
  | none => rfl
  | some t =>
    simp only [Option.map_eq_map, Option.map_some, Option.some.injEq]
    split <;> rfl

/-- An old reference names what it did; the new one names the new thread. -/
theorem addService_getElem? {launch : Launch} {t : ServiceThread}
    (h : (s.addService camera w service launch).serviceHeap[ref]? = some t) :
    s.serviceHeap[ref]? = some t ∨ ref = s.serviceHeap.length ∧ t.cameraId = camera ∧
      t.state.service = service ∧ t.asleep = false := by
  simp only [addService] at h
  rcases Nat.lt_or_ge ref s.serviceHeap.length with hlt | hge
  · rw [List.getElem?_append_left hlt] at h
    exact .inl h
  · rw [List.getElem?_append_right hge] at h
    have hle : ref ≤ s.serviceHeap.length :=
      Nat.sub_eq_zero_iff_le.mp (Nat.lt_one_iff.mp (List.getElem?_eq_some_iff.mp h).1)
    obtain rfl := List.mem_singleton.mp (List.mem_of_getElem? h)
    exact .inr ⟨Nat.le_antisymm hle hge, rfl, rfl, rfl⟩

theorem Distinct.tail {refs : List ServiceRef} (h : s.Distinct (ref :: refs)) : s.Distinct refs where
  valid ref href := h.valid ref (List.mem_cons_of_mem _ href)
  inj ref href ref' href' :=
    h.inj ref (List.mem_cons_of_mem _ href) ref' (List.mem_cons_of_mem _ href')

theorem Distinct.addService {refs : List ServiceRef} (h : s.Distinct refs) (launch : Launch) :
    (s.addService camera w service launch).Distinct refs where
  valid ref href := by
    simp only [Sys.addService, List.length_append]
    exact Nat.lt_add_right _ (h.valid ref href)
  inj ref href ref' href' t t' ht ht' hservice := by
    have hold : ∀ {ref : ServiceRef} {t : ServiceThread}, ref ∈ refs →
        (s.addService camera w service launch).serviceHeap[ref]? = some t →
        s.serviceHeap[ref]? = some t := by
      intro ref t href ht
      rcases addService_getElem? ht with ht | ⟨rfl, _⟩
      · exact ht
      · exact absurd (h.valid _ href) (Nat.lt_irrefl _)
    exact h.inj ref href ref' href' t t' (hold href ht) (hold href' ht') hservice

theorem keys_addService_self {services : Services} (launch : Launch)
    (hkey : s.keys[w]? = some (camera, services)) :
    (s.addService camera w service launch).keys[w]? =
      some (camera, services.set service s.serviceHeap.length) := by
  rw [keys_addService, hkey, Option.map_some, if_pos rfl]

theorem keys_addService_ne {w' : WorkerRef} (launch : Launch) (hne : w ≠ w') :
    (s.addService camera w service launch).keys[w']? = s.keys[w']? := by
  rw [keys_addService]
  cases s.keys[w']? with
  | none => rfl
  | some key => rw [Option.map_some, if_neg hne]

theorem addService_old {t : ServiceThread} (launch : Launch) (h : s.serviceHeap[ref]? = some t) :
    (s.addService camera w service launch).serviceHeap[ref]? = some t := by
  simp only [Sys.addService]
  rw [List.getElem?_append_left (List.getElem?_eq_some_iff.mp h).1, h]

theorem addService_new (s : Sys) (camera : CameraId) (w : WorkerRef) (service : Service)
    (launch : Launch) :
    ∃ t, (s.addService camera w service launch).serviceHeap[s.serviceHeap.length]? = some t ∧
      t.cameraId = camera ∧ t.state.service = service := by
  refine ⟨{ cameraId := camera, worker := w, state := { process := { launch }, service } }, ?_, rfl, rfl⟩
  simp only [Sys.addService]
  rw [List.getElem?_append_right (Nat.le_refl _), Nat.sub_self]
  rfl

/-- The key of another camera's worker is another one. -/
theorem ne_of_keys {camera' : CameraId} {w' : WorkerRef} {services services' : Services}
    (hkey : s.keys[w]? = some (camera, services)) (hkey' : s.keys[w']? = some (camera', services'))
    (hne : camera' ≠ camera) : w ≠ w' := by
  rintro rfl
  exact hne (keys_lookup_unique hkey' hkey).1

/-- What is recorded stays recorded, except under the channel of the new process. -/
theorem Records.addService {camera' : CameraId} {service' : Service} {owned : Services}
    (hw : s.workers camera = some w) (howned : s.keys[w]? = some (camera, owned)) (launch : Launch)
    (hother : camera' = camera → service' ≠ service) (h : s.Records camera' service' ref) :
    (s.addService camera w service launch).Records camera' service' ref := by
  obtain ⟨w', services, hw', hkey, hget⟩ := h
  by_cases hcamera : camera' = camera
  · subst hcamera
    obtain rfl : w = w' := Option.some.inj (hw.symm.trans hw')
    obtain ⟨_, rfl⟩ := keys_lookup_unique hkey howned
    exact ⟨w, _, hw, keys_addService_self launch howned,
      (Services.get_set_ne _ _ (hother rfl)).trans hget⟩
  · exact ⟨w', services, hw',
      (keys_addService_ne launch (ne_of_keys howned hkey hcamera)).trans hkey, hget⟩

/-- A process may be started in the current worker, where no process of its
channel is alive, while the lock holder is not terminating processes. -/
theorem Inv.addService (h : s.Inv) (hw : s.workers camera = some w)
    (hlock : s.remaining camera = none) (hlaunch : ∀ w, s.lock camera ≠ some (.launch w))
    (hdead : ∀ t ∈ s.serviceHeap, t.cameraId = camera → t.state.service = service →
      t.alive = false) (launch : Launch) : (s.addService camera w service launch).Inv := by
  obtain ⟨owned, howned⟩ := h.owner camera w hw
  have hnew : (s.addService camera w service launch).keys[w]? =
      some (camera, owned.set service s.serviceHeap.length) := keys_addService_self launch howned
  constructor
  · intro camera' w' hw'
    obtain ⟨services, hkey⟩ := h.owner camera' w' hw'
    by_cases hne : w = w'
    · subst hne
      obtain ⟨rfl, rfl⟩ := keys_lookup_unique hkey howned
      exact ⟨_, hnew⟩
    · exact ⟨services, (keys_addService_ne launch hne).trans hkey⟩
  · intro w' camera' services service' ref hkey hget
    by_cases hne : w = w'
    · subst hne
      obtain ⟨rfl, rfl⟩ := keys_lookup_unique hnew hkey
      by_cases hservice : service' = service
      · subst hservice
        rw [Services.get_set_self] at hget
        obtain rfl := Option.some.inj hget
        exact addService_new s camera w service' launch
      · rw [Services.get_set_ne _ _ hservice] at hget
        obtain ⟨t, ht, hrest⟩ := h.services w camera owned service' ref howned hget
        exact ⟨t, addService_old launch ht, hrest⟩
    · rw [keys_addService_ne launch hne] at hkey
      obtain ⟨t, ht, hrest⟩ := h.services w' camera' services service' ref hkey hget
      exact ⟨t, addService_old launch ht, hrest⟩
  · intro ref t ht halive
    rcases addService_getElem? ht with ht | ⟨rfl, hcamera, hservice, _⟩
    · have hcovers := h.covered ref t ht halive
      have hother : t.cameraId = camera → t.state.service ≠ service := by
        intro hcamera hservice
        rw [hdead t (List.mem_of_getElem? ht) hcamera hservice] at halive
        cases halive
      have hremaining : (s.addService camera w service launch).remaining t.cameraId =
        s.remaining t.cameraId := rfl
      unfold Covers at hcovers ⊢
      rw [hremaining]
      split
      · next remaining hrem =>
        rw [hrem] at hcovers
        exact hcovers
      · next hrem =>
        rw [hrem] at hcovers
        exact hcovers.addService hw howned launch hother
    · rw [hcamera, hservice]
      have hremaining : (s.addService camera w service launch).remaining camera = none := hlock
      rw [covers_iff_records hremaining]
      exact ⟨w, _, hw, hnew, Services.get_set_self _ _ _⟩
  · intro t ht hasleep
    obtain ⟨ref, href⟩ := List.mem_iff_getElem?.mp ht
    rcases addService_getElem? href with ht | ⟨_, _, _, hawake⟩
    · exact h.asleep t (List.mem_of_getElem? ht) hasleep
    · rw [hawake] at hasleep
      cases hasleep
  · intro camera' task htask
    refine (h.holder camera' task htask).of_eq (fun _ hd => hd.addService launch) ?_ rfl rfl
    rintro w' key rfl hkey
    obtain ⟨_, hkey'⟩ := h.holder camera' _ htask
    have hcamera : camera' ≠ camera := by
      rintro rfl
      exact hlaunch w' htask
    exact (keys_addService_ne launch (ne_of_keys howned hkey' hcamera)).trans hkey
  · intro camera' hstopped
    obtain ⟨hw', hdead'⟩ := h.stopped camera' hstopped
    refine ⟨hw', fun t ht hcamera => ?_⟩
    obtain ⟨ref, href⟩ := List.mem_iff_getElem?.mp ht
    rcases addService_getElem? href with ht | ⟨_, hnewCamera, _, _⟩
    · exact hdead' t (List.mem_of_getElem? ht) hcamera
    · rw [hnewCamera] at hcamera
      subst hcamera
      rw [hw'] at hw
      cases hw

/-! ## Steps of the lock holder -/

/-- A step at one camera that starts no process and that may create workers without services. -/
structure Local (camera : CameraId) (s s' : Sys) : Prop where
  serviceHeap : s'.serviceHeap = s.serviceHeap
  keys : ∀ (w : WorkerRef) (key : CameraId × Services), s.keys[w]? = some key →
    s'.keys[w]? = some key
  created : ∀ (w : WorkerRef) (camera : CameraId) (services : Services),
    s'.keys[w]? = some (camera, services) → s.keys[w]? = some (camera, services) ∨ services = {}
  workers : ∀ camera', camera' ≠ camera → s'.workers camera' = s.workers camera'
  lock : ∀ camera', camera' ≠ camera → s'.lock camera' = s.lock camera'
  stopped : ∀ camera', camera' ≠ camera → s'.stopped camera' = s.stopped camera'

theorem Distinct.of_eq (hheap : s'.serviceHeap = s.serviceHeap) {refs : List ServiceRef}
    (h : s.Distinct refs) : s'.Distinct refs := by
  constructor
  · rw [hheap]
    exact h.valid
  · rw [hheap]
    exact h.inj

theorem Records.mono (hlocal : Local camera s s') {camera' : CameraId}
    (hw : s'.workers camera' = s.workers camera') (h : s.Records camera' service ref) :
    s'.Records camera' service ref := by
  obtain ⟨w, services, hworker, hkey, hget⟩ := h
  exact ⟨w, services, hw.trans hworker, hlocal.keys w _ hkey, hget⟩

/-- It is enough to look at the camera of the step. -/
theorem Inv.of_local (h : s.Inv) (hlocal : Local camera s s')
    (howner : ∀ w, s'.workers camera = some w →
      ∃ services, s'.keys[w]? = some (camera, services))
    (hcovered : ∀ (ref : ServiceRef) (t : ServiceThread), s.serviceHeap[ref]? = some t →
      t.cameraId = camera → t.alive = true → s'.Covers camera t.state.service ref)
    (hholder : ∀ task, s'.lock camera = some task → s'.Holds camera task)
    (hstopped : s'.stopped camera = true → s'.workers camera = none ∧ s.Dead camera) :
    s'.Inv := by
  have hheap := hlocal.serviceHeap
  constructor
  · intro camera' w hw
    by_cases hcamera : camera' = camera
    · subst hcamera
      exact howner w hw
    · rw [hlocal.workers camera' hcamera] at hw
      obtain ⟨services, hkey⟩ := h.owner camera' w hw
      exact ⟨services, hlocal.keys w _ hkey⟩
  · intro w camera' services service ref hkey hget
    rw [hheap]
    rcases hlocal.created w camera' services hkey with hkey | rfl
    · exact h.services w camera' services service ref hkey hget
    · cases service <;> cases hget
  · intro ref t ht halive
    rw [hheap] at ht
    by_cases hcamera : t.cameraId = camera
    · rw [hcamera]
      exact hcovered ref t ht hcamera halive
    · have hcovers := h.covered ref t ht halive
      unfold Covers remaining at hcovers ⊢
      rw [hlocal.lock _ hcamera]
      split
      · next remaining hrem =>
        rw [hrem] at hcovers
        exact hcovers
      · next hrem =>
        rw [hrem] at hcovers
        exact Records.mono hlocal (hlocal.workers _ hcamera) hcovers
  · rw [hheap]
    exact h.asleep
  · intro camera' task htask
    by_cases hcamera : camera' = camera
    · subst hcamera
      exact hholder task htask
    · rw [hlocal.lock _ hcamera] at htask
      exact (h.holder camera' task htask).of_eq (fun _ hd => hd.of_eq hheap)
        (fun w key _ => hlocal.keys w key) (hlocal.workers _ hcamera) (hlocal.stopped _ hcamera)
  · intro camera' hstop
    have hdead : s'.Dead camera' ↔ s.Dead camera' := by rw [Dead, Dead, hheap]
    rw [hdead]
    by_cases hcamera : camera' = camera
    · subst hcamera
      exact hstopped hstop
    · rw [hlocal.stopped _ hcamera] at hstop
      rw [hlocal.workers _ hcamera]
      exact h.stopped camera' hstop

theorem local_setLock (s : Sys) (camera : CameraId) (next : Option Section) :
    Local camera s (s.setLock camera next) where
  serviceHeap := rfl
  keys _ _ h := h
  created _ _ _ h := .inl h
  workers _ _ := rfl
  lock _ hne := Function.update_of_ne hne ..
  stopped _ _ := rfl

theorem Holds.setLock {task : Section} (h : s.Holds camera task) (next : Option Section) :
    (s.setLock camera next).Holds camera task := by
  refine h.of_eq (fun refs (hdistinct : s.Distinct refs) => ?_) (fun _ _ _ hkey => hkey) rfl rfl
  exact ⟨hdistinct.valid, hdistinct.inj⟩

theorem lock_setLock (s : Sys) (camera : CameraId) (next : Option Section) :
    (s.setLock camera next).lock camera = next := Function.update_self ..

/-- The lock passes to a task with nothing to terminate. -/
theorem Inv.setLock (h : s.Inv) {next : Option Section} (hlock : s.remaining camera = none ∨
      s.remaining camera = some []) (hnext : next.bind Section.remaining = none)
    (hholds : ∀ task, next = some task → s.Holds camera task) : (s.setLock camera next).Inv := by
  refine h.of_local (local_setLock s camera next) (h.owner camera) ?_ ?_ (h.stopped camera)
  · intro ref t ht hcamera halive
    have hcovers := h.covered ref t ht halive
    rw [hcamera] at hcovers
    have hremaining : (s.setLock camera next).remaining camera = none := by
      rw [remaining, lock_setLock, hnext]
    rw [covers_iff_records hremaining]
    rcases hlock with hlock | hlock
    · exact (covers_iff_records hlock).mp hcovers
    · rw [Covers, hlock] at hcovers
      exact absurd hcovers List.not_mem_nil
  · intro task htask
    rw [lock_setLock] at htask
    exact (hholds task htask).setLock next

theorem exitProcess_dead {code : Int} {t : ServiceThread}
    (h : (s.exitProcess ref code).serviceHeap[ref]? = some t) : t.alive = false := by
  rw [exitProcess, modifyState, modifyService, List.getElem?_modify_eq] at h
  obtain ⟨u, _, rfl⟩ := Option.map_eq_some_iff.mp h
  simp only [ServiceThread.alive, ServiceState.exited]
  cases u.state.process.returncode <;> rfl

/-- The holder has terminated the first of the processes. -/
theorem Inv.kill {task : List ServiceRef → Section} {rest : List ServiceRef} {code : Int}
    (htask : ∀ refs, (task refs).remaining = some refs)
    (hholds : ∀ {s : Sys}, s.Holds camera (task (ref :: rest)) → s.Holds camera (task rest))
    (h : s.Inv) (hlock : s.lock camera = some (task (ref :: rest))) :
    ((s.exitProcess ref code).setLock camera (some (task rest))).Inv := by
  have hframe : Frame True s (s.exitProcess ref code) := frame_exitProcess ref code
  have hkilled : (s.exitProcess ref code).Inv := h.frame hframe
  have hlock' : (s.exitProcess ref code).lock camera = some (task (ref :: rest)) :=
    (congrFun hframe.lock camera).trans hlock
  refine hkilled.of_local (local_setLock _ camera _) (hkilled.owner camera) ?_ ?_
    (hkilled.stopped camera)
  · intro ref' t ht hcamera halive
    have hcovers := hkilled.covered ref' t ht halive
    rw [hcamera, covers_iff_mem hlock' (htask _)] at hcovers
    rw [covers_iff_mem (lock_setLock ..) (htask _)]
    rcases List.mem_cons.mp hcovers with rfl | hmem
    · rw [exitProcess_dead ht] at halive
      cases halive
    · exact hmem
  · intro task' htask'
    rw [lock_setLock] at htask'
    obtain rfl := Option.some.inj htask'
    exact (hholds (hkilled.holder camera _ hlock')).setLock _

/-- The services of the current worker are what a task has to terminate. -/
theorem Inv.distinct_of_key (h : s.Inv) {services : Services}
    (hkey : s.keys[w]? = some (camera, services)) : s.Distinct services.values where
  valid ref href := by
    obtain ⟨service, hget⟩ := Services.mem_values.mp href
    obtain ⟨t, ht, _⟩ := h.services w camera services service ref hkey hget
    exact (List.getElem?_eq_some_iff.mp ht).1
  inj ref href ref' href' t t' ht ht' hservice := by
    obtain ⟨service, hget⟩ := Services.mem_values.mp href
    obtain ⟨service', hget'⟩ := Services.mem_values.mp href'
    obtain ⟨u, hu, _, hu_service⟩ := h.services w camera services service ref hkey hget
    obtain ⟨u', hu', _, hu_service'⟩ := h.services w camera services service' ref' hkey hget'
    obtain rfl : t = u := Option.some.inj (ht.symm.trans hu)
    obtain rfl : t' = u' := Option.some.inj (ht'.symm.trans hu')
    obtain rfl : service = service' := hu_service.symm.trans (hservice.trans hu_service')
    exact Option.some.inj (hget.symm.trans hget')

theorem keys_eq_of_getElem? {thread : WorkerThread} (h : s.workerHeap[w]? = some thread) :
    s.keys[w]? = some thread.key := by rw [keys, List.getElem?_map, h, Option.map_some]

/-- What `popWorker` puts on the list of its task. -/
theorem Inv.popped (h : s.Inv) (camera : CameraId) :
    ∃ refs, (∀ task, s.popWorker camera task = { s with
        workers := Function.update s.workers camera none
        lock := Function.update s.lock camera (some (task refs)) }) ∧
      s.Distinct refs ∧ ∀ service ref, s.Records camera service ref → ref ∈ refs := by
  cases hw : s.workers camera with
  | none =>
    refine ⟨[], fun task => by simp only [popWorker, current, hw, Option.bind_none],
      ⟨fun _ h => absurd h List.not_mem_nil, fun _ h => absurd h List.not_mem_nil⟩, ?_⟩
    rintro service ref ⟨w, services, hw', _⟩
    rw [hw] at hw'
    cases hw'
  | some w =>
    obtain ⟨services, hkey⟩ := h.owner camera w hw
    obtain ⟨thread, hthread, hkey'⟩ := Option.map_eq_some_iff.mp ((List.getElem?_map ..).symm.trans hkey)
    obtain rfl : thread.worker.services = services := congrArg Prod.snd hkey'
    refine ⟨thread.worker.services.values, fun task => ?_, h.distinct_of_key hkey, ?_⟩
    · simp only [popWorker, current, hw, Option.bind_some, hthread]
    · rintro service ref ⟨w', services, hw', hkey'', hget⟩
      obtain rfl : w = w' := Option.some.inj (hw.symm.trans hw')
      obtain ⟨_, rfl⟩ := keys_lookup_unique hkey'' hkey
      exact Services.mem_values.mpr ⟨service, hget⟩

/-- A thread takes the lock and pops the worker. -/
theorem Inv.popWorker (h : s.Inv) (hlock : s.lock camera = none)
    {task : List ServiceRef → Section} {stopped : CameraId → Bool}
    (htask : ∀ refs, (task refs).remaining = some refs)
    (hothers : ∀ camera', camera' ≠ camera → stopped camera' = s.stopped camera')
    (hstopped : stopped camera = true → s.stopped camera = true)
    (hholds : ∀ (s' : Sys) (refs : List ServiceRef), s'.workers camera = none →
      s'.stopped camera = stopped camera → s'.Distinct refs → s'.Holds camera (task refs)) :
    ({ s.popWorker camera task with stopped := stopped } : Sys).Inv := by
  obtain ⟨refs, hpop, hdistinct, hrecords⟩ := h.popped camera
  rw [hpop]
  have hw : Function.update s.workers camera none camera = none := Function.update_self ..
  have htaken : Function.update s.lock camera (some (task refs)) camera = some (task refs) :=
    Function.update_self ..
  refine h.of_local ⟨rfl, fun _ _ hkey => hkey, fun _ _ _ hkey => .inl hkey,
    fun _ hne => Function.update_of_ne hne .., fun _ hne => Function.update_of_ne hne .., hothers⟩
    ?_ ?_ ?_ ?_
  · intro w hw'
    cases hw.symm.trans hw'
  · intro ref t ht hcamera halive
    have hcovers := h.covered ref t ht halive
    rw [hcamera, covers_iff_records (remaining_of_free hlock)] at hcovers
    exact (covers_iff_mem htaken (htask refs)).mpr (hrecords _ ref hcovers)
  · intro task' htask'
    obtain rfl : task refs = task' := Option.some.inj (htaken.symm.trans htask')
    exact hholds _ refs hw rfl ⟨hdistinct.valid, hdistinct.inj⟩
  · intro hstop
    exact ⟨hw, (h.stopped camera (hstopped hstop)).2⟩

theorem Inv.createWorker {cfg : Config} (h : s.Inv) (hstep : s.createWorker cfg camera = some s') :
    s'.Inv ∧ s'.serviceHeap = s.serviceHeap ∧ s'.stopped = s.stopped := by
  obtain ⟨row, password, hlock, hcases⟩ := Sys.createWorker_eq_some hstep
  obtain ⟨rfl, hstopped, hnone, _⟩ := h.holder camera _ hlock
  have hremaining : s.remaining row.id = some [] := by rw [remaining, hlock]; rfl
  rcases hcases with rfl | ⟨port, _, rfl⟩
  · have hfree : (s.setLock row.id none).Inv :=
      h.setLock (.inr hremaining) rfl fun _ h => by cases h
    exact ⟨hfree, rfl, rfl⟩
  · have hnew : (s.workerHeap ++ [({ worker := { port, camera := row, password } } :
        WorkerThread)]).map WorkerThread.key = s.keys ++ [(row.id, ({} : Services))] :=
      List.map_append
    have hlength : s.keys.length = s.workerHeap.length := List.length_map _
    have hkey : (s.keys ++ [(row.id, ({} : Services))])[s.workerHeap.length]? =
        some (row.id, ({} : Services)) := by rw [← hlength, List.getElem?_concat_length]
    have hworker : Function.update s.workers row.id (some s.workerHeap.length) row.id =
        some s.workerHeap.length := Function.update_self ..
    have htaken : Function.update s.lock row.id (some (.launch s.workerHeap.length)) row.id =
        some (.launch s.workerHeap.length) := Function.update_self ..
    refine ⟨h.of_local ⟨rfl, ?_, ?_, fun _ hne => Function.update_of_ne hne ..,
      fun _ hne => Function.update_of_ne hne .., fun _ _ => rfl⟩ ?_ ?_ ?_ ?_, rfl, rfl⟩
    · intro w key hold
      rw [keys, hnew, List.getElem?_append_left (List.getElem?_eq_some_iff.mp hold).1]
      exact hold
    · intro w camera services hget
      rw [keys, hnew] at hget
      rcases Nat.lt_or_ge w s.keys.length with hlt | hge
      · rw [List.getElem?_append_left hlt] at hget
        exact .inl hget
      · rw [List.getElem?_append_right hge] at hget
        exact .inr (congrArg Prod.snd (List.mem_singleton.mp (List.mem_of_getElem? hget)))
    · intro w hw
      obtain rfl := Option.some.inj (hworker.symm.trans hw)
      exact ⟨{}, by rw [keys, hnew, hkey]⟩
    · intro ref t ht hcamera halive
      have hcovers := h.covered ref t ht halive
      rw [hcamera, covers_iff_mem hlock rfl] at hcovers
      exact absurd hcovers List.not_mem_nil
    · intro task htask
      obtain rfl := Option.some.inj (htaken.symm.trans htask)
      exact ⟨hworker, by rw [keys, hnew, hkey]⟩
    · intro hstop
      cases hstopped.symm.trans hstop

theorem Inv.spawn (h : s.Inv) (hstep : s.spawn camera = some s') :
    s'.Inv ∧ s'.serviceHeap = s.serviceHeap ∧ s'.stopped = s.stopped := by
  obtain ⟨w, hlock, rfl⟩ := Sys.spawn_eq_some hstep
  have hframe : Frame True s (s.setOnvif w .polling) := frame_setOnvif w .polling
  have hremaining : (s.setOnvif w .polling).remaining camera = none := by
    rw [remaining, hframe.lock, hlock]
    rfl
  have hnext : ((s.setOnvif w .polling).setLock camera none).Inv :=
    (h.frame hframe).setLock (.inl hremaining) rfl fun _ h => by cases h
  exact ⟨hnext, rfl, rfl⟩

/-! ## Steps that start processes -/

/-- Processes were started in current workers only, and no lock has changed hands. -/
structure Starts (s s' : Sys) : Prop where
  inv : s'.Inv
  workers : s'.workers = s.workers
  lock : s'.lock = s.lock
  stopped : s'.stopped = s.stopped
  thread : ∀ (ref : ServiceRef) (t' : ServiceThread), s'.serviceHeap[ref]? = some t' →
    (∃ t, s.serviceHeap[ref]? = some t ∧ t.cameraId = t'.cameraId) ∨ s.workers t'.cameraId ≠ none

theorem Starts.of_frame (h : s.Inv) (hframe : Frame ready s s') : Starts s s' where
  inv := h.frame hframe
  workers := hframe.workers
  lock := hframe.lock
  stopped := hframe.stopped
  thread ref t' ht' := by
    obtain ⟨t, ht, he⟩ := hframe.thread ref t' ht'
    exact .inl ⟨t, ht, he.cameraId.symm⟩

theorem Starts.refl (h : s.Inv) : Starts s s :=
  .of_frame h (Frame.refl s : Frame True s s)

theorem Starts.trans {s'' : Sys} (h : Starts s s') (h' : Starts s' s'') : Starts s s'' where
  inv := h'.inv
  workers := h'.workers.trans h.workers
  lock := h'.lock.trans h.lock
  stopped := h'.stopped.trans h.stopped
  thread ref t'' ht'' := by
    rcases h'.thread ref t'' ht'' with ⟨t', ht', hcamera'⟩ | hw
    · rcases h.thread ref t' ht' with ⟨t, ht, hcamera⟩ | hw
      · exact .inl ⟨t, ht, hcamera.trans hcamera'⟩
      · exact .inr (hcamera' ▸ hw)
    · exact .inr (h.workers ▸ hw)

theorem Starts.of_started {cfg : Config} (h : s.Inv) (hw : s.workers camera = some w)
    (hlock : s.remaining camera = none) (hlaunch : ∀ w, s.lock camera ≠ some (.launch w))
    (hdead : ∀ t ∈ s.serviceHeap, t.cameraId = camera → t.state.service = service →
      t.alive = false) (hstarted : s.Started cfg camera w service s') : Starts s s' := by
  obtain ⟨launch, message, rfl⟩ := hstarted
  have hadded := h.addService hw hlock hlaunch hdead launch
  have hframe : Frame True (s.addService camera w service launch) _ :=
    frame_appendLog cfg w (.message message)
  refine ⟨hadded.frame hframe, rfl, rfl, rfl, fun ref t ht => ?_⟩
  rcases addService_getElem? ht with hold | ⟨_, hcamera, _⟩
  · exact .inl ⟨t, hold, rfl⟩
  · rw [hcamera, hw]
    exact .inr nofun

theorem Starts.getD {o : Option Sys} {t : Sys} (hsome : ∀ u, o = some u → Starts s u)
    (hnone : Starts s t) : Starts s (o.getD t) := by
  cases ho : o with
  | none => exact hnone
  | some u => exact hsome u ho

theorem Inv.records_of_serviceOf (h : s.Inv) (hw : s.workers camera = some w)
    (hget : s.serviceOf w service = some ref) : s.Records camera service ref := by
  obtain ⟨owner, howner, hget⟩ := Option.bind_eq_some_iff.mp hget
  obtain ⟨services, hkey⟩ := h.owner camera w hw
  have hkey' := keys_eq_of_getElem? howner
  obtain rfl : camera = owner.worker.camera.id := (keys_lookup_unique hkey hkey').1
  exact ⟨w, owner.worker.services, hw, hkey', hget⟩

theorem Inv.records_of_isRecorded (h : s.Inv) {t : ServiceThread}
    (ht : s.serviceHeap[ref]? = some t) (hrecorded : s.isRecorded ref t = true) :
    s.workers t.cameraId = some t.worker ∧ s.Records t.cameraId t.state.service ref := by
  rw [isRecorded, Bool.and_eq_true, decide_eq_true_eq] at hrecorded
  obtain ⟨hw, hmem⟩ := hrecorded
  split at hmem
  · next owner howner =>
    obtain ⟨service, hget⟩ := Services.mem_values.mp (of_decide_eq_true hmem)
    have hrecords : s.Records t.cameraId service ref := by
      refine h.records_of_serviceOf hw ?_
      rw [serviceOf, howner, Option.bind_some]
      exact hget
    obtain ⟨w, services, hworker, hkey, hget'⟩ := hrecords
    obtain ⟨u, hu, _, hservice⟩ := h.services w _ services service ref hkey hget'
    obtain rfl : t = u := Option.some.inj (ht.symm.trans hu)
    rw [hservice]
    exact ⟨hw, w, services, hworker, hkey, hget'⟩
  · cases hmem

/-- While the lock is free, a dead process that is recorded may be replaced. -/
theorem Starts.replace {cfg : Config} (h : s.Inv) (hlock : s.lock camera = none)
    (hrecords : s.Records camera service ref) {t : ServiceThread}
    (ht : s.serviceHeap[ref]? = some t) (hdead : t.alive = false)
    (hw : s.workers camera = some w) (hstarted : s.Started cfg camera w service s') :
    Starts s s' := by
  have hfree := remaining_of_free hlock
  exact .of_started h hw hfree (fun w => by rw [hlock]; nofun)
    (h.dead_of_recorded hfree hrecords ht hdead) hstarted

theorem Starts.restartPeer {cfg : Config} {code : Int} {ok : Bool} (h : s.Inv)
    (hlock : s.lock camera = none) : Starts s (s.restartPeer cfg camera w code ok) := by
  unfold Sys.restartPeer
  split
  · next hw =>
    split
    · next peer hpeer =>
      have hframe : Frame True s ((s.exitProcess peer code).appendLog cfg w
          (.message "[P2P] Restarting RTSP after the ONVIF channel detected a stalled tunnel")) :=
        (frame_exitProcess peer code).trans (frame_appendLog cfg w _)
      have hkilled := Starts.of_frame h hframe
      refine .getD (fun u hu => hkilled.trans ?_) hkilled
      obtain ⟨w', services, hw', hkey, hget⟩ := h.records_of_serviceOf hw hpeer
      have hkeys : ((s.exitProcess peer code).appendLog cfg w _).keys = s.keys := hframe.keys
      obtain ⟨t, ht, _⟩ := hkilled.inv.services w' camera services .rtsp peer (hkeys ▸ hkey) hget
      exact .replace hkilled.inv hlock ⟨w', services, hw', hkeys ▸ hkey, hget⟩ ht
        (exitProcess_dead ht) hw (startService_eq_some hu)
    · exact .refl h
  · exact .refl h

theorem Starts.restart {cfg : Config} {ok : Bool} {code : Int} {peerOk : Bool} (h : s.Inv)
    (hstep : s.restart cfg ref ok code peerOk = some s') : Starts s s' := by
  obtain ⟨t, ht, hasleep, hlock, rfl⟩ := Sys.restart_eq_some hstep
  have hframe : Frame True s (s.setReader ref .done) := frame_setReader_done ref
  have hdone := Starts.of_frame h hframe
  cases hown : s.restartOwn cfg ref t ok with
  | none => exact hdone
  | some u =>
    have hrestarted : Starts s u := by
      rcases Sys.restartOwn_eq_some hown with ⟨hrecorded, hu⟩ | ⟨_, rfl⟩
      · have hdead : t.alive = false := h.asleep t (List.mem_of_getElem? ht) hasleep
        have ht' : (s.setReader ref .done).serviceHeap[ref]? = some { t with reader := .done } := by
          rw [setReader, modifyService, List.getElem?_modify_eq, ht]
          rfl
        obtain ⟨hw, hrecords⟩ := hdone.inv.records_of_isRecorded ht' hrecorded
        exact hdone.trans
          (.replace hdone.inv hlock hrecords ht' hdead hw (startService_eq_some hu))
      · exact hdone
    simp only
    split
    · exact hrestarted.trans
        (.restartPeer hrestarted.inv ((congrFun hrestarted.lock _).trans hlock))
    · exact hrestarted

theorem Starts.onvifStart {cfg : Config} {ok : Bool} (h : s.Inv)
    (hstep : s.onvifStart cfg w ok = some s') : Starts s s' := by
  simp only [Sys.onvifStart, Option.bind_eq_bind, Option.bind_eq_some_iff] at hstep
  obtain ⟨thread, hthread, _, _, _, hfree, hstep⟩ := hstep
  have hlock : s.lock thread.worker.camera.id = none := by simpa using hfree
  have hframe : Frame True s (s.setOnvif w .done) := frame_setOnvif w .done
  have hdone := Starts.of_frame h hframe
  split at hstep
  · next hcurrent =>
    obtain rfl := Option.some.inj hstep
    refine .getD (fun u hu => hdone.trans ?_) hdone
    have hkeys : (s.setOnvif w .done).keys = s.keys := hframe.keys
    refine .of_started hdone.inv hcurrent.1 (remaining_of_free hlock) (fun w => ?_) ?_
      (startService_eq_some hu)
    · rw [hframe.lock, hlock]
      exact (Option.some_ne_none _).symm
    · exact hdone.inv.dead_of_none (remaining_of_free hlock) hcurrent.1
        (hkeys ▸ keys_eq_of_getElem? hthread) hcurrent.2
  · obtain rfl := Option.some.inj hstep
    exact hdone

/-- `start` starts its first process from a state with the same processes. -/
theorem Starts.launch {cfg : Config} {ok : Bool} (h : s.Inv)
    (hstep : s.launch cfg camera ok = some s') :
    ∃ next, Starts (s.setLock camera next) s' := by
  unfold Sys.launch at hstep
  split at hstep
  · next w hlock =>
    obtain ⟨hw, hkey⟩ := h.holder camera _ hlock
    have hremaining : s.remaining camera = none := by rw [remaining, hlock]; rfl
    have hfree : (s.setLock camera none).Inv := h.setLock (.inl hremaining) rfl fun _ h => by cases h
    have hdead : ∀ t ∈ s.serviceHeap, t.cameraId = camera → t.state.service = .rtsp →
        t.alive = false := h.dead_of_none hremaining hw hkey rfl
    split at hstep
    · obtain rfl := Option.some.inj hstep
      refine ⟨none, .getD (fun u hu => ?_) (.refl hfree)⟩
      have hnow := lock_setLock s camera none
      exact .of_started hfree hw (remaining_of_free hnow) (fun w => by rw [hnow]; nofun) hdead
        (startVendorService_eq_some hu)
    · obtain rfl := Option.some.inj hstep
      have hspawn : (s.setLock camera (some (.spawn w))).Inv := by
        refine h.setLock (.inl hremaining) rfl ?_
        rintro _ ⟨⟩
        exact hw
      have hnow := lock_setLock s camera (some (.spawn w))
      cases hstart : (s.setLock camera (some (.spawn w))).startService cfg camera w .rtsp ok with
      | none => exact ⟨none, .refl hfree⟩
      | some u =>
        refine ⟨some (.spawn w), .of_started hspawn hw ?_ (fun w => by rw [hnow]; nofun)
          hdead (startService_eq_some hstart)⟩
        rw [remaining, hnow]
        rfl
  · cases hstep

/-! ## Every step -/

/-- What the event does besides keeping the invariant. -/
structure Advances (event : Event) (s s' : Sys) : Prop where
  /-- A process that is started belongs to a camera with a worker. -/
  thread : ∀ (ref : ServiceRef) (t' : ServiceThread), s'.serviceHeap[ref]? = some t' →
    (∃ t, s.serviceHeap[ref]? = some t ∧ t.cameraId = t'.cameraId) ∨ s'.workers t'.cameraId ≠ none
  /-- Only `start` ends the time in which a camera is stopped. -/
  stopped : ∀ camera, s.stopped camera = true →
    (∀ row password, event = .start row password → row.id ≠ camera) → s'.stopped camera = true

theorem Advances.of_eq {event : Event} (hheap : s'.serviceHeap = s.serviceHeap)
    (hstopped : s'.stopped = s.stopped) : Advances event s s' where
  thread _ t' ht' := .inl ⟨t', hheap ▸ ht', rfl⟩
  stopped _ h _ := hstopped ▸ h

theorem Starts.advances {event : Event} (h : Starts s s') : Advances event s s' where
  thread ref t' ht' := by
    rw [h.workers]
    exact h.thread ref t' ht'
  stopped _ hstopped _ := h.stopped ▸ hstopped

theorem Inv.stopReturns (h : s.Inv) {event : Event} (hstep : s.stopReturns camera = some s') :
    s'.Inv ∧ Advances event s s' := by
  obtain ⟨hlock, rfl⟩ := Sys.stopReturns_eq_some hstep
  obtain ⟨hw, _⟩ := h.holder camera _ hlock
  -- nothing is left to terminate, so nothing of the camera is alive
  have hdead : s.Dead camera := by
    intro t ht hcamera
    by_contra halive
    obtain ⟨ref, href⟩ := List.mem_iff_getElem?.mp ht
    have hcovers := h.covered ref t href (by simpa using halive)
    rw [hcamera, covers_iff_mem hlock rfl] at hcovers
    exact absurd hcovers List.not_mem_nil
  have hfree : (s.setLock camera none).lock camera = none := lock_setLock ..
  refine ⟨h.of_local ⟨rfl, fun _ _ hkey => hkey, fun _ _ _ hkey => .inl hkey,
    fun _ _ => rfl, fun _ hne => Function.update_of_ne hne ..,
    fun _ hne => Function.update_of_ne hne ..⟩ (h.owner camera) ?_ ?_ fun _ => ⟨hw, hdead⟩,
    ⟨fun _ t' ht' => .inl ⟨t', ht', rfl⟩, ?_⟩⟩
  · intro ref t ht hcamera halive
    cases (hdead t (List.mem_of_getElem? ht) hcamera).symm.trans halive
  · intro task htask
    cases hfree.symm.trans htask
  · intro camera' hstopped _
    by_cases hcamera : camera' = camera
    · rw [hcamera]
      exact Function.update_self ..
    · exact (Function.update_of_ne hcamera ..).trans hstopped

theorem Inv.step {cfg : Config} {event : Event} (h : s.Inv) (hstep : s.step cfg event = some s') :
    s'.Inv ∧ Advances event s s' := by
  have hframe {ready : Prop} (hframe : Frame ready s s') : s'.Inv ∧ Advances event s s' :=
    ⟨h.frame hframe, (Starts.of_frame h hframe).advances⟩
  have hstarts (hstarts : Starts s s') : s'.Inv ∧ Advances event s s' :=
    ⟨hstarts.inv, hstarts.advances⟩
  cases event with
  | start row password =>
    obtain ⟨hfree, rfl⟩ := Sys.start_eq_some hstep
    refine ⟨h.popWorker hfree (fun _ => rfl)
      (fun _ hne => Function.update_of_ne hne ..) ?_ ?_, ⟨fun _ t' ht' => .inl ⟨t', ht', rfl⟩, ?_⟩⟩
    · intro hstopped
      rw [Function.update_self] at hstopped
      cases hstopped
    · intro s' refs hw hstopped hdistinct
      exact ⟨rfl, hstopped.trans (Function.update_self ..), hw, hdistinct⟩
    · intro camera hstopped hstart
      exact (Function.update_of_ne (hstart row password rfl).symm ..).trans hstopped
  | stop camera =>
    obtain ⟨hfree, rfl⟩ := Sys.stop_eq_some hstep
    exact ⟨h.popWorker hfree (fun _ => rfl) (fun _ _ => rfl) id
      fun s' refs hw _ hdistinct => ⟨hw, hdistinct⟩, .of_eq rfl rfl⟩
  | kill camera code =>
    obtain ⟨ref, next, rfl, hlock⟩ := Sys.kill_eq_some hstep
    have hkilled : Advances (.kill camera code) s _ :=
      (Starts.of_frame h (frame_exitProcess ref code : Frame True s _)).advances
    refine ⟨?_, hkilled.thread, hkilled.stopped⟩
    rcases hlock with ⟨remaining, hlock, rfl⟩ | ⟨row, password, remaining, hlock, rfl⟩
    · exact h.kill (fun _ => rfl) (fun hholds => ⟨hholds.1, hholds.2.tail⟩) hlock
    · exact h.kill (fun _ => rfl)
        (fun hholds => ⟨hholds.1, hholds.2.1, hholds.2.2.1, hholds.2.2.2.tail⟩) hlock
  | createWorker camera => exact (h.createWorker hstep).imp_right fun hsame => .of_eq hsame.1 hsame.2
  | launch camera ok =>
    obtain ⟨next, hstarts⟩ := Starts.launch h hstep
    have hadvances : Advances (.launch camera ok) (s.setLock camera next) s' := hstarts.advances
    exact ⟨hstarts.inv, hadvances.thread, hadvances.stopped⟩
  | spawn camera => exact (h.spawn hstep).imp_right fun hsame => .of_eq hsame.1 hsame.2
  | stopReturns camera => exact h.stopReturns hstep
  | onvifCheck w expired => exact hframe (frame_onvifCheck hstep : Frame True s s')
  | onvifWatch w => exact hframe (frame_onvifWatch hstep : Frame True s s')
  | onvifStart w ok => exact hstarts (.onvifStart h hstep)
  | exit ref code =>
    obtain ⟨_, _, _, rfl⟩ := Sys.exit_eq_some hstep
    exact hframe (frame_exitProcess ref code : Frame True s _)
  | line ref raw now => exact hframe (frame_handleLine hstep)
  | endOutput ref => exact hframe (frame_endOutput hstep : Frame True s s')
  | handleExit ref now jitter => exact hframe (frame_handleExit hstep : Frame True s s')
  | restart ref ok code peerOk => exact hstarts (.restart h hstep)

end Inv

end Sys

/-! ## Every run -/

theorem runManager_inv {cfg : Config} {events : List Event} {s : Sys}
    (h : runManager cfg events = some s) : s.Inv :=
  Run.run_invariant Sys.inv_init (fun _ _ _ hinv hstep => (hinv.step hstep).1) h

section Run

variable {s : Sys}

/-- Two live processes of one channel are the same. -/
theorem Sys.Inv.unique (h : s.Inv) {ref ref' : ServiceRef} {t t' : ServiceThread}
    (ht : s.serviceHeap[ref]? = some t) (ht' : s.serviceHeap[ref']? = some t')
    (halive : t.alive = true) (halive' : t'.alive = true) (hcamera : t.cameraId = t'.cameraId)
    (hservice : t.state.service = t'.state.service) : ref = ref' := by
  have hcovers := h.covered ref t ht halive
  have hcovers' := h.covered ref' t' ht' halive'
  rw [← hcamera, ← hservice] at hcovers'
  cases hremaining : s.remaining t.cameraId with
  | none =>
    -- both are what the current worker has under the service
    rw [Sys.covers_iff_records hremaining] at hcovers hcovers'
    obtain ⟨w, services, hw, hkey, hget⟩ := hcovers
    obtain ⟨w', services', hw', hkey', hget'⟩ := hcovers'
    obtain rfl : w = w' := Option.some.inj (hw.symm.trans hw')
    obtain ⟨_, rfl⟩ := Sys.keys_lookup_unique hkey hkey'
    exact Option.some.inj (hget.symm.trans hget')
  | some refs =>
    -- both are still to be terminated
    obtain ⟨task, hlock, htask⟩ := Option.bind_eq_some_iff.mp hremaining
    rw [Sys.covers_iff_mem hlock htask] at hcovers hcovers'
    have hdistinct : s.Distinct refs := by
      have hholds := h.holder _ task hlock
      cases task with
      | stop remaining =>
        obtain rfl := Option.some.inj htask
        exact hholds.2
      | start row password remaining =>
        obtain rfl := Option.some.inj htask
        exact hholds.2.2.2
      | launch w => cases htask
      | spawn w => cases htask
    exact hdistinct.inj ref hcovers ref' hcovers' t t' ht ht' hservice

theorem Sys.Inv.recorded (h : s.Inv) {ref : ServiceRef} {t : ServiceThread}
    (ht : s.serviceHeap[ref]? = some t) (halive : t.alive = true)
    (hfree : s.lock t.cameraId = none) :
    s.recorded t.cameraId t.state.service = some ref := by
  have hcovers := h.covered ref t ht halive
  rw [Sys.covers_iff_records (Sys.remaining_of_free hfree)] at hcovers
  obtain ⟨w, services, hw, hkey, hget⟩ := hcovers
  obtain ⟨owner, howner, hkey'⟩ := Option.map_eq_some_iff.mp ((List.getElem?_map ..).symm.trans hkey)
  obtain rfl : owner.worker.services = services := congrArg Prod.snd hkey'
  rw [Sys.recorded, Sys.current, hw, Option.bind_some, howner, Option.bind_some]
  exact hget

theorem stopped_run {cfg : Config} {camera : CameraId} {future : List Event} {before : Sys}
    (h : before.Inv) (hstopped : before.stopped camera = true)
    (hstart : ∀ row password, .start row password ∈ future → row.id ≠ camera)
    (hrun : Run.run (Sys.step cfg) future before = some s) :
    s.Inv ∧ s.stopped camera = true ∧ ∀ (ref : ServiceRef) (t : ServiceThread),
      s.serviceHeap[ref]? = some t → t.cameraId = camera → ref < before.serviceHeap.length := by
  let I (past : List Event) (s : Sys) : Prop :=
    (∀ row password, .start row password ∈ past → row.id ≠ camera) →
      s.Inv ∧ s.stopped camera = true ∧ ∀ (ref : ServiceRef) (t : ServiceThread),
        s.serviceHeap[ref]? = some t → t.cameraId = camera → ref < before.serviceHeap.length
  have hinit : I [] before := fun _ =>
    ⟨h, hstopped, fun ref t ht _ => (List.getElem?_eq_some_iff.mp ht).1⟩
  refine Run.run_induction (I := I) hinit ?_ hrun hstart
  intro past event s s' _ hpast hstep hstart
  obtain ⟨hinv, hstopped, hold⟩ := hpast fun row password hmem =>
    hstart row password (List.mem_append_left _ hmem)
  obtain ⟨hinv', hadvances⟩ := hinv.step hstep
  have hstopped' := hadvances.stopped camera hstopped fun row password hevent =>
    hstart row password (List.mem_append_right _ (List.mem_singleton.mpr hevent.symm))
  refine ⟨hinv', hstopped', fun ref t' ht' hcamera => ?_⟩
  rcases hadvances.thread ref t' ht' with ⟨t, ht, hsame⟩ | hw
  · exact hold ref t ht (hsame.trans hcamera)
  · rw [hcamera] at hw
    exact absurd (hinv'.stopped camera hstopped').1 hw

end Run

theorem stopped_of_stopReturns {cfg : Config} {s s' : Sys} {camera : CameraId}
    (h : s.step cfg (.stopReturns camera) = some s') : s'.stopped camera = true := by
  obtain ⟨_, rfl⟩ := Sys.stopReturns_eq_some h
  exact Function.update_self ..

/-- In every reachable state a channel has at most one live process; while the
lifecycle lock is free, it is the recorded one; and after `stop` has returned, until
`start` takes the lock again, no process of the camera is alive or is started. -/
theorem one_process_per_channel {cfg : Config} {events : List Event} {s : Sys}
    (h : runManager cfg events = some s) :
    (∀ (ref ref' : ServiceRef) (t t' : ServiceThread), s.serviceHeap[ref]? = some t →
      s.serviceHeap[ref']? = some t' → t.alive = true → t'.alive = true →
      t.cameraId = t'.cameraId → t.state.service = t'.state.service → ref = ref') ∧
    (∀ (ref : ServiceRef) (t : ServiceThread), s.serviceHeap[ref]? = some t → t.alive = true →
      s.lock t.cameraId = none → s.recorded t.cameraId t.state.service = some ref) ∧
    (∀ (camera : CameraId) (past future : List Event) (before : Sys),
      events = past ++ [.stopReturns camera] ++ future →
      (∀ row password, .start row password ∈ future → row.id ≠ camera) →
      runManager cfg (past ++ [.stopReturns camera]) = some before →
      ∀ (ref : ServiceRef) (t : ServiceThread), s.serviceHeap[ref]? = some t →
        t.cameraId = camera → t.alive = false ∧ ref < before.serviceHeap.length) := by
  have hinv := runManager_inv h
  refine ⟨fun ref ref' t t' ht ht' => hinv.unique ht ht', fun ref t => hinv.recorded, ?_⟩
  rintro camera past future before rfl hstart hbefore ref t ht hcamera
  obtain ⟨s₀, _, hlast⟩ := Run.run_concat.mp hbefore
  rw [runManager, Run.run_append] at h
  obtain ⟨_, hbefore', hrun⟩ := Option.bind_eq_some_iff.mp h
  obtain rfl := Option.some.inj (hbefore.symm.trans hbefore')
  obtain ⟨_, hstopped, hold⟩ :=
    stopped_run (runManager_inv hbefore) (stopped_of_stopReturns hlast) hstart hrun
  exact ⟨(hinv.stopped camera hstopped).2 t (List.mem_of_getElem? ht) hcamera, hold ref t ht hcamera⟩

def exampleRow : Camera :=
  { id := 1
    name := "Yard"
    vendor := .dahua
    serial := "5K00001"
    username := "admin"
    passwordEnc := "gAAAAA"
    channel := 1
    stream := .main
    enabled := true
    motionEnabled := true
    synologyWebhook := none
    status := "stopped"
    lastError := none }

/-- A `stop` in the middle of the delay before a restart. -/
def stoppedInDelay : List Event :=
  [.start exampleRow "secret", .createWorker 1, .launch 1 true, .spawn 1, .exit 0 75, .endOutput 0,
    .onvifCheck 0 false, .onvifWatch 0, .onvifStart 0 true, .handleExit 0 10 1,
    .stop 1, .kill 1 0, .kill 1 (-15), .stopReturns 1, .restart 0 true 0 true]

theorem one_process_per_channel_stopped : ∃ s, runManager {} stoppedInDelay = some s ∧
    ∀ (ref : ServiceRef) (t : ServiceThread), s.serviceHeap[ref]? = some t → t.cameraId = 1 →
      t.alive = false ∧ ref < 2 := by
  have hrun : (runManager {} stoppedInDelay).isSome = true := by decide +kernel
  obtain ⟨s, hs⟩ := Option.isSome_iff_exists.mp hrun
  refine ⟨s, hs, fun ref t ht hcamera => ?_⟩
  have hbefore : (runManager {} (stoppedInDelay.take 14)).isSome = true := by decide +kernel
  obtain ⟨before, hb⟩ := Option.isSome_iff_exists.mp hbefore
  have hlength : (runManager {} (stoppedInDelay.take 14)).map (·.serviceHeap.length) = some 2 := by
    decide +kernel
  rw [hb] at hlength
  have := (one_process_per_channel hs).2.2 1 (stoppedInDelay.take 13) [.restart 0 true 0 true] before rfl
    (by simp) hb ref t ht hcamera
  exact ⟨this.1, Option.some.inj hlength ▸ this.2⟩

end DahuaBridge
