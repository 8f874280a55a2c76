import DahuaBridge.Manager.Lifecycle

/-!
# What a camera is reported as

A camera is online when all its services are. The RTSP state becomes online on its
first media line; for the ONVIF state only a `READY` line does that, and the
default backend prints none.

* `onvif_status_ne_online`: without `READY` lines no ONVIF state is ever online.
* `working_ne_online`: so a camera that works in full is never reported online.
-/

namespace DahuaBridge

/-! ## The status of a worker -/

theorem statusOf_eq_online {statuses : List Status} (h : statusOf statuses = .online) :
    ∀ status ∈ statuses, status = .online := by
  unfold statusOf at h
  split at h
  · cases h
  split at h
  · next hall => simpa using hall
  repeat' split at h
  all_goals cases h

/-- A state with another status keeps its worker from being online. -/
theorem Sys.workerStatus_ne_online {s : Sys} {worker : WorkerState} {service : Service}
    {ref : ServiceRef} {t : ServiceThread} (hrecorded : worker.services.get service = some ref)
    (ht : s.serviceHeap[ref]? = some t) (hstatus : t.state.status ≠ .online) :
    s.workerStatus worker ≠ .online := by
  intro h
  have hmem : ref ∈ worker.services.values := Services.mem_values.mpr ⟨service, hrecorded⟩
  have hstate : t.state ∈ s.states worker :=
    List.mem_filterMap.mpr ⟨ref, hmem, by rw [ht]; rfl⟩
  exact hstatus (statusOf_eq_online h _ (List.mem_map_of_mem hstate))

/-- Without `READY` lines no ONVIF state is ever online. -/
theorem onvif_status_ne_online {cfg : Config} {events : List Event} {s : Sys}
    (hready : ∀ event ∈ events, ¬ event.PrintsReady) (h : runManager cfg events = some s) :
    ∀ t ∈ s.serviceHeap, t.state.service = .onvif → t.state.status ≠ .online := by
  refine threads_invariant ?_ ?_ hready h
  · intro t hnew _
    rw [hnew.status]
    decide
  · intro t t' hevolves ht hservice hstatus
    rw [hevolves.service] at hservice
    rcases hevolves.online hstatus with honline | hrtsp | hfalse
    · exact ht hservice honline
    · rw [hservice] at hrtsp
      cases hrtsp
    · exact hfalse

/-! ## A camera that works in full -/

/-- The process `ref` has printed a line with this text. -/
def Printed (events : List Event) (ref : ServiceRef) (text : String) : Prop :=
  ∃ raw now, .line ref raw now ∈ events ∧ hasText text (rstrip raw) = true

/-- Both processes of the worker are recorded and alive, both have printed that
they are ready, and the RTSP process has delivered media since. -/
structure WorksInFull (events : List Event) (s : Sys) (worker : WorkerState)
    (rtsp onvif : ServiceRef) : Prop where
  recorded : worker.services.rtsp = some rtsp ∧ worker.services.onvif = some onvif
  alive : (∃ t, s.serviceHeap[rtsp]? = some t ∧ t.alive = true) ∧
    ∃ t, s.serviceHeap[onvif]? = some t ∧ t.alive = true
  printed : ∃ past since, events = past ++ since ∧ Printed past rtsp "Ready to connect" ∧
    Printed past onvif "Ready to connect" ∧ Printed since rtsp "RTSP media data:"

/-- A camera that works in full is never reported online, in any run without `READY` lines. -/
theorem working_ne_online {cfg : Config} {events : List Event} {s : Sys} {camera : CameraId}
    {thread : WorkerThread} {rtsp onvif : ServiceRef}
    (hready : ∀ event ∈ events, ¬ event.PrintsReady) (h : runManager cfg events = some s)
    (hcurrent : s.current camera = some thread)
    (hworks : WorksInFull events s thread.worker rtsp onvif) :
    s.workerStatus thread.worker ≠ .online := by
  obtain ⟨w, _, hthread⟩ := Option.bind_eq_some_iff.mp hcurrent
  have honvif : thread.worker.services.get .onvif = some onvif := hworks.recorded.2
  obtain ⟨t, ht, _, hservice⟩ := (runManager_inv h).services w thread.worker.camera.id
    thread.worker.services .onvif onvif (Sys.keys_eq_of_getElem? hthread) honvif
  exact Sys.workerStatus_ne_online honvif ht
    (onvif_status_ne_online hready h t (List.mem_of_getElem? ht) hservice)

/-- The start of a camera, up to its first media line. -/
def firstMedia : List Event :=
  [.start exampleRow "secret", .createWorker 1, .launch 1 true, .spawn 1,
    .line 0 "Ready to connect!\n" 1, .onvifCheck 0 false, .onvifWatch 0, .onvifStart 0 true,
    .line 1 "Ready to connect!\n" 3, .line 0 "RTSP media data: 1024 bytes\n" 4]

theorem firstMedia_printed : ∃ past since, firstMedia = past ++ since ∧
    Printed past 0 "Ready to connect" ∧ Printed past 1 "Ready to connect" ∧
    Printed since 0 "RTSP media data:" := by
  refine ⟨firstMedia.take 9, firstMedia.drop 9, rfl, ?_, ?_, ?_⟩
  · exact ⟨"Ready to connect!\n", 1, by simp [firstMedia], by decide +kernel⟩
  · exact ⟨"Ready to connect!\n", 3, by simp [firstMedia], by decide +kernel⟩
  · exact ⟨"RTSP media data: 1024 bytes\n", 4, by simp [firstMedia], by decide +kernel⟩

theorem firstMedia_no_ready : ∀ event ∈ firstMedia, ¬ event.PrintsReady := by
  simp only [firstMedia, List.forall_mem_cons, List.not_mem_nil, IsEmpty.forall_iff,
    implies_true, and_true, Event.PrintsReady]
  decide +kernel

theorem firstMedia_reached : ∃ s thread, runManager {} firstMedia = some s ∧
    s.current 1 = some thread ∧ WorksInFull firstMedia s thread.worker 0 1 ∧
    s.workerStatus thread.worker = .connecting := by
  have hview : (runManager {} firstMedia).map (fun s => ((s.current 1).map fun thread =>
      (thread.worker.services.rtsp, thread.worker.services.onvif, s.workerStatus thread.worker),
        s.serviceHeap.map ServiceThread.alive)) =
      some (some (some 0, some 1, .connecting), [true, true]) := by decide +kernel
  obtain ⟨s, hs, hview⟩ := Option.map_eq_some_iff.mp hview
  obtain ⟨hthread, halive⟩ := Prod.mk.inj hview
  obtain ⟨thread, hcurrent, hview⟩ := Option.map_eq_some_iff.mp hthread
  obtain ⟨hrtsp, hrest⟩ := Prod.mk.inj hview
  obtain ⟨honvif, hstatus⟩ := Prod.mk.inj hrest
  have hlive (ref : ServiceRef) (h : [true, true][ref]? = some true) :
      ∃ t, s.serviceHeap[ref]? = some t ∧ t.alive = true := by
    rw [← halive, List.getElem?_map] at h
    exact Option.map_eq_some_iff.mp h
  exact ⟨s, thread, hs, hcurrent,
    ⟨⟨hrtsp, honvif⟩, ⟨hlive 0 rfl, hlive 1 rfl⟩, firstMedia_printed⟩, hstatus⟩

theorem working_ne_online_firstMedia : ∃ s thread, runManager {} firstMedia = some s ∧
    s.current 1 = some thread ∧ s.workerStatus thread.worker ≠ .online := by
  obtain ⟨s, thread, hs, hcurrent, hworks, _⟩ := firstMedia_reached
  exact ⟨s, thread, hs, hcurrent, working_ne_online firstMedia_no_ready hs hcurrent hworks⟩

/-- After its first media line a camera works in full, and is reported as connecting. -/
theorem firstMedia_connecting : ∃ s thread, runManager {} firstMedia = some s ∧
    (∀ event ∈ firstMedia, ¬ event.PrintsReady) ∧ s.current 1 = some thread ∧
    WorksInFull firstMedia s thread.worker 0 1 ∧ s.workerStatus thread.worker = .connecting := by
  obtain ⟨s, thread, hs, hcurrent, hworks, hstatus⟩ := firstMedia_reached
  exact ⟨s, thread, hs, firstMedia_no_ready, hcurrent, hworks, hstatus⟩

end DahuaBridge
