import DahuaBridge.Vendor.Worker

/-!
# The handles of the vendor worker

`main` gets a first handle for its queries, and the loop over the maps asks for a handle of
its own for every map but the first. The first map has none: `map_handles[0]` stays `NULL`,
and nobody gives the first handle back.

* `Disciplined`: what a record of calls should look like.
* `handles_disciplined_iff`: it does exactly until the worker turns to its maps or ends,
  unless the first `P2P_Init` has left no handle.
-/

namespace DahuaBridge.VendorWorker

/-! ## The discipline -/

/-- The handle that a call needs. -/
def Call.needs : Call → Option Handle
  | .connect _ handle _ => some handle
  | .queryChannelStatus handle => some handle
  | .deviceStatus handle => some handle
  | .disconnect handle => some handle
  | _ => none

/-- The handle comes from a `P2P_Init` that returned 0 and has not been given back since. -/
def Live (past : List Call) (handle : Handle) : Prop :=
  handle ≠ none ∧ ∃ before since, past = before ++ .init 0 handle :: since ∧
    .unInit handle ∉ since

/-- How often `P2P_Init` has given out a handle. -/
def obtained (past : List Call) (handle : Handle) : Nat :=
  past.countP fun | .init _ out => out = handle | _ => false

/-- A call may be made after the calls of `past`. -/
structure Allowed (past : List Call) (call : Call) : Prop where
  live : ∀ handle, call.needs = some handle → Live past handle
  marked : ∀ i, call = .marked i → ∃ handle, .connect i handle 0 ∈ past
  released : call = .freeLibrary → ∀ handle, handle ≠ none →
    past.count (.unInit handle) = obtained past handle

/-- Every call was allowed when it was made. -/
def Disciplined (calls : List Call) : Prop :=
  ∀ past call rest, calls = past ++ call :: rest → Allowed past call

/-- `P2P_Connect` and `FreeLibrary`. -/
def Call.engages : Call → Bool
  | .connect _ _ _ => true
  | .freeLibrary => true
  | _ => false

section Discipline

variable {calls more : List Call} {call : Call} {handle : Handle}

theorem disciplined_nil : Disciplined [] := fun past _ _ hsplit => by cases past <;> cases hsplit

theorem Disciplined.of_append (h : Disciplined (calls ++ more)) : Disciplined calls :=
  fun past call rest hsplit =>
    h past call (rest ++ more) (by rw [hsplit, List.append_assoc, List.cons_append])

theorem disciplined_concat :
    Disciplined (calls ++ [call]) ↔ Disciplined calls ∧ Allowed calls call := by
  refine ⟨fun h => ⟨h.of_append, h calls call [] rfl⟩, fun h past call' rest hsplit => ?_⟩
  rcases List.eq_nil_or_concat rest with rfl | ⟨before, last, rfl⟩
  · obtain ⟨rfl, hlast⟩ := List.append_inj' hsplit rfl
    obtain rfl := List.head_eq_of_cons_eq hlast
    exact h.2
  · rw [List.concat_eq_append, ← List.cons_append, ← List.append_assoc] at hsplit
    exact h.1 past call' before (List.append_inj' hsplit rfl).1

theorem obtained_concat : obtained (calls ++ [call]) handle =
    obtained calls handle + obtained [call] handle := List.countP_append ..

theorem Live.concat (h : Live calls handle) (hcall : call ≠ .unInit handle) :
    Live (calls ++ [call]) handle := by
  obtain ⟨hhandle, before, since, rfl, hsince⟩ := h
  refine ⟨hhandle, before, since ++ [call], by rw [List.append_assoc, List.cons_append], ?_⟩
  rw [List.mem_append, List.mem_singleton]
  rintro (hmem | heq)
  · exact hsince hmem
  · exact hcall heq.symm

end Discipline

/-! ## After the set-up -/

/-- The first `P2P_Init` has returned. -/
def Pc.late : Pc → Bool
  | .loadLibrary => false
  | .getProcAddress => false
  | .init => false
  | _ => true

/-- The worker goes on, with the first handle as it was. -/
structure Extends (w w' : Worker) : Prop where
  calls : w.calls <+: w'.calls
  handle : w'.handle = w.handle
  late : w'.pc.late = true

theorem Extends.of_same {v w w' : Worker} (h : Extends v w') (hcalls : w.calls <+: v.calls)
    (hhandle : v.handle = w.handle) : Extends w w' :=
  ⟨hcalls.trans h.calls, h.handle.trans hhandle, h.late⟩

namespace Worker

variable {w w' : Worker} {i : Nat} {st : Int} {event : Event}

theorem extends_goto {pc : Pc} (hpc : pc.late = true) : Extends w (w.goto pc) :=
  ⟨List.prefix_refl _, rfl, hpc⟩

theorem extends_cleanupError : Extends w w.cleanupError := ⟨List.prefix_refl _, rfl, rfl⟩

theorem extends_enterMap : Extends w (w.enterMap i) := by
  unfold enterMap
  split
  · split
    · exact extends_goto rfl
    · exact extends_goto rfl
  · exact extends_goto rfl

theorem extends_afterAttempts : Extends w (w.afterAttempts i) := by
  unfold afterAttempts
  split
  · split
    · exact extends_enterMap
    · exact extends_cleanupError
  · exact ⟨List.prefix_append _ _, rfl, rfl⟩

theorem extends_afterWait : Extends w (w.afterWait i st) := by
  unfold afterWait
  split
  · exact extends_cleanupError
  · exact extends_enterMap

/-- Every step after the first `P2P_Init` goes on with the first handle as it was. -/
theorem extends_step (hlate : w.pc.late = true) (h : w.step event = some w') : Extends w w' := by
  have hrecorded (call : Call) : w.calls <+: (w.record call).calls := List.prefix_append _ _
  cases event with
  | stop =>
    simp only [step] at h
    split at h
    · cases h
    · cases h
      exact ⟨List.prefix_refl _, rfl, hlate⟩
  | loaded ok =>
    simp only [step] at h
    split at h
    · next hpc => rw [hpc] at hlate; cases hlate
    · next hpc => rw [hpc] at hlate; cases hlate
    · cases h
  | init rc out =>
    simp only [step] at h
    split at h
    · next hpc => rw [hpc] at hlate; cases hlate
    · cases h
      split
      · exact extends_cleanupError.of_same (hrecorded _) rfl
      · exact (extends_goto rfl).of_same (hrecorded _) rfl
    · cases h
      split
      · exact extends_afterAttempts.of_same (hrecorded _) rfl
      · exact (extends_goto rfl).of_same (hrecorded _) rfl
    · cases h
  | status rc =>
    simp only [step] at h
    split at h
    · cases h
      exact (extends_goto rfl).of_same (hrecorded _) rfl
    · cases h
      split
      · exact extends_cleanupError.of_same (hrecorded _) rfl
      · exact (extends_goto rfl).of_same (hrecorded _) rfl
    · cases h
      exact extends_enterMap.of_same (hrecorded _) rfl
    · cases h
      split
      · exact extends_cleanupError.of_same (hrecorded _) rfl
      · exact (extends_goto rfl).of_same (hrecorded _) rfl
    · cases h
      split
      · exact extends_afterAttempts.of_same (hrecorded _) rfl
      · exact (extends_goto rfl).of_same (hrecorded _) rfl
    · cases h
      split
      · exact extends_afterWait.of_same (hrecorded _) rfl
      · split
        · exact extends_cleanupError.of_same (hrecorded _) rfl
        · exact (extends_goto rfl).of_same (hrecorded _) rfl
    · cases h
      split
      · exact (extends_goto rfl).of_same (hrecorded _) rfl
      · exact (extends_goto rfl).of_same (hrecorded _) rfl
    · cases h
  | connect rc localPort =>
    simp only [step] at h
    split at h
    · cases h
      split
      · exact (extends_goto rfl).of_same (hrecorded _) rfl
      · exact extends_afterAttempts.of_same (hrecorded _) rfl
    · cases h
  | tick now =>
    simp only [step] at h
    split at h
    · cases h
      exact extends_goto rfl
    · cases h
      split
      · exact extends_goto rfl
      · exact extends_afterWait
    · cases h
  | proceed =>
    simp only [step] at h
    split at h
    · cases h
      split
      · exact (extends_goto rfl).of_same (List.prefix_refl _) rfl
      · exact (extends_goto rfl).of_same (hrecorded _) rfl
    · cases h
      split
      · exact extends_afterWait
      · exact extends_goto rfl
    · cases h
      split
      · exact extends_goto rfl
      · exact extends_goto rfl
    · cases h
      split
      · split
        · exact extends_goto rfl
        · exact extends_goto rfl
      · exact extends_goto rfl
    · cases h
      exact extends_goto rfl
    · cases h
      split
      · exact (extends_goto rfl).of_same (hrecorded _) rfl
      · exact extends_goto rfl
    · cases h
      exact extends_goto rfl
    · cases h
      split
      · exact (extends_goto rfl).of_same (hrecorded _) rfl
      · exact extends_goto rfl
    · cases h
      exact (extends_goto rfl).of_same (hrecorded _) rfl
    · cases h

theorem enterMap_zero (h : w.maps ≠ []) : w.enterMap 0 = w.goto (.connect 0 1) := by
  unfold enterMap
  rw [if_pos (List.length_pos_iff.mpr h), if_neg (Nat.lt_irrefl 0)]

theorem connect_recorded {attempt : Nat} {rc localPort : Int} (hpc : w.pc = .connect i attempt)
    (h : w.step (.connect rc localPort) = some w') :
    w.calls ++ [.connect i (w.mapHandles i) rc] <+: w'.calls := by
  simp only [step, hpc] at h
  cases h
  split
  · exact List.prefix_refl _
  · refine List.IsPrefix.trans ?_ extends_afterAttempts.calls
    exact List.prefix_refl _

end Worker

/-! ## The stages of a run -/

/-- Nothing has been asked of the DLL. -/
structure Early (w : Worker) : Prop where
  maps : w.maps ≠ []
  calls : w.calls = []
  handle : w.handle = none
  slots : ∀ i, w.mapHandles i = none
  early : w.pc.late = false

/-- The worker ends without a handle. -/
structure GaveUp (w : Worker) : Prop where
  handle : w.handle = none
  disciplined : Disciplined w.calls
  last : (w.pc = .freeLibrary ∧ Allowed w.calls .freeLibrary) ∨ ∃ code, w.pc = .exited code

/-- The worker has its first handle, and none for its maps. -/
structure SetUp (w : Worker) : Prop where
  maps : w.maps ≠ []
  handle : w.handle ≠ none
  slots : ∀ i, w.mapHandles i = none
  disciplined : Disciplined w.calls
  quiet : ∀ call ∈ w.calls, call.engages = false
  once : obtained w.calls w.handle = 1
  kept : w.calls.count (.unInit w.handle) = 0
  next : (w.pc = .serverStatus ∨ w.pc = .deviceStatus ∨ w.pc = .deviceInfo ∨ w.pc = .connect 0 1) ∧
      Live w.calls w.handle ∨
    (∃ left, w.pc = .disconnect left) ∨ (∃ left, w.pc = .unInit left) ∨ w.pc = .freeLibrary

/-- The discipline is broken. -/
structure Broken (w : Worker) : Prop where
  handle : w.handle ≠ none
  late : w.pc.late = true
  undisciplined : ¬ Disciplined w.calls
  engaged : ∃ call ∈ w.calls, call.engages = true

def Stage (w : Worker) : Prop := Early w ∨ GaveUp w ∨ SetUp w ∨ Broken w

section Stages

variable {w w' : Worker} {event : Event}

theorem Broken.step (h : Broken w) (hstep : w.step event = some w') : Broken w' := by
  have hextends := Worker.extends_step h.late hstep
  obtain ⟨more, hmore⟩ := hextends.calls
  obtain ⟨call, hcall, hengages⟩ := h.engaged
  refine ⟨hextends.handle ▸ h.handle, hextends.late, fun hdisciplined => ?_, call, ?_, hengages⟩
  · rw [← hmore] at hdisciplined
    exact h.undisciplined hdisciplined.of_append
  · rw [← hmore]
    exact List.mem_append_left _ hcall

/-- A signal changes no stage. -/
theorem Stage.stop (h : Stage w) : Stage { w with stopRequested := true } := by
  rcases h with h | h | h | h
  · exact .inl ⟨h.maps, h.calls, h.handle, h.slots, h.early⟩
  · exact .inr (.inl ⟨h.handle, h.disciplined, h.last⟩)
  · exact .inr (.inr (.inl
      ⟨h.maps, h.handle, h.slots, h.disciplined, h.quiet, h.once, h.kept, h.next⟩))
  · exact .inr (.inr (.inr ⟨h.handle, h.late, h.undisciplined, h.engaged⟩))

theorem GaveUp.step (h : GaveUp w) (hstop : event ≠ .stop) (hstep : w.step event = some w') :
    GaveUp w' := by
  rcases h.last with ⟨hpc, hallowed⟩ | ⟨code, hpc⟩
  · cases event with
    | stop => exact absurd rfl hstop
    | proceed =>
      simp only [Worker.step, hpc] at hstep
      cases hstep
      exact ⟨h.handle, disciplined_concat.mpr ⟨h.disciplined, hallowed⟩, .inr ⟨_, rfl⟩⟩
    | _ =>
      simp only [Worker.step, hpc] at hstep
      cases hstep
  · cases event <;> simp only [Worker.step, hpc] at hstep <;> cases hstep

theorem allowed_of_quiet {past : List Call} {call : Call} (hneeds : call.needs = none)
    (hmarked : ∀ i, call ≠ .marked i) (hfree : call ≠ .freeLibrary) : Allowed past call where
  live handle h := by
    rw [hneeds] at h
    cases h
  marked i h := absurd h (hmarked i)
  released h := absurd h hfree

theorem allowed_freeLibrary {past : List Call}
    (h : ∀ handle, handle ≠ none → past.count (.unInit handle) = obtained past handle) :
    Allowed past .freeLibrary where
  live _ h := by cases h
  marked _ h := by cases h
  released _ := h

theorem disciplined_init (rc : Int) (out : Handle) : Disciplined [.init rc out] :=
  disciplined_concat.mpr ⟨disciplined_nil,
    allowed_of_quiet rfl (fun _ h => by cases h) fun h => by cases h⟩

/-- After the first `P2P_Init` the worker gives up, or it has its handle. -/
theorem stage_init {rc : Int} {out : Handle} (h : Early w) (hpc : w.pc = .init)
    (hstep : w.step (.init rc out) = some w') : Stage w' := by
  obtain ⟨hmaps, hcalls, -, hslots, -⟩ := h
  have hone : w.calls ++ [.init rc out] = [.init rc out] := by rw [hcalls]; rfl
  simp only [Worker.step, hpc] at hstep
  cases hstep
  cases out with
  | none =>
    rw [if_pos (.inr rfl)]
    refine .inr (.inl ⟨rfl, ?_, .inl ⟨rfl, ?_⟩⟩)
    · show Disciplined (w.calls ++ [.init rc none])
      rw [hone]
      exact disciplined_init rc none
    · show Allowed (w.calls ++ [.init rc none]) .freeLibrary
      rw [hone]
      exact allowed_freeLibrary fun handle hne => by
        simp [obtained, Ne.symm hne]
  | some pointer =>
    have hsetUp {v : Worker} (hmaps : v.maps ≠ []) (hv : v.calls = [.init rc (some pointer)])
        (hhandle : v.handle = some pointer) (hslots : ∀ i, v.mapHandles i = none)
        (hnext : v.pc = .serverStatus ∧ rc = 0 ∨ v.pc = .freeLibrary) : Stage v := by
      refine .inr (.inr (.inl ⟨hmaps, ?_, hslots, ?_, ?_, ?_, ?_, ?_⟩))
      · rw [hhandle]
        exact Option.some_ne_none pointer
      · rw [hv]
        exact disciplined_init rc (some pointer)
      · rw [hv]
        exact List.forall_mem_singleton.mpr rfl
      · rw [hv, hhandle]
        simp [obtained]
      · rw [hv]
        rfl
      · rcases hnext with ⟨hnext, rfl⟩ | hnext
        · refine .inl ⟨.inl hnext, ?_⟩
          rw [hv, hhandle]
          exact ⟨Option.some_ne_none pointer, [], [], rfl, List.not_mem_nil⟩
        · exact .inr (.inr (.inr hnext))
    split
    · exact hsetUp hmaps hone rfl hslots (.inr rfl)
    · next hok =>
      exact hsetUp hmaps hone rfl hslots (.inl ⟨rfl, not_not.mp fun hrc => hok (.inl hrc)⟩)

theorem Early.step (h : Early w) (hstop : event ≠ .stop) (hstep : w.step event = some w') :
    Stage w' := by
  have hearly := h.early
  cases hpc : w.pc with
  | loadLibrary =>
    cases event with
    | stop => exact absurd rfl hstop
    | loaded ok =>
      simp only [Worker.step, hpc] at hstep
      cases hstep
      cases ok with
      | true => exact .inl ⟨h.maps, h.calls, h.handle, h.slots, rfl⟩
      | false => exact .inr (.inl ⟨h.handle, h.calls ▸ disciplined_nil, .inr ⟨3, rfl⟩⟩)
    | _ =>
      simp only [Worker.step, hpc] at hstep
      cases hstep
  | getProcAddress =>
    cases event with
    | stop => exact absurd rfl hstop
    | loaded ok =>
      simp only [Worker.step, hpc] at hstep
      cases hstep
      cases ok with
      | true => exact .inl ⟨h.maps, h.calls, h.handle, h.slots, rfl⟩
      | false =>
        refine .inr (.inl ⟨h.handle, h.calls ▸ disciplined_nil, .inl ⟨rfl, ?_⟩⟩)
        show Allowed w.calls .freeLibrary
        rw [h.calls]
        exact allowed_freeLibrary fun _ _ => rfl
    | _ =>
      simp only [Worker.step, hpc] at hstep
      cases hstep
  | init =>
    cases event with
    | stop => exact absurd rfl hstop
    | init rc out => exact stage_init h hpc hstep
    | _ =>
      simp only [Worker.step, hpc] at hstep
      cases hstep
  | _ =>
    rw [hpc] at hearly
    cases hearly

/-- The set-up goes on with the first handle. -/
theorem SetUp.goOn {v : Worker} {call : Call} (h : SetUp w) (hallowed : Allowed w.calls call)
    (hquiet : call.engages = false) (hone : obtained [call] w.handle = 0)
    (hkept : call ≠ .unInit w.handle) (hcalls : v.calls = w.calls ++ [call])
    (hmaps : v.maps = w.maps) (hhandle : v.handle = w.handle) (hslots : v.mapHandles = w.mapHandles)
    (hnext : (v.pc = .serverStatus ∨ v.pc = .deviceStatus ∨ v.pc = .deviceInfo ∨
        v.pc = .connect 0 1) ∧ Live w.calls w.handle ∨ ∃ left, v.pc = .disconnect left) :
    SetUp v where
  maps := hmaps ▸ h.maps
  handle := hhandle ▸ h.handle
  slots := hslots ▸ h.slots
  disciplined := hcalls ▸ disciplined_concat.mpr ⟨h.disciplined, hallowed⟩
  quiet call' hcall' := by
    rw [hcalls, List.mem_append, List.mem_singleton] at hcall'
    rcases hcall' with hold | rfl
    · exact h.quiet call' hold
    · exact hquiet
  once := by rw [hcalls, hhandle, obtained_concat, h.once, hone]
  kept := by rw [hcalls, hhandle, List.count_append, h.kept, List.count_singleton, if_neg (by simpa)]
  next := by
    rcases hnext with ⟨hpc, hlive⟩ | hpc
    · exact .inl ⟨hpc, by rw [hcalls, hhandle]; exact hlive.concat hkept⟩
    · exact .inr (.inl hpc)

theorem SetUp.same {v : Worker} (h : SetUp w) (hmaps : v.maps = w.maps)
    (hhandle : v.handle = w.handle) (hslots : v.mapHandles = w.mapHandles)
    (hcalls : v.calls = w.calls)
    (hpc : (∃ left, v.pc = .disconnect left) ∨ (∃ left, v.pc = .unInit left) ∨ v.pc = .freeLibrary) :
    SetUp v where
  maps := hmaps ▸ h.maps
  handle := hhandle ▸ h.handle
  slots := hslots ▸ h.slots
  disciplined := hcalls ▸ h.disciplined
  quiet := hcalls ▸ h.quiet
  once := by rw [hcalls, hhandle, h.once]
  kept := by rw [hcalls, hhandle, h.kept]
  next := .inr hpc

/-- The first handle is used as it should be, until the worker turns to its first map or
frees the library. -/
theorem SetUp.step (h : SetUp w) (hstop : event ≠ .stop) (hstep : w.step event = some w') :
    SetUp w' ∨ Broken w' := by
  rcases h.next with ⟨hpc | hpc | hpc | hpc, hlive⟩ | ⟨left, hpc⟩ | ⟨left, hpc⟩ | hpc
  · cases event with
    | stop => exact absurd rfl hstop
    | status rc =>
      simp only [Worker.step, hpc] at hstep
      cases hstep
      exact .inl (h.goOn (allowed_of_quiet rfl (fun _ h => by cases h) fun h => by cases h) rfl rfl
        (fun h => by cases h) rfl rfl rfl rfl (.inl ⟨.inr (.inl rfl), hlive⟩))
    | _ =>
      simp only [Worker.step, hpc] at hstep
      cases hstep
  · cases event with
    | stop => exact absurd rfl hstop
    | status rc =>
      simp only [Worker.step, hpc] at hstep
      cases hstep
      have hallowed : Allowed w.calls (.deviceStatus w.handle) :=
        ⟨fun handle heq => Option.some.inj heq ▸ hlive, (fun _ h => by cases h), fun h => by cases h⟩
      split
      · exact .inl (h.goOn hallowed rfl rfl (fun h => by cases h) rfl rfl rfl rfl (.inr ⟨_, rfl⟩))
      · exact .inl (h.goOn hallowed rfl rfl (fun h => by cases h) rfl rfl rfl rfl
          (.inl ⟨.inr (.inr (.inl rfl)), hlive⟩))
    | _ =>
      simp only [Worker.step, hpc] at hstep
      cases hstep
  · cases event with
    | stop => exact absurd rfl hstop
    | status rc =>
      simp only [Worker.step, hpc] at hstep
      cases hstep
      rw [Worker.enterMap_zero (by exact h.maps)]
      exact .inl (h.goOn (allowed_of_quiet rfl (fun _ h => by cases h) fun h => by cases h) rfl rfl
        (fun h => by cases h) rfl rfl rfl rfl (.inl ⟨.inr (.inr (.inr rfl)), hlive⟩))
    | _ =>
      simp only [Worker.step, hpc] at hstep
      cases hstep
  · cases event with
    | stop => exact absurd rfl hstop
    | connect rc localPort =>
      have hextends := Worker.extends_step (by rw [hpc]; rfl) hstep
      obtain ⟨more, hmore⟩ := Worker.connect_recorded hpc hstep
      refine .inr ⟨hextends.handle ▸ h.handle, hextends.late, fun hdisciplined => ?_,
        .connect 0 (w.mapHandles 0) rc, ?_, rfl⟩
      · -- the first map has no handle
        rw [← hmore] at hdisciplined
        have hallowed := (disciplined_concat.mp hdisciplined.of_append).2
        exact (hallowed.live _ rfl).1 (h.slots 0)
      · rw [← hmore]
        exact List.mem_append_left _ (List.mem_append_right _ (List.mem_singleton_self _))
    | _ =>
      simp only [Worker.step, hpc] at hstep
      cases hstep
  · cases event with
    | stop => exact absurd rfl hstop
    | proceed =>
      cases left with
      | zero =>
        simp only [Worker.step, hpc] at hstep
        cases hstep
        exact .inl (h.same rfl rfl rfl rfl (.inr (.inl ⟨_, rfl⟩)))
      | succ i =>
        simp only [Worker.step, hpc] at hstep
        cases hstep
        rw [if_neg fun hboth => hboth.2 (h.slots i)]
        exact .inl (h.same rfl rfl rfl rfl (.inl ⟨_, rfl⟩))
    | _ =>
      simp only [Worker.step, hpc] at hstep
      cases hstep
  · cases event with
    | stop => exact absurd rfl hstop
    | proceed =>
      cases left with
      | zero =>
        simp only [Worker.step, hpc] at hstep
        cases hstep
        exact .inl (h.same rfl rfl rfl rfl (.inr (.inr rfl)))
      | succ i =>
        simp only [Worker.step, hpc] at hstep
        cases hstep
        rw [if_neg fun hne => hne (h.slots i)]
        exact .inl (h.same rfl rfl rfl rfl (.inr (.inl ⟨_, rfl⟩)))
    | _ =>
      simp only [Worker.step, hpc] at hstep
      cases hstep
  · cases event with
    | stop => exact absurd rfl hstop
    | proceed =>
      simp only [Worker.step, hpc] at hstep
      cases hstep
      -- nobody has given the first handle back
      refine .inr ⟨h.handle, rfl, fun hdisciplined => ?_, .freeLibrary,
        List.mem_append_right _ (List.mem_singleton_self _), rfl⟩
      have hreleased := (disciplined_concat.mp hdisciplined).2.released rfl w.handle h.handle
      rw [h.kept, h.once] at hreleased
      cases hreleased
    | _ =>
      simp only [Worker.step, hpc] at hstep
      cases hstep

theorem Stage.step (h : Stage w) (hstep : w.step event = some w') : Stage w' := by
  by_cases hstop : event = .stop
  · subst hstop
    simp only [Worker.step] at hstep
    split at hstep
    · cases hstep
    · cases hstep
      exact h.stop
  · rcases h with h | h | h | h
    · exact h.step hstop hstep
    · exact .inr (.inl (h.step hstop hstep))
    · rcases h.step hstop hstep with h' | h'
      · exact .inr (.inr (.inl h'))
      · exact .inr (.inr (.inr h'))
    · exact .inr (.inr (.inr (h.step hstep)))

theorem stage_start (args : List String) (user password : Option String) :
    Stage (.start args user password) := by
  simp only [Worker.start]
  split
  · exact .inr (.inl ⟨rfl, disciplined_nil, .inr ⟨2, rfl⟩⟩)
  · next hok =>
    exact .inl ⟨fun hmaps => hok (.inr (.inr (.inr hmaps))), rfl, rfl, fun _ => rfl, rfl⟩

theorem Stage.disciplined_iff (h : Stage w) :
    Disciplined w.calls ↔ w.handle = none ∨ ∀ call ∈ w.calls, call.engages = false := by
  rcases h with h | h | h | h
  · exact iff_of_true (h.calls ▸ disciplined_nil) (.inl h.handle)
  · exact iff_of_true h.disciplined (.inl h.handle)
  · exact iff_of_true h.disciplined (.inr h.quiet)
  · refine iff_of_false h.undisciplined fun hor => ?_
    rcases hor with hnone | hquiet
    · exact h.handle hnone
    · obtain ⟨call, hcall, hengages⟩ := h.engaged
      exact absurd (hengages.symm.trans (hquiet call hcall)) (by decide)

/-- A worker that has ended without its discipline broken had no handle. -/
theorem Stage.handle_of_exited {code : Int} (h : Stage w) (hpc : w.pc = .exited code)
    (hdisciplined : Disciplined w.calls) : w.handle = none := by
  rcases h with h | h | h | h
  · exact h.handle
  · exact h.handle
  · rcases h.next with ⟨hnext | hnext | hnext | hnext, _⟩ | ⟨_, hnext⟩ | ⟨_, hnext⟩ | hnext <;>
      cases hpc.symm.trans hnext
  · exact absurd hdisciplined h.undisciplined

end Stages

/-- Whatever the arguments, the DLL and the signals: the calls of the worker are disciplined
exactly until it makes its first `P2P_Connect` or frees the library, unless the first
`P2P_Init` has left no handle. A worker that has ended was disciplined exactly in that case. -/
theorem handles_disciplined_iff (args : List String) (user password : Option String)
    {events : List Event} {w : Worker}
    (hrun : Run.run Worker.step events (.start args user password) = some w) :
    (Disciplined w.calls ↔ w.handle = none ∨ ∀ call ∈ w.calls, call.engages = false) ∧
    ((∃ code, w.pc = .exited code) → (Disciplined w.calls ↔ w.handle = none)) := by
  have hstage : Stage w :=
    Run.run_invariant (stage_start args user password) (fun _ _ _ h hstep => h.step hstep) hrun
  refine ⟨hstage.disciplined_iff, fun ⟨code, hpc⟩ => ⟨hstage.handle_of_exited hpc, fun hnone => ?_⟩⟩
  exact hstage.disciplined_iff.mpr (.inl hnone)

/-- The arguments for one map. -/
def oneMap : List String := ["--serial", "S", "--map", "554:1554"]

/-- Without a first handle the worker ends at once. -/
theorem handles_disciplined_iff_noHandle : ∃ w, Run.run Worker.step
      [.loaded true, .loaded true, .init 7 none, .proceed] (.start oneMap (some "u") (some "p")) =
        some w ∧
    Disciplined w.calls :=
  ⟨_, rfl, ((@handles_disciplined_iff oneMap (some "u") (some "p")
    [.loaded true, .loaded true, .init 7 none, .proceed] _ rfl).2 ⟨5, rfl⟩).mpr rfl⟩

/-- With one, the first `P2P_Connect` gets no handle. -/
theorem firstMap_undisciplined : ¬ ∀ (args : List String) (user password : Option String)
    (events : List Event) (w : Worker),
    Run.run Worker.step events (.start args user password) = some w → Disciplined w.calls := by
  intro h
  have hcalls := h oneMap (some "u") (some "p") [.loaded true, .loaded true, .init 0 (some 1),
    .status 0, .status 0, .status 0, .connect 0 1554] _ rfl
  have hallowed := hcalls [.init 0 (some 1), .queryServerStatus (some 1), .deviceStatus (some 1),
    .getDeviceInfo (some 1)] (.connect 0 none 0) [.marked 0] (by decide)
  exact (hallowed.live none rfl).1 rfl

end DahuaBridge.VendorWorker
