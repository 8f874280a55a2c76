import DahuaBridge.Vendor.Worker

/-!
# The wait for a channel

The loop of `main` that asks for the status of a channel until it is ready. The deadline is
a sum of 32 bits, and it is compared with a counter of 32 bits that goes on beyond it.

* `Waits`: the loop ends for a status or a stop, or when the time is really over.
* `waits_iff`: that is so unless the sum wraps.
-/

namespace DahuaBridge.VendorWorker

/-! ## Waiting -/

/-- The loop is not over. -/
def Pc.waiting : Pc → Bool
  | .channelCheck _ _ _ => true
  | .channelTick _ _ _ => true
  | .channelQuery _ _ => true
  | _ => false

/-- The worker, and the milliseconds since it read the counter for its deadline. -/
structure Waited where
  worker : Worker
  elapsed : Nat

/-- `GetTickCount` returns what it returned for the deadline and the time since, modulo `2 ^ 32`. -/
def showsTime (entry : BitVec 32) (elapsed : Nat) : Event → Bool
  | .tick now => now = entry + BitVec.ofNat 32 elapsed
  | _ => true

/-- A step of the loop. The event says how many milliseconds pass before it. -/
def waitStep (entry : BitVec 32) (s : Waited) (event : Nat × Event) : Option Waited :=
  if s.worker.pc.waiting && showsTime entry (s.elapsed + event.1) event.2 then
    (s.worker.step event.2).map fun worker => ⟨worker, s.elapsed + event.1⟩
  else none

/-- Why the loop may end: a status that is not 11, a stop, or that 90000 ms are over. -/
def MayEnd (stopRequested : Bool) (event : Event) (elapsed : Nat) : Prop :=
  (∃ rc, event = .status rc ∧ rc ≠ 11) ∨ stopRequested = true ∨ 90000 ≤ elapsed

/-- The wait that starts with this value of the counter ends for these reasons only. -/
def Waits (w : Worker) (entry : BitVec 32) : Prop :=
  ∀ start, w.step (.tick entry) = some start → ∀ past event s s',
    Run.run (waitStep entry) past ⟨start, 0⟩ = some s → waitStep entry s event = some s' →
    s'.worker.pc.waiting = false → MayEnd s.worker.stopRequested event.2 s'.elapsed

/-! ## The steps of the loop -/

/-- Where the worker is while it waits for the channel of its `i`-th map. -/
inductive InLoop (i : Nat) (deadline : BitVec 32) : Pc → Prop
  | check : InLoop i deadline (.channelCheck i deadline 11)
  | tick : InLoop i deadline (.channelTick i deadline 11)
  | query : InLoop i deadline (.channelQuery i deadline)

section Steps

variable {entry deadline : BitVec 32} {s s' : Waited} {event : Nat × Event} {i : Nat}

theorem waitStep_eq_some : waitStep entry s event = some s' ↔ s.worker.pc.waiting = true ∧
    showsTime entry (s.elapsed + event.1) event.2 = true ∧ s'.elapsed = s.elapsed + event.1 ∧
    s.worker.step event.2 = some s'.worker := by
  rw [waitStep]
  split
  · next h =>
    rw [Bool.and_eq_true] at h
    rw [Option.map_eq_some_iff]
    constructor
    · rintro ⟨worker, hstep, rfl⟩
      exact ⟨h.1, h.2, rfl, hstep⟩
    · rintro ⟨-, -, helapsed, hstep⟩
      exact ⟨s'.worker, hstep, by rw [← helapsed]⟩
  · next h =>
    rw [Bool.and_eq_true] at h
    exact iff_of_false (fun hnone => by cases hnone) fun hsome => h ⟨hsome.1, hsome.2.1⟩

theorem showsTime_tick {now : BitVec 32} {elapsed : Nat} :
    showsTime entry elapsed (.tick now) = true ↔ now = entry + BitVec.ofNat 32 elapsed :=
  decide_eq_true_iff

theorem step_stop {w w' : Worker} (h : w.step .stop = some w') :
    w'.pc = w.pc ∧ w'.stopRequested = true := by
  simp only [Worker.step] at h
  split at h
  · cases h
  · cases h
    exact ⟨rfl, rfl⟩

theorem waiting_enterMap (w : Worker) (i : Nat) : (w.enterMap i).pc.waiting = false := by
  unfold Worker.enterMap
  split
  · split <;> rfl
  · rfl

theorem waiting_afterWait (w : Worker) (i : Nat) (st : Int) :
    (w.afterWait i st).pc.waiting = false := by
  unfold Worker.afterWait
  split
  · rfl
  · exact waiting_enterMap w (i + 1)

/-- A step stays in the loop, or it is the end of it: after a status, for a stop, or because
the counter has come to the deadline. -/
theorem InLoop.step {w w' : Worker} {event : Event} (h : InLoop i deadline w.pc)
    (hstep : w.step event = some w') : InLoop i deadline w'.pc ∨ w'.pc.waiting = false ∧
      ((∃ rc, event = .status rc ∧ rc ≠ 11) ∨ w.stopRequested = true ∨
        ∃ now, event = .tick now ∧ ¬now < deadline) := by
  by_cases hstop : event = .stop
  · subst hstop
    exact .inl ((step_stop hstep).1 ▸ h)
  obtain ⟨pc, hpc⟩ : ∃ pc, w.pc = pc := ⟨_, rfl⟩
  rw [hpc] at h
  cases h with
  | check =>
    cases event with
    | stop => exact absurd rfl hstop
    | proceed =>
      simp only [Worker.step, hpc] at hstep
      cases hstep
      split
      · next hrequested => exact .inr ⟨waiting_afterWait _ _ _, .inr (.inl hrequested)⟩
      · exact .inl .tick
    | _ =>
      simp only [Worker.step, hpc] at hstep
      cases hstep
  | tick =>
    cases event with
    | stop => exact absurd rfl hstop
    | tick now =>
      simp only [Worker.step, hpc] at hstep
      cases hstep
      split
      · exact .inl .query
      · next hlate => exact .inr ⟨waiting_afterWait _ _ _, .inr (.inr ⟨now, rfl, hlate⟩)⟩
    | _ =>
      simp only [Worker.step, hpc] at hstep
      cases hstep
  | query =>
    cases event with
    | stop => exact absurd rfl hstop
    | status rc =>
      simp only [Worker.step, hpc] at hstep
      cases hstep
      split
      · next hready =>
        exact .inr ⟨waiting_afterWait _ _ _, .inl ⟨rc, rfl, by omega⟩⟩
      · split
        · next hinvalid => exact .inr ⟨rfl, .inl ⟨rc, rfl, hinvalid⟩⟩
        · next hpending =>
          obtain rfl := Decidable.not_not.mp hpending
          exact .inl .check
    | _ =>
      simp only [Worker.step, hpc] at hstep
      cases hstep

theorem InLoop.waiting {pc : Pc} (h : InLoop i deadline pc) : pc.waiting = true := by
  cases h <;> rfl

theorem start_of_deadline {w start : Worker} (hpc : w.pc = .channelDeadline i)
    (hstart : w.step (.tick entry) = some start) :
    start = w.goto (.channelCheck i (entry + 90000) 11) := by
  simp only [Worker.step, hpc, Option.some.injEq] at hstart
  exact hstart.symm

theorem toNat_deadline (entry : BitVec 32) :
    (entry + 90000).toNat = (entry.toNat + 90000) % 2 ^ 32 := rfl

/-- Below `2 ^ 32` the counter is at the deadline only when the time is over. -/
theorem elapsed_of_deadline {elapsed : Nat} (hfits : entry.toNat + 90000 < 2 ^ 32)
    (h : ¬entry + BitVec.ofNat 32 elapsed < entry + 90000) : 90000 ≤ elapsed := by
  have hdeadline : (entry + 90000).toNat = entry.toNat + 90000 :=
    (toNat_deadline entry).trans (Nat.mod_eq_of_lt hfits)
  by_contra hearly
  have hnow : (entry + BitVec.ofNat 32 elapsed).toNat = entry.toNat + elapsed := by
    rw [BitVec.toNat_add, BitVec.toNat_ofNat, Nat.mod_eq_of_lt (a := elapsed) (by omega),
      Nat.mod_eq_of_lt (by omega)]
  rw [BitVec.lt_def, hdeadline, hnow] at h
  exact h (Nat.add_lt_add_left (Nat.lt_of_not_le hearly) _)

end Steps

/-! ## When the loop waits -/

section Waits

variable {w : Worker} {entry deadline : BitVec 32} {i : Nat}

/-- Until the loop ends, the worker is in it. -/
theorem inLoop_of_run {start : Worker} {past : List (Nat × Event)} {s : Waited}
    (hstart : InLoop i deadline start.pc) (hrun : Run.run (waitStep entry) past ⟨start, 0⟩ = some s) :
    InLoop i deadline s.worker.pc ∨ s.worker.pc.waiting = false := by
  refine Run.run_invariant (I := fun s => InLoop i deadline s.worker.pc ∨ s.worker.pc.waiting = false)
    (.inl hstart) (fun event t t' ht hstep => ?_) hrun
  obtain ⟨hwaiting, -, -, hworker⟩ := waitStep_eq_some.mp hstep
  rcases ht with hloop | hover
  · exact (hloop.step hworker).imp_right And.left
  · exact absurd hwaiting (Bool.eq_false_iff.mp hover)

/-- A wait whose deadline does not wrap ends for a status or a stop, or when the time is
over. -/
theorem waits_of_fits (hpc : w.pc = .channelDeadline i) (hfits : entry.toNat + 90000 < 2 ^ 32) :
    Waits w entry := by
  intro start hstart past event s s' hrun hstep hend
  rw [start_of_deadline hpc hstart] at hrun
  obtain ⟨hwaiting, hshows, helapsed, hworker⟩ := waitStep_eq_some.mp hstep
  have hstarts : InLoop i (entry + 90000) (.channelCheck i (entry + 90000) 11) := .check
  rcases inLoop_of_run hstarts hrun with hloop | hover
  · rcases hloop.step hworker with hloop' | ⟨-, hstatus | hstop | ⟨now, hevent, hlate⟩⟩
    · exact absurd hloop'.waiting (Bool.eq_false_iff.mp hend)
    · exact .inl hstatus
    · exact .inr (.inl hstop)
    · rw [hevent, showsTime_tick] at hshows
      rw [hshows, ← helapsed] at hlate
      exact .inr (.inr (elapsed_of_deadline hfits hlate))
  · exact absurd hwaiting (Bool.eq_false_iff.mp hover)

/-- With a stop requested the worker is in the loop only to check for it. -/
theorem stopping_of_run {start : Worker} {past : List (Nat × Event)} {s : Waited}
    (hpc : start.pc = .channelCheck i deadline 11) (hstop : start.stopRequested = true)
    (hrun : Run.run (waitStep entry) past ⟨start, 0⟩ = some s) :
    s.worker.stopRequested = true ∧ s.worker.pc = .channelCheck i deadline 11 ∨
      s.worker.pc.waiting = false := by
  refine Run.run_invariant (I := fun s => s.worker.stopRequested = true ∧
    s.worker.pc = .channelCheck i deadline 11 ∨ s.worker.pc.waiting = false)
    (.inl ⟨hstop, hpc⟩) (fun event t t' ht hstep => ?_) hrun
  obtain ⟨hwaiting, -, -, hworker⟩ := waitStep_eq_some.mp hstep
  rcases ht with ⟨hrequested, hcheck⟩ | hover
  · obtain ⟨passed, event⟩ := event
    cases event with
    | stop =>
      obtain ⟨hkept, hstill⟩ := step_stop hworker
      exact .inl ⟨hstill, hkept.trans hcheck⟩
    | proceed =>
      simp only [Worker.step, hcheck, hrequested, if_true, Option.some.injEq] at hworker
      exact .inr (hworker ▸ waiting_afterWait _ _ _)
    | _ =>
      simp only [Worker.step, hcheck] at hworker
      cases hworker
  · exact absurd hwaiting (Bool.eq_false_iff.mp hover)

/-- After a stop the loop ends for the stop. -/
theorem waits_of_stop (hpc : w.pc = .channelDeadline i) (hstop : w.stopRequested = true) :
    Waits w entry := by
  intro start hstart past event s s' hrun hstep hend
  rw [start_of_deadline hpc hstart] at hrun
  have hrequested : (w.goto (.channelCheck i (entry + 90000) 11)).stopRequested = true := hstop
  rcases stopping_of_run rfl hrequested hrun with ⟨hrequested, -⟩ | hover
  · exact .inr (.inl hrequested)
  · exact absurd (waitStep_eq_some.mp hstep).1 (Bool.eq_false_iff.mp hover)

/-- A wait whose deadline wraps is over at once. -/
theorem not_waits_of_wraps (hpc : w.pc = .channelDeadline i) (hgoes : w.stopRequested = false)
    (hwraps : 2 ^ 32 ≤ entry.toNat + 90000) : ¬Waits w entry := by
  intro hwaits
  have hstart : w.step (.tick entry) = some (w.goto (.channelCheck i (entry + 90000) 11)) := by
    simp only [Worker.step, hpc]
  have hcheck : Run.run (waitStep entry) [(0, .proceed)]
      ⟨w.goto (.channelCheck i (entry + 90000) 11), 0⟩ =
        some ⟨w.goto (.channelTick i (entry + 90000) 11), 0⟩ := by
    simp [Run.run, waitStep, Worker.step, Worker.goto, Pc.waiting, showsTime, hgoes]
  have hlate : ¬entry < entry + 90000 := by
    have hdeadline : (entry + 90000).toNat = entry.toNat + 90000 - 2 ^ 32 := by
      have hlt := entry.isLt
      rw [toNat_deadline, Nat.mod_eq_sub_mod hwraps]
      exact Nat.mod_eq_of_lt (by omega)
    rw [BitVec.lt_def, hdeadline]
    omega
  have hover : waitStep entry ⟨w.goto (.channelTick i (entry + 90000) 11), 0⟩ (0, .tick entry) =
      some ⟨(w.goto (.channelTick i (entry + 90000) 11)).cleanupError, 0⟩ := by
    refine waitStep_eq_some.mpr ⟨rfl, showsTime_tick.mpr (BitVec.add_zero entry).symm, rfl, ?_⟩
    simp only [Worker.step, Worker.goto, if_neg hlate]
    rfl
  rcases hwaits _ hstart _ _ _ _ hcheck hover rfl with ⟨rc, hstatus, -⟩ | hstop | htime
  · cases hstatus
  · rw [Worker.goto, hgoes] at hstop
    cases hstop
  · exact absurd htime (Nat.not_succ_le_zero _)

end Waits

/-- The wait for a channel ends for a status other than 11, for a stop or when 90000 ms are
over, whatever the events, exactly if the deadline does not wrap or a stop has been requested
before. -/
theorem waits_iff {w : Worker} {i : Nat} (hpc : w.pc = .channelDeadline i) (entry : BitVec 32) :
    Waits w entry ↔ entry.toNat + 90000 < 2 ^ 32 ∨ w.stopRequested = true := by
  constructor
  · intro hwaits
    by_contra hnot
    rw [not_or, Nat.not_lt, Bool.not_eq_true] at hnot
    exact not_waits_of_wraps hpc hnot.2 hnot.1 hwaits
  · rintro (hfits | hstop)
    · exact waits_of_fits hpc hfits
    · exact waits_of_stop hpc hstop

/-- The worker whose first channel is connected. -/
def connected : Worker :=
  { pc := .channelDeadline 0, maps := [⟨554, 1554, true⟩], handle := some 1 }

theorem waits_iff_early : Waits connected 1000 :=
  (waits_iff (w := connected) (i := 0) rfl 1000).mpr (.inl (by decide))

/-- In the last 90 seconds before the counter wraps, a worker that has just connected its
channel does not wait for it. -/
theorem connected_not_waits : ¬ ∀ (args : List String) (user password : Option String)
    (events : List Event) (w : Worker) (i : Nat) (entry : BitVec 32),
    Run.run Worker.step events (.start args user password) = some w →
    w.pc = .channelDeadline i → Waits w entry := by
  intro h
  refine not_waits_of_wraps rfl rfl (by decide) (h ["--serial", "S", "--map", "554:1554"]
    (some "u") (some "p") [.loaded true, .loaded true, .init 0 (some 1), .status 0, .status 0,
      .status 0, .connect 0 1554] _ 0 0xFFFFFF00 rfl rfl)

end DahuaBridge.VendorWorker
