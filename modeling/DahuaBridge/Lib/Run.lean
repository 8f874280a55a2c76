import Mathlib.Data.List.Induction

/-!
# Runs of an executable transition system

A transition system is a function `step : σ → ε → Option σ`, where `none` says
that the event cannot happen in that state. A run is a list of events.

* `run_append`, `run_concat`: runs compose.
* `run_induction`: an invariant that may speak of the events so far.
* `run_invariant`: an invariant of the state alone.
* `run_length_le`: a rank that falls with every step bounds the length of a run.
* `run_invariant_along`: an invariant of the state that needs a condition on each step.
* `along_concat`: a condition on each step of a run, from its last step.
* `along_congr`: two conditions on each step that are the same where an invariant holds.
* `reached_iff_along`: a property of every state reached, as a condition on each step.
* `run_map`: what is recorded beside the state does not change the run.
-/

namespace Run

variable {σ ε : Type*} {step : σ → ε → Option σ} {s s' : σ} {events events' : List ε}

/-- The state after a list of events, if each of them can happen in its turn. -/
def run (step : σ → ε → Option σ) : List ε → σ → Option σ
  | [], s => some s
  | event :: events, s => (step s event).bind (run step events)

theorem run_append : run step (events ++ events') s = (run step events s).bind (run step events') := by
  induction events generalizing s with
  | nil => rfl
  | cons event events ih =>
    simp only [List.cons_append, run]
    cases step s event with
    | none => rfl
    | some s => exact ih

theorem run_concat {event : ε} : run step (events ++ [event]) s = some s' ↔
    ∃ t, run step events s = some t ∧ step t event = some s' := by
  rw [run_append, Option.bind_eq_some_iff]
  refine exists_congr fun t => and_congr_right fun _ => ?_
  rw [run, Option.bind_eq_some_iff]
  constructor
  · rintro ⟨u, hu, hlast⟩
    obtain rfl : u = s' := Option.some.inj hlast
    exact hu
  · intro h
    exact ⟨s', h, rfl⟩

/-- An invariant of the state and of the events that led to it. -/
theorem run_induction {I : List ε → σ → Prop} (hinit : I [] s)
    (hstep : ∀ past event t t', run step past s = some t → I past t → step t event = some t' →
      I (past ++ [event]) t')
    (h : run step events s = some s') : I events s' := by
  induction events using List.reverseRecOn generalizing s' with
  | nil =>
    obtain rfl : s = s' := Option.some.inj h
    exact hinit
  | append_singleton events event ih =>
    obtain ⟨t, ht, hlast⟩ := run_concat.mp h
    exact hstep events event t s' ht (ih ht) hlast

/-- An invariant of the state. -/
theorem run_invariant {I : σ → Prop} (hinit : I s)
    (hstep : ∀ event t t', I t → step t event = some t' → I t') (h : run step events s = some s') :
    I s' :=
  run_induction (I := fun _ => I) hinit (fun _ event t t' _ => hstep event t t') h

/-- A rank that falls with every step bounds the length of a run. -/
theorem run_length_le {I : σ → Prop} {rank : σ → Nat} (hinit : I s)
    (hstep : ∀ event t t', I t → step t event = some t' → I t' ∧ rank t' < rank t)
    (h : run step events s = some s') : rank s' + events.length ≤ rank s := by
  induction events generalizing s with
  | nil =>
    obtain rfl : s = s' := Option.some.inj h
    exact Nat.le_refl _
  | cons event events ih =>
    obtain ⟨t, ht, hrest⟩ := Option.bind_eq_some_iff.mp h
    obtain ⟨hkept, hfalls⟩ := hstep event s t hinit ht
    calc rank s' + (events.length + 1) = rank s' + events.length + 1 := rfl
      _ ≤ rank t + 1 := Nat.succ_le_succ (ih hkept hrest)
      _ ≤ rank s := hfalls

/-- Every step of the run meets a condition on the state before it and the event. -/
def Along (step : σ → ε → Option σ) (P : σ → ε → Prop) : List ε → σ → Prop
  | [], _ => True
  | event :: events, s => P s event ∧ ∀ t, step s event = some t → Along step P events t

instance decidableAlong {P : σ → ε → Prop} [∀ s event, Decidable (P s event)] :
    ∀ (events : List ε) (s : σ), Decidable (Along step P events s)
  | [], _ => isTrue trivial
  | event :: events, s =>
    match h : step s event with
    | none => decidable_of_iff (P s event)
        ⟨fun hp => ⟨hp, fun t ht => by rw [h] at ht; cases ht⟩, And.left⟩
    | some t =>
      have := decidableAlong (P := P) events t
      decidable_of_iff (P s event ∧ Along step P events t)
        ⟨fun hp => ⟨hp.1, fun t' ht' => by rw [h] at ht'; exact Option.some.inj ht' ▸ hp.2⟩,
          fun hp => ⟨hp.1, hp.2 t h⟩⟩

theorem along_of_forall {Q : ε → Prop} (h : ∀ event ∈ events, Q event) :
    Along step (fun _ => Q) events s := by
  induction events generalizing s with
  | nil => trivial
  | cons event events ih =>
    rw [List.forall_mem_cons] at h
    exact ⟨h.1, fun _ _ => ih h.2⟩

theorem Along.and {P Q : σ → ε → Prop} (hp : Along step P events s) (hq : Along step Q events s) :
    Along step (fun t event => P t event ∧ Q t event) events s := by
  induction events generalizing s with
  | nil => trivial
  | cons event events ih => exact ⟨⟨hp.1, hq.1⟩, fun t ht => ih (hp.2 t ht) (hq.2 t ht)⟩

/-- An invariant of the state, in runs whose steps all meet a condition. -/
theorem run_invariant_along {I : σ → Prop} {P : σ → ε → Prop} (hinit : I s)
    (hstep : ∀ event t t', P t event → I t → step t event = some t' → I t')
    (halong : Along step P events s) (h : run step events s = some s') : I s' := by
  induction events generalizing s with
  | nil =>
    obtain rfl : s = s' := Option.some.inj h
    exact hinit
  | cons event events ih =>
    obtain ⟨t, ht, hrest⟩ := Option.bind_eq_some_iff.mp h
    exact ih (hstep event s t halong.1 hinit ht) (halong.2 t ht) hrest

/-- Two conditions that an invariant makes equivalent, step by step, are so along a run. -/
theorem along_congr {I : σ → Prop} {P C D : σ → ε → Prop} (hinit : I s)
    (hstep : ∀ event t, P t event → I t →
      (C t event ↔ D t event) ∧ ∀ t', step t event = some t' → I t')
    (halong : Along step P events s) : Along step C events s ↔ Along step D events s := by
  induction events generalizing s with
  | nil => exact Iff.rfl
  | cons event events ih =>
    obtain ⟨hiff, hnext⟩ := hstep event s halong.1 hinit
    refine and_congr hiff (forall_congr' fun t => forall_congr' fun ht => ?_)
    exact ih (hnext t ht) (halong.2 t ht)

/-- If, step by step, a property is kept exactly when the step meets `C`, then every state
reached in a run has the property exactly when all steps of the run meet `C`. -/
theorem reached_iff_along {I G : σ → Prop} {P C : σ → ε → Prop}
    (hstep : ∀ event t t', P t event → I t → G t → step t event = some t' →
      I t' ∧ (G t' ↔ C t event))
    (hinit : I s) (hgood : G s) (halong : Along step P events s)
    (hrun : run step events s = some s') :
    (∀ past t, past <+: events → run step past s = some t → G t) ↔ Along step C events s := by
  induction events generalizing s with
  | nil =>
    refine iff_of_true (fun past t hpast ht => ?_) trivial
    obtain rfl := List.prefix_nil.mp hpast
    exact Option.some.inj ht ▸ hgood
  | cons event events ih =>
    obtain ⟨t, ht, hrest⟩ := Option.bind_eq_some_iff.mp hrun
    obtain ⟨hnext, hiff⟩ := hstep event s t halong.1 hinit hgood ht
    constructor
    · intro hreached
      have hone : run step [event] s = some t := by rw [run, ht]; rfl
      have hgood' := hreached [event] t (List.cons_prefix_cons.mpr ⟨rfl, List.nil_prefix⟩) hone
      refine ⟨hiff.mp hgood', fun u hu => ?_⟩
      obtain rfl : t = u := Option.some.inj (ht.symm.trans hu)
      refine (ih hnext hgood' (halong.2 t ht) hrest).mp fun past u hpast hu => ?_
      refine hreached (event :: past) u (List.cons_prefix_cons.mpr ⟨rfl, hpast⟩) ?_
      rw [run, ht]
      exact hu
    · intro hmeets past u hpast hu
      cases past with
      | nil => exact Option.some.inj hu ▸ hgood
      | cons event' past =>
        obtain ⟨rfl, htail⟩ := List.cons_prefix_cons.mp hpast
        rw [run, ht] at hu
        have hgood' := hiff.mpr hmeets.1
        exact (ih hnext hgood' (halong.2 t ht) hrest).mpr (hmeets.2 t ht) past u htail hu

/-- A system with more state, seen through a projection, runs as the projected one. -/
theorem run_map {τ : Type*} {step' : τ → ε → Option τ} {f : σ → τ}
    (hstep : ∀ s event, (step s event).map f = step' (f s) event) :
    (run step events s).map f = run step' events (f s) := by
  induction events generalizing s with
  | nil => rfl
  | cons event events ih =>
    rw [run, run, ← hstep]
    cases step s event with
    | none => rfl
    | some t => exact ih

end Run
