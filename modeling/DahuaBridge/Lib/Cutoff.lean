import Mathlib.Data.List.DropRight
import Mathlib.Data.List.Infix

/-!
# Lists with a cutoff

A test has a cutoff in a list if every element after one that passes it passes too. What
passes is then a suffix of the list: dropping from the front, filtering, and keeping only
the last `n` elements go together.

`rtake n` keeps the last `n` elements.
-/

namespace Cutoff

variable {α β : Type*} {l front : List α} {n : Nat} {test : α → Bool}

/-! ## The last elements -/

theorem rtake_map (f : α → β) (l : List α) (n : Nat) : (l.map f).rtake n = (l.rtake n).map f := by
  rw [List.rtake, List.rtake, List.length_map, List.map_drop]

theorem rtake_suffix (l : List α) (n : Nat) : l.rtake n <:+ l := List.drop_suffix _ l

theorem length_rtake_le (l : List α) (n : Nat) : (l.rtake n).length ≤ n := by
  rw [List.rtake, List.length_drop]
  omega

theorem rtake_of_length_le (h : l.length ≤ n) : l.rtake n = l := by
  rw [List.rtake, Nat.sub_eq_zero_of_le h, List.drop_zero]

/-- One more element at the end takes the place of the first of the last `n`. -/
theorem rtake_concat (hpos : 0 < n) (x : α) :
    (l ++ [x]).rtake n =
      (if n ≤ (l.rtake n).length then (l.rtake n).drop 1 else l.rtake n) ++ [x] := by
  obtain ⟨n, rfl⟩ := Nat.exists_eq_succ_of_ne_zero (Nat.ne_of_gt hpos)
  rw [List.rtake_concat_succ]
  congr 1
  split
  · next hfull =>
    rw [List.rtake, List.length_drop] at hfull
    rw [List.rtake, List.rtake, List.drop_drop]
    congr 1
    omega
  · next hroom =>
    rw [List.rtake, List.length_drop] at hroom
    rw [rtake_of_length_le (show l.length ≤ n by omega),
      rtake_of_length_le (show l.length ≤ n + 1 by omega)]

/-- The last `n` elements, replaced by as many, are the last `n` elements. -/
theorem rtake_append_of_length {last last' : List α} (h : (front ++ last).rtake n = last)
    (hlen : last'.length = last.length) : (front ++ last').rtake n = last' := by
  have hcount := congrArg List.length h
  rw [List.rtake, List.length_drop, List.length_append] at hcount
  cases front with
  | nil =>
    rw [List.nil_append]
    exact rtake_of_length_le (by rw [hlen]; simp only [List.length_nil] at hcount; omega)
  | cons x front =>
    rw [List.rtake, List.length_append, hlen]
    refine List.drop_left' ?_
    simp only [List.length_cons] at hcount ⊢
    omega

/-! ## The elements beyond the cutoff -/

/-- Every element after one that passes the test passes it. -/
def HasCutoff (test : α → Bool) (l : List α) : Prop :=
  l.Pairwise fun x y => test x = true → test y = true

theorem HasCutoff.suffix {l' : List α} (h : HasCutoff test l) (hsuffix : l' <:+ l) :
    HasCutoff test l' := h.sublist hsuffix.sublist

/-- Dropping what fails the test from the front leaves what passes it. -/
theorem HasCutoff.dropWhile_eq_filter (h : HasCutoff test l) {fails : α → Bool}
    (hfails : ∀ x ∈ l, fails x = !test x) : l.dropWhile fails = l.filter test := by
  induction l with
  | nil => rfl
  | cons x l ih =>
    obtain ⟨hx, hl⟩ := List.pairwise_cons.mp h
    rw [List.forall_mem_cons] at hfails
    by_cases hpass : test x = true
    · have hall : ∀ y ∈ l, test y = true := fun y hy => hx y hy hpass
      rw [List.filter_cons_of_pos hpass, List.filter_eq_self.mpr hall,
        List.dropWhile_cons_of_neg (by simp [hfails.1, hpass])]
    · rw [List.filter_cons_of_neg hpass,
        List.dropWhile_cons_of_pos (by simp [hfails.1, hpass]), ih hl hfails.2]

theorem HasCutoff.filter_suffix (h : HasCutoff test l) : l.filter test <:+ l :=
  h.dropWhile_eq_filter (fun x _ => (rfl : (!test x) = !test x)) ▸ List.dropWhile_suffix _

/-- The last `n` of the elements that pass are those of the last `n` that pass. -/
theorem HasCutoff.rtake_filter (h : HasCutoff test l) (n : Nat) :
    (l.filter test).rtake n = (l.rtake n).filter test := by
  obtain ⟨front, hsplit⟩ := rtake_suffix l n
  generalize hlast : l.rtake n = last at hsplit
  have hlength : last.length ≤ n := hlast ▸ length_rtake_le l n
  rw [← hsplit, List.filter_append]
  by_cases hnone : front.filter test = []
  · rw [hnone, List.nil_append]
    exact rtake_of_length_le (Nat.le_trans (List.length_filter_le _ _) hlength)
  · -- something before the last `n` passes, so all of these do
    obtain ⟨x, hx⟩ := List.exists_mem_of_ne_nil _ hnone
    obtain ⟨hmem, hpass⟩ := List.mem_filter.mp hx
    have hall : ∀ y ∈ last, test y = true := fun y hy => by
      rw [← hsplit] at h
      exact (List.pairwise_append.mp h).2.2 x hmem y hy hpass
    rw [List.filter_eq_self.mpr hall]
    have hfull : last.length = n := by
      have hne : front ≠ [] := fun hnil => by
        rw [hnil] at hmem
        cases hmem
      have hpos := List.length_pos_iff.mpr hne
      have hcount := congrArg List.length hsplit
      rw [List.length_append, ← hlast, List.rtake, List.length_drop] at hcount
      rw [← hlast, List.rtake, List.length_drop]
      omega
    rw [List.rtake, List.length_append, hfull, Nat.add_sub_cancel]
    exact List.drop_left' rfl

end Cutoff
