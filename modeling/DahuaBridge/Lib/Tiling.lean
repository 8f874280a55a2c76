import Mathlib.Algebra.BigOperators.Group.List.Basic
import Mathlib.Algebra.Order.BigOperators.Group.List
import Mathlib.Algebra.Order.Ring.Nat
import Mathlib.Data.List.Chain
import DahuaBridge.Lib.SeqNum

/-!
# Pieces that tile a byte stream

A stream is cut into consecutive pieces `P`. Piece `i` starts at the unwrapped
offset `offset len P i`, the total length of the pieces before it.

* `Tiles`: the pieces carry wrapped positions that follow on from each other.
* `IsFrontier`: the number of leading pieces that are all held. This is what a
  receiver that delivers in order may hand out, and nothing more.

The piece type and its length function are parameters.
-/

namespace Tiling

variable {α : Type*} {len : α → Nat} {P Q : List α} {i j : Nat}

/-! ## Total length and offsets -/

/-- The total length of a list of pieces. -/
def total (len : α → Nat) (P : List α) : Nat := (P.map len).sum

/-- The unwrapped offset at which piece `i` starts. -/
def offset (len : α → Nat) (P : List α) (i : Nat) : Nat := total len (P.take i)

@[simp] theorem total_nil : total len [] = 0 := rfl

@[simp] theorem total_cons (p : α) (P : List α) : total len (p :: P) = len p + total len P := by
  simp [total]

@[simp] theorem total_append (P Q : List α) : total len (P ++ Q) = total len P + total len Q := by
  simp [total]

theorem total_perm (h : P.Perm Q) : total len P = total len Q := (h.map len).sum_eq

/-- Only the empty list of non-empty pieces has total length zero. -/
theorem eq_nil_of_total_eq_zero (hpos : ∀ p ∈ P, 0 < len p) (h : total len P = 0) : P = [] := by
  cases P with
  | nil => rfl
  | cons p P =>
    have := hpos p List.mem_cons_self
    simp only [total_cons] at h
    omega

theorem le_total {p : α} (h : p ∈ P) : len p ≤ total len P :=
  List.single_le_sum (fun _ _ => Nat.zero_le _) _ (List.mem_map_of_mem h)

/-- Empty pieces add nothing. -/
theorem total_filter_pos (P : List α) : total len (P.filter fun p => 0 < len p) = total len P := by
  induction P with
  | nil => rfl
  | cons p P ih =>
    by_cases hp : 0 < len p
    · simp [hp, ih]
    · simp [ih, Nat.eq_zero_of_not_pos hp]

theorem total_le_mul {k : Nat} (hle : ∀ p ∈ P, len p ≤ k) : total len P ≤ P.length * k := by
  induction P with
  | nil => simp
  | cons p P ih =>
    have hp := hle p List.mem_cons_self
    have := ih fun q hq => hle q (List.mem_cons_of_mem _ hq)
    simp only [total_cons, List.length_cons, Nat.succ_mul]
    omega

@[simp] theorem offset_zero : offset len P 0 = 0 := by simp [offset]

theorem offset_length : offset len P P.length = total len P := by simp [offset]

theorem offset_succ {p : α} (h : P[i]? = some p) :
    offset len P (i + 1) = offset len P i + len p := by
  simp [offset, List.take_add_one, h]

theorem offset_append (h : i ≤ P.length) : offset len (P ++ Q) i = offset len P i := by
  simp [offset, List.take_append_of_le_length h]

theorem offset_add_total_drop : offset len P i + total len (P.drop i) = total len P := by
  rw [offset, ← total_append, List.take_append_drop]

theorem offset_le_total : offset len P i ≤ total len P := by
  have : offset len P i + total len (P.drop i) = total len P := offset_add_total_drop
  omega

theorem offset_mono (h : i ≤ j) : offset len P i ≤ offset len P j := by
  have hsplit : P.take j = P.take i ++ (P.drop i).take (j - i) := by
    conv_lhs => rw [← Nat.add_sub_cancel' h, List.take_add]
  rw [offset, offset, hsplit, total_append]
  omega

/-- Non-empty pieces start at different offsets, in their order. -/
theorem offset_lt (hpos : ∀ p ∈ P, 0 < len p) (hij : i < j) (hi : i < P.length) :
    offset len P i < offset len P j := by
  have hp := hpos P[i] (List.getElem_mem hi)
  have hsucc : offset len P (i + 1) = offset len P i + len P[i] :=
    offset_succ (List.getElem?_eq_getElem hi)
  have : offset len P (i + 1) ≤ offset len P j := offset_mono hij
  omega

theorem lt_of_offset_lt (h : offset len P i < offset len P j) : i < j := by
  by_contra hle
  have : offset len P j ≤ offset len P i := offset_mono (Nat.le_of_not_lt hle)
  omega

theorem offset_inj (hpos : ∀ p ∈ P, 0 < len p) (hi : i < P.length) (hj : j ≤ P.length)
    (h : offset len P i = offset len P j) : i = j := by
  rcases Nat.lt_trichotomy i j with hlt | heq | hlt
  · have := offset_lt hpos hlt hi
    omega
  · exact heq
  · have := offset_lt hpos hlt (by omega)
    omega

theorem total_le_mul_total {f g : α → Nat} {k : Nat} (hle : ∀ p ∈ P, f p ≤ k * g p) :
    total f P ≤ k * total g P := by
  induction P with
  | nil => simp
  | cons p P ih =>
    have hp := hle p List.mem_cons_self
    have hrest := ih fun q hq => hle q (List.mem_cons_of_mem _ hq)
    rw [total_cons, total_cons, Nat.mul_add]
    exact Nat.add_le_add hp hrest

/-- Two measures of the same pieces, one never below the other, have equal
totals exactly when they agree on every piece. -/
theorem total_eq_iff {f g : α → Nat} (hle : ∀ p ∈ P, f p ≤ g p) :
    total g P = total f P ↔ ∀ p ∈ P, g p = f p := by
  induction P with
  | nil => simp
  | cons p P ih =>
    have hp := hle p List.mem_cons_self
    have hrest : total f P ≤ total g P :=
      List.sum_le_sum fun q hq => hle q (List.mem_cons_of_mem _ hq)
    simp only [total_cons, List.forall_mem_cons]
    rw [← ih fun q hq => hle q (List.mem_cons_of_mem _ hq)]
    omega

/-! ## Wrapped positions -/

section Wrapped

variable {w : Nat} {pos : α → BitVec w}

/-- The pieces carry the positions of a stream that starts at `start`. -/
def Tiles (pos : α → BitVec w) (len : α → Nat) : BitVec w → List α → Prop
  | _, [] => True
  | start, p :: P => pos p = start ∧ Tiles pos len (start + SeqNum.wrap w (len p)) P

instance (pos : α → BitVec w) (len : α → Nat) :
    (start : BitVec w) → (P : List α) → Decidable (Tiles pos len start P)
  | _, [] => instDecidableTrue
  | start, p :: P =>
    have := instDecidableTiles pos len (start + SeqNum.wrap w (len p)) P
    inferInstanceAs (Decidable (_ ∧ _))

theorem tiles_append {start : BitVec w} : Tiles pos len start (P ++ Q) ↔
    Tiles pos len start P ∧ Tiles pos len (start + SeqNum.wrap w (total len P)) Q := by
  induction P generalizing start with
  | nil => simp [Tiles, SeqNum.wrap]
  | cons p P ih =>
    simp only [List.cons_append, Tiles, ih, total_cons, SeqNum.wrap_add, and_assoc,
      BitVec.add_assoc]

/-- The position of a piece is its unwrapped offset, wrapped. -/
theorem Tiles.pos_eq {base : Nat} (h : Tiles pos len (SeqNum.wrap w base) P) {p : α}
    (hp : P[i]? = some p) : pos p = SeqNum.wrap w (base + offset len P i) := by
  induction P generalizing base i with
  | nil => simp at hp
  | cons q P ih =>
    obtain ⟨hq, hrest⟩ := h
    cases i with
    | zero =>
      simp only [List.getElem?_cons_zero, Option.some.injEq] at hp
      subst hp
      simpa using hq
    | succ i =>
      rw [← SeqNum.wrap_add] at hrest
      rw [ih hrest (by simpa using hp)]
      simp [offset, Nat.add_assoc]

/-- Each piece starts where the one before it ends. -/
theorem Tiles.isChain {start : BitVec w} (h : Tiles pos len start P) :
    P.IsChain fun p q => pos q = pos p + SeqNum.wrap w (len p) := by
  induction P generalizing start with
  | nil => exact .nil
  | cons p P ih =>
    obtain ⟨hp, hrest⟩ := h
    refine List.isChain_cons.mpr ⟨fun q hq => ?_, ih hrest⟩
    cases P with
    | nil => cases hq
    | cons r P =>
      obtain rfl : r = q := Option.some.inj hq
      rw [hp]
      exact hrest.1

/-- The last piece ends at the total length beyond the start. -/
theorem Tiles.getLast {start : BitVec w} (h : Tiles pos len start P) {p : α}
    (hp : p ∈ P.getLast?) : pos p + SeqNum.wrap w (len p) = start + SeqNum.wrap w (total len P) := by
  obtain ⟨Q, rfl⟩ := List.getLast?_eq_some_iff.mp hp
  obtain ⟨hpos, _⟩ := (tiles_append.mp h).2
  rw [hpos, total_append, total_cons, total_nil, Nat.add_zero, SeqNum.wrap_add, BitVec.add_assoc]

end Wrapped

/-! ## The frontier of what is held -/

/-- `n` counts the longest prefix of `N` pieces that are all held. -/
structure IsFrontier (held : Nat → Prop) (N n : Nat) : Prop where
  le : n ≤ N
  below : ∀ i < n, held i
  stops : n < N → ¬ held n

theorem IsFrontier.unique {held : Nat → Prop} {N m n : Nat} (hm : IsFrontier held N m)
    (hn : IsFrontier held N n) : m = n := by
  rcases Nat.lt_trichotomy m n with h | h | h
  · exact absurd (hn.below m h) (hm.stops (Nat.lt_of_lt_of_le h hn.le))
  · exact h
  · exact absurd (hm.below n h) (hn.stops (Nat.lt_of_lt_of_le h hm.le))

theorem IsFrontier.congr {held held' : Nat → Prop} {N n : Nat} (h : IsFrontier held N n)
    (hiff : ∀ i, held' i ↔ held i) : IsFrontier held' N n where
  le := h.le
  below i hi := (hiff i).mpr (h.below i hi)
  stops hn hheld := h.stops hn ((hiff n).mp hheld)

/-- Holding one more piece that is not the next one leaves the frontier. -/
theorem IsFrontier.insert_ne {held : Nat → Prop} {N n k : Nat} (h : IsFrontier held N n)
    (hk : k ≠ n) : IsFrontier (fun i => held i ∨ i = k) N n where
  le := h.le
  below i hi := .inl (h.below i hi)
  stops hn hheld := hheld.elim (h.stops hn) fun he => hk he.symm

end Tiling
