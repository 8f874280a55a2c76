import Mathlib.Data.Nat.ModEq

/-!
# Wrapping sequence numbers

A byte counter of width `w` on the wire is an unwrapped offset taken modulo
`2 ^ w`. Order on such counters is only a half-window relation: `v` comes after
`r` when the signed difference `v - r` is positive.

This module relates the two readings. All facts are about `wrap a` for an
unwrapped `a`, and each one says how far apart the unwrapped offsets may be for
the wrapped test to answer as the unwrapped order does.
-/

namespace SeqNum

variable {w : Nat}

/-- The counter of width `w` that stands for the unwrapped offset `n`. -/
def wrap (w n : Nat) : BitVec w := BitVec.ofNat w n

/-- `v` comes after `r`: the signed difference is positive. -/
def After (v r : BitVec w) : Prop := 0 < (v - r).toInt

instance (v r : BitVec w) : Decidable (After v r) := inferInstanceAs (Decidable (0 < _))

theorem wrap_add (a b : Nat) : wrap w (a + b) = wrap w a + wrap w b := BitVec.ofNat_add a b

theorem wrap_toNat (v : BitVec w) : wrap w v.toNat = v := by simp [wrap]

/-- Two unwrapped offsets less than a full window apart are told apart. -/
theorem wrap_inj {a b : Nat} (hab : a < b + 2 ^ w) (hba : b < a + 2 ^ w)
    (h : wrap w a = wrap w b) : a = b := by
  have hmod : a % 2 ^ w = b % 2 ^ w := by
    simpa [wrap] using congrArg BitVec.toNat h
  rcases Nat.le_total a b with hle | hle
  · have hdvd : 2 ^ w ∣ b - a := (Nat.modEq_iff_dvd' hle).mp hmod
    have := Nat.eq_zero_of_dvd_of_lt hdvd (by omega)
    omega
  · have hdvd : 2 ^ w ∣ a - b := (Nat.modEq_iff_dvd' hle).mp hmod.symm
    have := Nat.eq_zero_of_dvd_of_lt hdvd (by omega)
    omega

theorem after_iff (v r : BitVec w) :
    After v r ↔ 0 < (v - r).toNat ∧ 2 * (v - r).toNat < 2 ^ w := by
  unfold After
  rw [BitVec.toInt_eq_toNat_cond]
  have hlt := (v - r).isLt
  split
  · omega
  · have : ((v - r).toNat : Int) < (2 ^ w : Nat) := by exact_mod_cast hlt
    omega

/-- The distance from `b` up to `a`, when it is less than a full window. -/
theorem toNat_wrap_sub {a b : Nat} (hle : b ≤ a) (hlt : a < b + 2 ^ w) :
    (wrap w a - wrap w b).toNat = a - b := by
  have h : wrap w a - wrap w b = wrap w (a - b) := by
    have ha : wrap w a = wrap w (a - b) + wrap w b := by
      rw [← wrap_add, Nat.sub_add_cancel hle]
    rw [ha, BitVec.add_sub_cancel]
  rw [h]
  simpa [wrap] using Nat.mod_eq_of_lt (show a - b < 2 ^ w by omega)

/-- Up to half a window the signed difference is the unwrapped one. -/
theorem toInt_wrap_sub {a b : Nat} (hle : b ≤ a) (hhalf : 2 * (a - b) < 2 ^ w) :
    (wrap w a - wrap w b).toInt = (a : Int) - b := by
  rw [BitVec.toInt_eq_toNat_cond, toNat_wrap_sub hle (by omega), if_pos hhalf, Int.ofNat_sub hle]

/-- An offset strictly ahead by less than half a window comes after. -/
theorem after_wrap {a b : Nat} (hlt : b < a) (hhalf : 2 * (a - b) < 2 ^ w) :
    After (wrap w a) (wrap w b) := by
  rw [after_iff, toNat_wrap_sub (by omega) (by omega)]
  omega

/-- An offset at or behind by at most half a window does not come after. -/
theorem not_after_wrap {a b : Nat} (hle : a ≤ b) (hhalf : 2 * (b - a) ≤ 2 ^ w) :
    ¬ After (wrap w a) (wrap w b) := by
  rw [after_iff]
  rcases Nat.eq_or_lt_of_le hle with rfl | hlt
  · simp
  have hback := toNat_wrap_sub (w := w) (a := b) (b := a) hle (by omega)
  have hneg : wrap w a - wrap w b = -(wrap w b - wrap w a) := by
    rw [BitVec.neg_sub, BitVec.sub_eq_add_neg, BitVec.add_comm]
  rw [hneg, BitVec.toNat_neg, hback, Nat.mod_eq_of_lt (by omega)]
  omega

/-- Within half a window the wrapped test is the unwrapped order. -/
theorem after_wrap_iff {a b : Nat} (hab : 2 * (a - b) < 2 ^ w) (hba : 2 * (b - a) ≤ 2 ^ w) :
    After (wrap w a) (wrap w b) ↔ b < a := by
  constructor
  · intro h
    by_contra hle
    exact not_after_wrap (by omega) hba h
  · intro h
    exact after_wrap h hab

end SeqNum
