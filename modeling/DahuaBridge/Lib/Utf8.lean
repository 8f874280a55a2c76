import Mathlib.Data.String.Basic
import DahuaBridge.Lib.Text
import DahuaBridge.Lib.Tiling

/-!
# Lossy UTF-8 decoding

Bytes are cut into chunks: an encoded scalar value, or an ill-formed piece. An
ill-formed piece is a maximal prefix of some well-formed sequence (one to three
bytes), or a single byte that starts none. Lossy decoding keeps the scalar
values and puts U+FFFD for each ill-formed piece.

The main fact is about lengths (`utf8Length_lossy_eq_iff`): the text has as many
bytes as the input exactly when every ill-formed piece is three bytes long,
which is the length of U+FFFD itself. ASCII patterns are found in the text exactly
where their bytes are in the input (`infix_lossy_iff`). What stands before an ASCII byte
is decoded on its own (`lossy_append_ascii`). An encoded text is decoded to itself
(`lossy_encode`).
-/

namespace Utf8

open Tiling

/-- A continuation byte, `80..BF`. -/
def isCont (x : UInt8) : Bool := 0x80 ≤ x.toNat && x.toNat ≤ 0xBF

/-- The range of the second byte after the first byte `b` of a three- or
four-byte sequence: it rules out overlong forms, surrogates and values past
U+10FFFF. -/
def secondOk (b x : UInt8) : Bool :=
  let low := if b.toNat = 0xE0 then 0xA0 else if b.toNat = 0xF0 then 0x90 else 0x80
  let high := if b.toNat = 0xED then 0x9F else if b.toNat = 0xF4 then 0x8F else 0xBF
  low ≤ x.toNat && x.toNat ≤ high

/-- A piece of the input: an encoded scalar value, or ill-formed bytes. -/
inductive Chunk where
  | scalar (c : Char) (width : Nat)
  | invalid (width : Nat)
  deriving DecidableEq, Repr

/-- The number of input bytes of a chunk. -/
def Chunk.width : Chunk → Nat
  | scalar _ width => width
  | invalid width => width

/-- What lossy decoding puts for a chunk. -/
def Chunk.char : Chunk → Char
  | scalar c _ => c
  | invalid _ => '\uFFFD'

/-- The value of two bytes' worth of payload bits. -/
def join (high : Nat) (x : UInt8) : Nat := high * 64 + (x.toNat - 0x80)

/-- The first chunk of `b :: rest`. -/
def nextChunk (b : UInt8) (rest : List UInt8) : Chunk :=
  if b.toNat < 0x80 then .scalar (Char.ofNat b.toNat) 1
  else if b.toNat < 0xC2 then .invalid 1
  else if b.toNat < 0xE0 then
    match rest with
    | x :: _ => if isCont x then .scalar (Char.ofNat (join (b.toNat - 0xC0) x)) 2 else .invalid 1
    | [] => .invalid 1
  else if b.toNat < 0xF0 then
    match rest with
    | x :: y :: _ =>
      if !secondOk b x then .invalid 1
      else if isCont y then .scalar (Char.ofNat (join (join (b.toNat - 0xE0) x) y)) 3
      else .invalid 2
    | [x] => if secondOk b x then .invalid 2 else .invalid 1
    | [] => .invalid 1
  else if b.toNat < 0xF5 then
    match rest with
    | x :: y :: z :: _ =>
      if !secondOk b x then .invalid 1
      else if !isCont y then .invalid 2
      else if isCont z then .scalar (Char.ofNat (join (join (join (b.toNat - 0xF0) x) y) z)) 4
      else .invalid 3
    | [x, y] => if !secondOk b x then .invalid 1 else if isCont y then .invalid 3 else .invalid 2
    | [x] => if secondOk b x then .invalid 2 else .invalid 1
    | [] => .invalid 1
  else .invalid 1

/-- The chunks of the input. The fuel counts the bytes that are left. -/
def chunksAux : Nat → List UInt8 → List Chunk
  | fuel + 1, b :: rest =>
    let chunk := nextChunk b rest
    chunk :: chunksAux fuel ((b :: rest).drop chunk.width)
  | _, _ => []

def chunks (bytes : List UInt8) : List Chunk := chunksAux bytes.length bytes

/-- Lossy decoding. -/
def lossy (bytes : List UInt8) : List Char := (chunks bytes).map Chunk.char

/-- The widths of the ill-formed pieces of the input. -/
def invalidWidths (bytes : List UInt8) : List Nat :=
  (chunks bytes).filterMap fun
    | .scalar _ _ => none
    | .invalid width => some width

/-! ## The width of a chunk -/

theorem isCont_iff {x : UInt8} : isCont x = true ↔ 0x80 ≤ x.toNat ∧ x.toNat ≤ 0xBF := by
  simp [isCont]

theorem secondOk_bounds {b x : UInt8} (h : secondOk b x = true) :
    0x80 ≤ x.toNat ∧ x.toNat ≤ 0xBF ∧ (b.toNat = 0xE0 → 0xA0 ≤ x.toNat) ∧
    (b.toNat = 0xED → x.toNat ≤ 0x9F) ∧ (b.toNat = 0xF0 → 0x90 ≤ x.toNat) ∧
    (b.toNat = 0xF4 → x.toNat ≤ 0x8F) := by
  simp only [secondOk, Bool.and_eq_true, decide_eq_true_eq] at h
  grind

theorem toNat_ofNat {n : Nat} (h : n < 0xD800 ∨ 0xDFFF < n ∧ n < 0x110000) :
    (Char.ofNat n).toNat = n := by
  have hv : n.isValidChar := h
  rw [Char.ofNat, dif_pos hv]
  exact UInt32.toNat_ofNatLT

/-- The encoded length of a scalar value given by its number. -/
theorem utf8Size_ofNat {n : Nat} (h : n < 0xD800 ∨ 0xDFFF < n ∧ n < 0x110000) :
    (Char.ofNat n).utf8Size =
      if n ≤ 0x7F then 1 else if n ≤ 0x7FF then 2 else if n ≤ 0xFFFF then 3 else 4 := by
  show (if (Char.ofNat n).toNat ≤ 0x7F then 1 else if (Char.ofNat n).toNat ≤ 0x7FF then 2
    else if (Char.ofNat n).toNat ≤ 0xFFFF then 3 else 4) = _
  rw [toNat_ofNat h]

theorem utf8Size_one {n : Nat} (h : n ≤ 0x7F) : (Char.ofNat n).utf8Size = 1 := by
  rw [utf8Size_ofNat (by omega), if_pos h]

theorem utf8Size_two {n : Nat} (hl : 0x80 ≤ n) (hh : n ≤ 0x7FF) :
    (Char.ofNat n).utf8Size = 2 := by
  rw [utf8Size_ofNat (by omega), if_neg (by omega), if_pos hh]

theorem utf8Size_three {n : Nat} (hl : 0x800 ≤ n) (hs : n < 0xD800 ∨ 0xDFFF < n)
    (hh : n ≤ 0xFFFF) : (Char.ofNat n).utf8Size = 3 := by
  rw [utf8Size_ofNat (by omega), if_neg (by omega), if_neg (by omega), if_pos hh]

theorem utf8Size_four {n : Nat} (hl : 0x10000 ≤ n) (hh : n < 0x110000) :
    (Char.ofNat n).utf8Size = 4 := by
  rw [utf8Size_ofNat (by omega), if_neg (by omega), if_neg (by omega), if_neg (by omega)]

/-- The first `width` bytes of `b :: rest`, all of them outside ASCII. -/
structure High (b : UInt8) (rest : List UInt8) (width : Nat) : Prop where
  le : width ≤ rest.length + 1
  high : ∀ x ∈ (b :: rest).take width, 0x80 ≤ x.toNat

/-- What the first chunk of `b :: rest` can be: an ASCII character, or bytes outside ASCII
that encode a value, or that do not. -/
inductive Chunk.Spec (b : UInt8) (rest : List UInt8) : Chunk → Prop where
  | ascii : b.toNat < 0x80 → Spec b rest (.scalar (Char.ofNat b.toNat) 1)
  | scalar {c : Char} {width : Nat} : c.utf8Size = width → 2 ≤ width → High b rest width →
      Spec b rest (.scalar c width)
  | invalid {width : Nat} : 0 < width → width ≤ 3 → High b rest width → Spec b rest (.invalid width)

section Spec

variable {b x y z : UInt8} {rest : List UInt8}

theorem high_one (hb : 0x80 ≤ b.toNat) : High b rest 1 := by
  refine ⟨Nat.le_add_left .., fun w hw => ?_⟩
  rwa [List.mem_singleton.mp hw]

theorem high_two (hb : 0x80 ≤ b.toNat) (hx : 0x80 ≤ x.toNat) : High b (x :: rest) 2 := by
  refine ⟨Nat.le_add_left .., fun w hw => ?_⟩
  simp only [List.take_succ_cons, List.take_zero, List.mem_cons, List.not_mem_nil, or_false] at hw
  rcases hw with rfl | rfl <;> assumption

theorem high_three (hb : 0x80 ≤ b.toNat) (hx : 0x80 ≤ x.toNat) (hy : 0x80 ≤ y.toNat) :
    High b (x :: y :: rest) 3 := by
  refine ⟨Nat.le_add_left .., fun w hw => ?_⟩
  simp only [List.take_succ_cons, List.take_zero, List.mem_cons, List.not_mem_nil, or_false] at hw
  rcases hw with rfl | rfl | rfl <;> assumption

theorem high_four (hb : 0x80 ≤ b.toNat) (hx : 0x80 ≤ x.toNat) (hy : 0x80 ≤ y.toNat)
    (hz : 0x80 ≤ z.toNat) : High b (x :: y :: z :: rest) 4 := by
  refine ⟨Nat.le_add_left .., fun w hw => ?_⟩
  simp only [List.take_succ_cons, List.take_zero, List.mem_cons, List.not_mem_nil, or_false] at hw
  rcases hw with rfl | rfl | rfl | rfl <;> assumption

theorem spec_two (hlow : 0xC2 ≤ b.toNat) (hhigh : b.toNat < 0xE0) (hx : isCont x = true) :
    Chunk.Spec b (x :: rest) (.scalar (Char.ofNat (join (b.toNat - 0xC0) x)) 2) := by
  have hcont := isCont_iff.mp hx
  refine .scalar ?_ (Nat.le_refl 2) (high_two (by omega) hcont.1)
  apply utf8Size_two <;> unfold join <;> omega

theorem spec_three (hlow : 0xE0 ≤ b.toNat) (hhigh : b.toNat < 0xF0) (hx : secondOk b x = true)
    (hy : isCont y = true) : Chunk.Spec b (x :: y :: rest)
      (.scalar (Char.ofNat (join (join (b.toNat - 0xE0) x) y)) 3) := by
  have hsecond := secondOk_bounds hx
  have hcont := isCont_iff.mp hy
  refine .scalar ?_ (by decide) (high_three (by omega) hsecond.1 hcont.1)
  -- the second byte keeps the value out of the overlong and surrogate ranges
  apply utf8Size_three <;> unfold join <;> omega

theorem spec_four (hlow : 0xF0 ≤ b.toNat) (hhigh : b.toNat < 0xF5) (hx : secondOk b x = true)
    (hy : isCont y = true) (hz : isCont z = true) : Chunk.Spec b (x :: y :: z :: rest)
      (.scalar (Char.ofNat (join (join (join (b.toNat - 0xF0) x) y) z)) 4) := by
  have hsecond := secondOk_bounds hx
  have hthird := isCont_iff.mp hy
  have hfourth := isCont_iff.mp hz
  refine .scalar ?_ (by decide) (high_four (by omega) hsecond.1 hthird.1 hfourth.1)
  apply utf8Size_four <;> unfold join <;> omega

theorem spec_invalid_one (hb : 0x80 ≤ b.toNat) : Chunk.Spec b rest (.invalid 1) :=
  .invalid (by decide) (by decide) (high_one hb)

theorem spec_invalid_two (hb : 0x80 ≤ b.toNat) (hx : secondOk b x = true) :
    Chunk.Spec b (x :: rest) (.invalid 2) :=
  .invalid (by decide) (by decide) (high_two hb (secondOk_bounds hx).1)

theorem spec_invalid_three (hb : 0x80 ≤ b.toNat) (hx : secondOk b x = true) (hy : isCont y = true) :
    Chunk.Spec b (x :: y :: rest) (.invalid 3) :=
  .invalid (by decide) (by decide) (high_three hb (secondOk_bounds hx).1 (isCont_iff.mp hy).1)

theorem nextChunk_spec (b : UInt8) (rest : List UInt8) : Chunk.Spec b rest (nextChunk b rest) := by
  unfold nextChunk
  split
  · next hascii => exact .ascii hascii
  next hascii =>
  have hb : 0x80 ≤ b.toNat := Nat.not_lt.mp hascii
  split
  · exact spec_invalid_one hb
  next hlow =>
  split
  · next htwo =>
    split
    · split
      · next hx => exact spec_two (Nat.not_lt.mp hlow) htwo hx
      · exact spec_invalid_one hb
    · exact spec_invalid_one hb
  next htwo =>
  split
  · next hthree =>
    split
    · split
      · exact spec_invalid_one hb
      next hx =>
      rw [Bool.not_eq_true', Bool.not_eq_false] at hx
      split
      · next hy => exact spec_three (Nat.not_lt.mp htwo) hthree hx hy
      · exact spec_invalid_two hb hx
    · split
      · next hx => exact spec_invalid_two hb hx
      · exact spec_invalid_one hb
    · exact spec_invalid_one hb
  next hthree =>
  split
  · next hfour =>
    split
    · split
      · exact spec_invalid_one hb
      next hx =>
      rw [Bool.not_eq_true', Bool.not_eq_false] at hx
      split
      · exact spec_invalid_two hb hx
      next hy =>
      rw [Bool.not_eq_true', Bool.not_eq_false] at hy
      split
      · next hz => exact spec_four (Nat.not_lt.mp hthree) hfour hx hy hz
      · exact spec_invalid_three hb hx hy
    · split
      · exact spec_invalid_one hb
      next hx =>
      rw [Bool.not_eq_true', Bool.not_eq_false] at hx
      split
      · next hy => exact spec_invalid_three hb hx hy
      · exact spec_invalid_two hb hx
    · split
      · next hx => exact spec_invalid_two hb hx
      · exact spec_invalid_one hb
    · exact spec_invalid_one hb
  · exact spec_invalid_one hb

end Spec

/-- A scalar chunk has the width of its encoded character. -/
theorem nextChunk_scalar {b : UInt8} {rest : List UInt8} {c : Char} {width : Nat}
    (h : nextChunk b rest = .scalar c width) : c.utf8Size = width := by
  have hspec := nextChunk_spec b rest
  rw [h] at hspec
  cases hspec with
  | ascii hascii => exact utf8Size_one (Nat.le_of_lt_succ hascii)
  | scalar hsize _ _ => exact hsize

/-- A chunk takes at least one byte, and no more than there are. -/
theorem nextChunk_width (b : UInt8) (rest : List UInt8) :
    0 < (nextChunk b rest).width ∧ (nextChunk b rest).width ≤ rest.length + 1 := by
  have hspec := nextChunk_spec b rest
  generalize nextChunk b rest = chunk at hspec ⊢
  cases hspec with
  | ascii _ => exact ⟨Nat.one_pos, Nat.le_add_left ..⟩
  | scalar _ htwo hhigh => exact ⟨Nat.lt_of_lt_of_le Nat.two_pos htwo, hhigh.le⟩
  | invalid hpos _ hhigh => exact ⟨hpos, hhigh.le⟩

/-- An ill-formed piece has at most three bytes. -/
theorem nextChunk_invalid {b : UInt8} {rest : List UInt8} {width : Nat}
    (h : nextChunk b rest = .invalid width) : width ≤ 3 := by
  have hspec := nextChunk_spec b rest
  rw [h] at hspec
  cases hspec with
  | invalid _ hle _ => exact hle

/-! ## Lengths -/

/-- What a chunk's character takes when it is encoded again. -/
def Chunk.utf8Size (chunk : Chunk) : Nat := chunk.char.utf8Size

/-- The character of a chunk is at least as long as its bytes, and exactly as
long unless the chunk is an ill-formed piece of fewer than three bytes. -/
theorem nextChunk_utf8Size (b : UInt8) (rest : List UInt8) :
    (nextChunk b rest).width ≤ (nextChunk b rest).utf8Size ∧
    ((nextChunk b rest).utf8Size = (nextChunk b rest).width ↔
      ∀ width, nextChunk b rest = .invalid width → width = 3) := by
  cases h : nextChunk b rest with
  | scalar c width =>
    have := nextChunk_scalar h
    simp [Chunk.width, Chunk.utf8Size, Chunk.char, this]
  | invalid width =>
    have hle := nextChunk_invalid h
    have hsize : '\uFFFD'.utf8Size = 3 := rfl
    simp only [Chunk.width, Chunk.utf8Size, Chunk.char, hsize, Chunk.invalid.injEq, forall_eq']
    omega

theorem total_width_chunksAux {fuel : Nat} {bytes : List UInt8} (h : bytes.length ≤ fuel) :
    total Chunk.width (chunksAux fuel bytes) = bytes.length := by
  induction fuel generalizing bytes with
  | zero => simp_all [chunksAux]
  | succ fuel ih =>
    cases bytes with
    | nil => simp [chunksAux]
    | cons b rest =>
      have hw := nextChunk_width b rest
      simp only [List.length_cons] at h
      simp only [chunksAux, total_cons]
      rw [ih (by simp only [List.length_drop, List.length_cons]; omega)]
      simp only [List.length_drop, List.length_cons]
      omega

theorem mem_chunksAux {fuel : Nat} {bytes : List UInt8} {chunk : Chunk}
    (h : chunk ∈ chunksAux fuel bytes) : ∃ b rest, nextChunk b rest = chunk := by
  induction fuel generalizing bytes with
  | zero => simp [chunksAux] at h
  | succ fuel ih =>
    cases bytes with
    | nil => simp [chunksAux] at h
    | cons b rest =>
      rcases List.mem_cons.mp h with rfl | h
      · exact ⟨b, rest, rfl⟩
      · exact ih h

theorem nextChunk_utf8Size_le (b : UInt8) (rest : List UInt8) :
    (nextChunk b rest).utf8Size ≤ 3 * (nextChunk b rest).width := by
  have hpos := (nextChunk_width b rest).1
  cases h : nextChunk b rest with
  | scalar c width =>
    have := nextChunk_scalar h
    simp only [Chunk.width, Chunk.utf8Size, Chunk.char, this]
    omega
  | invalid width =>
    have hsize : '\uFFFD'.utf8Size = 3 := rfl
    rw [h] at hpos
    simp only [Chunk.width] at hpos
    simp only [Chunk.width, Chunk.utf8Size, Chunk.char, hsize]
    omega

theorem total_utf8Size_lossy (bytes : List UInt8) :
    total Char.utf8Size (lossy bytes) = total Chunk.utf8Size (chunks bytes) := by
  simp only [total, lossy, List.map_map]
  rfl

theorem total_width_chunks (bytes : List UInt8) :
    total Chunk.width (chunks bytes) = bytes.length := total_width_chunksAux (Nat.le_refl _)

/-- Lossy decoding makes a text at most three times as long. -/
theorem utf8Length_lossy_le (bytes : List UInt8) :
    total Char.utf8Size (lossy bytes) ≤ 3 * bytes.length := by
  rw [total_utf8Size_lossy, ← total_width_chunks bytes]
  refine total_le_mul_total fun chunk hchunk => ?_
  obtain ⟨b, rest, rfl⟩ := mem_chunksAux hchunk
  exact nextChunk_utf8Size_le b rest

/-- Lossy decoding keeps the byte length exactly when every ill-formed piece is
three bytes long. -/
theorem utf8Length_lossy_eq_iff (bytes : List UInt8) :
    total Char.utf8Size (lossy bytes) = bytes.length ↔ ∀ width ∈ invalidWidths bytes, width = 3 := by
  rw [total_utf8Size_lossy, ← total_width_chunks bytes, total_eq_iff]
  · constructor
    · intro h width hmem
      simp only [invalidWidths, List.mem_filterMap] at hmem
      obtain ⟨chunk, hchunk, hw⟩ := hmem
      obtain ⟨b, rest, hnext⟩ := mem_chunksAux hchunk
      have heq := h chunk hchunk
      rw [← hnext] at heq
      cases chunk with
      | scalar c _ => simp at hw
      | invalid v =>
        simp only [Option.some.injEq] at hw
        exact hw ▸ (nextChunk_utf8Size b rest).2.mp heq v hnext
    · intro h chunk hchunk
      obtain ⟨b, rest, rfl⟩ := mem_chunksAux hchunk
      refine (nextChunk_utf8Size b rest).2.mpr fun width hw => h width ?_
      simp only [invalidWidths, List.mem_filterMap]
      exact ⟨_, hchunk, by rw [hw]⟩
  · intro chunk hchunk
    obtain ⟨b, rest, rfl⟩ := mem_chunksAux hchunk
    exact (nextChunk_utf8Size b rest).1

/-! ## ASCII patterns -/

def isAscii (text : List Char) : Bool := text.all fun c => c.toNat < 0x80

theorem isAscii_iff {text : List Char} : isAscii text = true ↔ ∀ c ∈ text, c.toNat < 0x80 := by
  simp only [isAscii, List.all_eq_true, decide_eq_true_eq]

/-- A chunk that starts outside ASCII stays outside. -/
theorem nextChunk_bytes_high {b : UInt8} (rest : List UInt8) (hhigh : 0x80 ≤ b.toNat) :
    ∀ x ∈ (b :: rest).take (nextChunk b rest).width, 0x80 ≤ x.toNat := by
  have hspec := nextChunk_spec b rest
  generalize nextChunk b rest = chunk at hspec ⊢
  cases hspec with
  | ascii hascii => exact absurd hascii (Nat.not_lt.mpr hhigh)
  | scalar _ _ hbytes => exact hbytes.high
  | invalid _ _ hbytes => exact hbytes.high

/-- So does its character. -/
theorem nextChunk_char_high {b : UInt8} (rest : List UInt8) (hhigh : 0x80 ≤ b.toNat) :
    0x80 ≤ (nextChunk b rest).char.toNat := by
  have hspec := nextChunk_spec b rest
  generalize nextChunk b rest = chunk at hspec ⊢
  cases hspec with
  | ascii hascii => exact absurd hascii (Nat.not_lt.mpr hhigh)
  | invalid _ _ _ => exact (by decide : 0x80 ≤ '\uFFFD'.toNat)
  | @scalar c _ hsize htwo _ =>
    by_contra hlow
    have hone : c.utf8Size = 1 := Char.utf8Size_eq_one_iff.mpr (by
      rw [UInt32.le_iff_toNat_le]
      exact Nat.le_of_lt_succ (Nat.not_le.mp hlow))
    omega

theorem toNat_toUInt8 {c : Char} (h : c.toNat < 0x80) : c.toUInt8.toNat = c.toNat := by
  show c.val.toNat % 256 = c.val.toNat
  exact Nat.mod_eq_of_lt (Nat.lt_trans h (by decide))

theorem eq_ofNat_iff {c : Char} {b : UInt8} (hc : c.toNat < 0x80) (hb : b.toNat < 0x80) :
    c = Char.ofNat b.toNat ↔ c.toUInt8 = b := by
  have hbyte := toNat_toUInt8 hc
  constructor
  · rintro rfl
    rw [← UInt8.toNat_inj, hbyte, toNat_ofNat (.inl (Nat.lt_trans hb (by decide)))]
  · rintro rfl
    rw [hbyte, Char.ofNat_toNat]

section Patterns

variable {pattern : List Char} {fuel : Nat} {bytes : List UInt8}

theorem map_char_chunksAux (b : UInt8) (rest : List UInt8) (fuel : Nat) :
    (chunksAux (fuel + 1) (b :: rest)).map Chunk.char = (nextChunk b rest).char ::
      (chunksAux fuel ((b :: rest).drop (nextChunk b rest).width)).map Chunk.char := rfl

theorem nextChunk_ascii {b : UInt8} (rest : List UInt8) (h : b.toNat < 0x80) :
    nextChunk b rest = .scalar (Char.ofNat b.toNat) 1 := if_pos h

theorem prefix_chunksAux_iff (hascii : ∀ c ∈ pattern, c.toNat < 0x80) (h : bytes.length ≤ fuel) :
    pattern <+: (chunksAux fuel bytes).map Chunk.char ↔ pattern.map Char.toUInt8 <+: bytes := by
  induction pattern generalizing fuel bytes with
  | nil => simp only [List.nil_prefix, List.map_nil]
  | cons c pattern ih =>
    obtain ⟨hc, hpattern⟩ := List.forall_mem_cons.mp hascii
    cases bytes with
    | nil => cases fuel <;> simp [chunksAux]
    | cons b rest =>
      obtain ⟨fuel, rfl⟩ : ∃ n, fuel = n + 1 := Nat.exists_eq_succ_of_ne_zero (by
        rintro rfl
        cases h)
      rw [map_char_chunksAux, List.map_cons, List.cons_prefix_cons, List.cons_prefix_cons]
      by_cases hb : b.toNat < 0x80
      · rw [nextChunk_ascii rest hb, Chunk.char, Chunk.width, List.drop_one, List.tail_cons,
          eq_ofNat_iff hc hb, ih hpattern (Nat.le_of_succ_le_succ h)]
      · have hhigh := nextChunk_char_high rest (Nat.not_lt.mp hb)
        constructor
        · rintro ⟨rfl, -⟩
          exact absurd hc (Nat.not_lt.mpr hhigh)
        · rintro ⟨rfl, -⟩
          exact absurd (Nat.lt_of_le_of_lt (Nat.mod_le ..) hc) hb

theorem infix_chunksAux_iff (hne : pattern ≠ []) (hascii : ∀ c ∈ pattern, c.toNat < 0x80)
    (h : bytes.length ≤ fuel) :
    pattern <:+: (chunksAux fuel bytes).map Chunk.char ↔ pattern.map Char.toUInt8 <:+: bytes := by
  induction fuel generalizing bytes with
  | zero =>
    obtain rfl := List.length_eq_zero_iff.mp (Nat.le_zero.mp h)
    simp [chunksAux]
  | succ fuel ih =>
    cases bytes with
    | nil => simp [chunksAux]
    | cons b rest =>
      have hwidth := nextChunk_width b rest
      have hlength : ((b :: rest).drop (nextChunk b rest).width).length ≤ fuel := by
        rw [List.length_drop]
        omega
      have hrest := ih hlength
      by_cases hb : b.toNat < 0x80
      · rw [List.infix_cons_iff, ← prefix_chunksAux_iff hascii h, map_char_chunksAux,
          List.infix_cons_iff, hrest, nextChunk_ascii rest hb]
        rfl
      · have hchar := nextChunk_char_high rest (Nat.not_lt.mp hb)
        have hbytes := nextChunk_bytes_high rest (Nat.not_lt.mp hb)
        rw [map_char_chunksAux, ← List.singleton_append, Text.infix_append_iff_of_not_mem hne,
          hrest]
        · conv_rhs => rw [← List.take_append_drop (nextChunk b rest).width (b :: rest)]
          rw [Text.infix_append_iff_of_not_mem (by simpa using hne)]
          intro x hx hmem
          obtain ⟨c, hc, rfl⟩ := List.mem_map.mp hmem
          have := hbytes _ hx
          exact absurd (Nat.lt_of_le_of_lt (Nat.mod_le ..) (hascii c hc)) (Nat.not_lt.mpr this)
        · intro c hc hmem
          rw [List.mem_singleton.mp hc] at hmem
          exact absurd (hascii _ hmem) (Nat.not_lt.mpr hchar)

/-- An ASCII pattern is found in the lossy text exactly if its bytes are found in the
input. -/
theorem infix_lossy_iff (hne : pattern ≠ []) (hascii : isAscii pattern = true) :
    pattern <:+: lossy bytes ↔ pattern.map Char.toUInt8 <:+: bytes :=
  infix_chunksAux_iff hne (isAscii_iff.mp hascii) (Nat.le_refl _)

end Patterns

/-! ## Text before an ASCII byte -/

theorem nextChunk_append_ascii (b : UInt8) (rest : List UInt8) {c : UInt8} (more : List UInt8)
    (hc : c.toNat < 0x80) : nextChunk b (rest ++ c :: more) = nextChunk b rest := by
  have hcont : isCont c = false := by
    rw [Bool.eq_false_iff, Ne, isCont_iff]
    omega
  have hsecond : secondOk b c = false :=
    Bool.eq_false_iff.mpr fun h => absurd (secondOk_bounds h).1 (Nat.not_le.mpr hc)
  unfold nextChunk
  -- the bytes that a chunk reads run out before the ASCII byte, or at it
  rcases rest with _ | ⟨x, _ | ⟨y, _ | ⟨z, rest⟩⟩⟩
  · rcases more with _ | ⟨d, _ | ⟨e, more⟩⟩ <;> simp [hcont, hsecond]
  · cases hx : secondOk b x <;> cases more <;> simp [hcont, hx]
  · cases hx : secondOk b x <;> cases hy : isCont y <;> simp [hcont, hx, hy]
  · rfl

/-- More fuel than bytes makes no difference. -/
theorem chunksAux_fuel {fuel fuel' : Nat} {bytes : List UInt8} (h : bytes.length ≤ fuel)
    (h' : bytes.length ≤ fuel') : chunksAux fuel bytes = chunksAux fuel' bytes := by
  induction fuel generalizing bytes fuel' with
  | zero =>
    obtain rfl := List.length_eq_zero_iff.mp (Nat.le_zero.mp h)
    cases fuel' <;> rfl
  | succ fuel ih =>
    cases bytes with
    | nil => cases fuel' <;> rfl
    | cons b rest =>
      obtain ⟨fuel', rfl⟩ : ∃ n, fuel' = n + 1 := Nat.exists_eq_succ_of_ne_zero (by
        rintro rfl
        cases h')
      have hwidth := (nextChunk_width b rest).1
      rw [List.length_cons] at h h'
      rw [chunksAux, chunksAux, ih]
      all_goals
        rw [List.length_drop, List.length_cons]
        omega

theorem chunks_cons (b : UInt8) (rest : List UInt8) : chunks (b :: rest) =
    nextChunk b rest :: chunks ((b :: rest).drop (nextChunk b rest).width) := by
  have hwidth := (nextChunk_width b rest).1
  rw [chunks, List.length_cons, chunksAux, chunks]
  refine congrArg _ (chunksAux_fuel ?_ (Nat.le_refl _))
  rw [List.length_drop, List.length_cons]
  omega

/-- An ASCII byte always begins a chunk. -/
theorem chunks_append_ascii (bytes : List UInt8) {c : UInt8} (more : List UInt8) (hc : c.toNat < 0x80) :
    chunks (bytes ++ c :: more) = chunks bytes ++ chunks (c :: more) := by
  induction hn : bytes.length using Nat.strong_induction_on generalizing bytes with
  | _ n ih =>
    cases bytes with
    | nil => rfl
    | cons b rest =>
      have hwidth := nextChunk_width b rest
      rw [List.cons_append, chunks_cons, chunks_cons b rest, nextChunk_append_ascii b rest more hc,
        ← List.cons_append, List.drop_append_of_le_length hwidth.2, ih _ ?_ _ rfl, List.cons_append]
      rw [← hn, List.length_drop, List.length_cons]
      omega

theorem lossy_append_ascii (bytes : List UInt8) {c : UInt8} (more : List UInt8) (hc : c.toNat < 0x80) :
    lossy (bytes ++ c :: more) = lossy bytes ++ lossy (c :: more) := by
  rw [lossy, lossy, lossy, chunks_append_ascii bytes more hc, List.map_append]

/-! ## Encoded text -/

theorem isCont_ofNat {n : Nat} (h : n < 0x40) : isCont (UInt8.ofNat (n + 0x80)) = true := by
  rw [isCont_iff, UInt8.toNat_ofNat']
  omega

theorem join_ofNat (high : Nat) {n : Nat} (h : n < 0x40) :
    join high (UInt8.ofNat (n + 0x80)) = high * 64 + n := by
  have hbyte : (UInt8.ofNat (n + 0x80)).toNat = n + 0x80 := UInt8.toNat_ofNat_of_lt' (by
    have : UInt8.size = 256 := rfl
    omega)
  unfold join
  rw [hbyte]
  omega

/-- The second byte of an encoded value is in the range that its first byte allows. -/
theorem secondOk_ofNat {lead n : Nat} (hlead : lead < 0x100) (hn : n < 0x40)
    (he0 : lead = 0xE0 → 0x20 ≤ n) (hed : lead = 0xED → n < 0x20) (hf0 : lead = 0xF0 → 0x10 ≤ n)
    (hf4 : lead = 0xF4 → n < 0x10) :
    secondOk (UInt8.ofNat lead) (UInt8.ofNat (n + 0x80)) = true := by
  simp only [secondOk, UInt8.toNat_ofNat', Bool.and_eq_true, decide_eq_true_eq]
  rw [Nat.mod_eq_of_lt hlead, Nat.mod_eq_of_lt (by omega : n + 0x80 < 2 ^ 8)]
  constructor <;> split_ifs <;> omega

theorem nextChunk_encode_one {v : Nat} (rest : List UInt8) (h : v ≤ 0x7F) :
    nextChunk (UInt8.ofNat v) rest = .scalar (Char.ofNat v) 1 := by
  have hb : (UInt8.ofNat v).toNat = v := by rw [UInt8.toNat_ofNat']; omega
  rw [nextChunk.eq_def, hb, if_pos (by omega)]

theorem nextChunk_encode_two {v : Nat} (rest : List UInt8) (hl : 0x80 ≤ v) (hh : v ≤ 0x7FF) :
    nextChunk (UInt8.ofNat (v / 64 % 0x20 + 0xC0)) (UInt8.ofNat (v % 0x40 + 0x80) :: rest) =
      .scalar (Char.ofNat v) 2 := by
  have hb : (UInt8.ofNat (v / 64 % 0x20 + 0xC0)).toNat = v / 64 + 0xC0 := by
    rw [UInt8.toNat_ofNat']; omega
  have hcont := isCont_ofNat (Nat.mod_lt v (by decide : 0x40 > 0))
  have hvalue : (v / 64 + 0xC0 - 0xC0) * 64 + v % 0x40 = v := by omega
  rw [nextChunk.eq_def, hb, if_neg (by omega), if_neg (by omega), if_pos (by omega)]
  simp only [hcont, if_true]
  rw [join_ofNat _ (Nat.mod_lt v (by decide)), hvalue]

theorem nextChunk_encode_three {v : Nat} (rest : List UInt8) (hl : 0x800 ≤ v)
    (hs : v < 0xD800 ∨ 0xDFFF < v) (hh : v ≤ 0xFFFF) :
    nextChunk (UInt8.ofNat (v / 4096 % 0x10 + 0xE0)) (UInt8.ofNat (v / 64 % 0x40 + 0x80) ::
      UInt8.ofNat (v % 0x40 + 0x80) :: rest) = .scalar (Char.ofNat v) 3 := by
  have hb : (UInt8.ofNat (v / 4096 % 0x10 + 0xE0)).toNat = v / 4096 + 0xE0 := by
    rw [UInt8.toNat_ofNat']; omega
  have hcont := isCont_ofNat (Nat.mod_lt v (by decide : 0x40 > 0))
  have hsecond : secondOk (UInt8.ofNat (v / 4096 % 0x10 + 0xE0))
      (UInt8.ofNat (v / 64 % 0x40 + 0x80)) = true := by
    apply secondOk_ofNat <;> omega
  have hvalue : ((v / 4096 + 0xE0 - 0xE0) * 64 + v / 64 % 0x40) * 64 + v % 0x40 = v := by omega
  rw [nextChunk.eq_def, hb, if_neg (by omega), if_neg (by omega), if_neg (by omega), if_pos (by omega)]
  simp only [hsecond, Bool.not_true, Bool.false_eq_true, if_false]
  rw [if_pos hcont, join_ofNat _ (Nat.mod_lt _ (by decide)), join_ofNat _ (Nat.mod_lt _ (by decide)),
    hvalue]

theorem nextChunk_encode_four {v : Nat} (rest : List UInt8) (hl : 0x10000 ≤ v) (hh : v < 0x110000) :
    nextChunk (UInt8.ofNat (v / 262144 % 0x08 + 0xF0)) (UInt8.ofNat (v / 4096 % 0x40 + 0x80) ::
      UInt8.ofNat (v / 64 % 0x40 + 0x80) :: UInt8.ofNat (v % 0x40 + 0x80) :: rest) =
      .scalar (Char.ofNat v) 4 := by
  have hb : (UInt8.ofNat (v / 262144 % 0x08 + 0xF0)).toNat = v / 262144 + 0xF0 := by
    rw [UInt8.toNat_ofNat']; omega
  have hthird := isCont_ofNat (Nat.mod_lt (v / 64) (by decide : 0x40 > 0))
  have hfourth := isCont_ofNat (Nat.mod_lt v (by decide : 0x40 > 0))
  have hsecond : secondOk (UInt8.ofNat (v / 262144 % 0x08 + 0xF0))
      (UInt8.ofNat (v / 4096 % 0x40 + 0x80)) = true := by
    apply secondOk_ofNat <;> omega
  have hvalue : (((v / 262144 + 0xF0 - 0xF0) * 64 + v / 4096 % 0x40) * 64 + v / 64 % 0x40) * 64 +
      v % 0x40 = v := by omega
  rw [nextChunk.eq_def, hb, if_neg (by omega), if_neg (by omega), if_neg (by omega), if_neg (by omega),
    if_pos (by omega)]
  simp only [hsecond, hthird, Bool.not_true, Bool.false_eq_true, if_false]
  rw [if_pos hfourth, join_ofNat _ (Nat.mod_lt _ (by decide)), join_ofNat _ (Nat.mod_lt _ (by decide)),
    join_ofNat _ (Nat.mod_lt _ (by decide)), hvalue]

/-- The bytes of an encoded character are read back as that character. -/
theorem nextChunk_encode (c : Char) (rest : List UInt8) :
    ∃ b tail, String.utf8EncodeChar c = b :: tail ∧
      nextChunk b (tail ++ rest) = .scalar c (tail.length + 1) := by
  have hvalid : c.toNat < 0xD800 ∨ 0xDFFF < c.toNat ∧ c.toNat < 0x110000 := c.valid
  have hc : Char.ofNat c.toNat = c := Char.ofNat_toNat c
  rw [← hc]
  generalize c.toNat = v at hvalid
  simp only [String.utf8EncodeChar]
  have hv : (Char.ofNat v).val.toNat = v := toNat_ofNat hvalid
  rw [hv]
  split
  · next h => exact ⟨_, _, rfl, nextChunk_encode_one rest h⟩
  next hone =>
  split
  · next h => exact ⟨_, _, rfl, nextChunk_encode_two rest (by omega) h⟩
  next htwo =>
  split
  · next h => exact ⟨_, _, rfl, nextChunk_encode_three rest (by omega) (by omega) h⟩
  next hthree => exact ⟨_, _, rfl, nextChunk_encode_four rest (by omega) (by omega)⟩

theorem chunksAux_encode {fuel : Nat} (cs : List Char)
    (h : (cs.flatMap String.utf8EncodeChar).length ≤ fuel) :
    chunksAux fuel (cs.flatMap String.utf8EncodeChar) =
      cs.map fun c => .scalar c (String.utf8EncodeChar c).length := by
  induction cs generalizing fuel with
  | nil => cases fuel <;> rfl
  | cons c cs ih =>
    obtain ⟨b, tail, hencode, hnext⟩ := nextChunk_encode c (cs.flatMap String.utf8EncodeChar)
    rw [List.flatMap_cons, hencode, List.cons_append] at h ⊢
    obtain ⟨fuel, rfl⟩ : ∃ n, fuel = n + 1 := Nat.exists_eq_succ_of_ne_zero (by
      rintro rfl
      cases h)
    rw [chunksAux, hnext, Chunk.width, List.drop_succ_cons, List.drop_left, List.map_cons, hencode,
      List.length_cons, ih]
    simp only [List.length_cons, List.length_append] at h
    omega

/-- Lossy decoding gives back an encoded text. -/
theorem lossy_encode (cs : List Char) : lossy (cs.flatMap String.utf8EncodeChar) = cs := by
  rw [lossy, chunks, chunksAux_encode cs (Nat.le_refl _), List.map_map]
  exact List.map_id _

theorem invalidWidths_encode (cs : List Char) :
    invalidWidths (cs.flatMap String.utf8EncodeChar) = [] := by
  rw [invalidWidths, chunks, chunksAux_encode cs (Nat.le_refl _), List.filterMap_map]
  exact List.filterMap_eq_nil_iff.mpr fun _ _ => rfl

end Utf8
