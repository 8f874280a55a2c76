import Mathlib.Data.List.Infix
import Mathlib.Data.List.TakeWhile

/-!
# Text as a list of characters

The text operations that the modelled code uses, for any alphabet where they do
not depend on one: substring test, splitting once, trimming, splitting at runs of
separators. White space and lower case are those of Unicode.
-/

namespace Text

variable {α : Type*}

/-! ## Substrings -/

section Substrings

variable [DecidableEq α]

/-- `pattern` occurs in the text. -/
def contains (pattern : List α) : List α → Bool
  | [] => pattern.isEmpty
  | c :: text => pattern.isPrefixOf (c :: text) || contains pattern text

theorem contains_iff {pattern text : List α} : contains pattern text = true ↔ pattern <:+: text := by
  induction text with
  | nil => simp [contains]
  | cons c text ih =>
    rw [contains, Bool.or_eq_true, ih, List.isPrefixOf_iff_prefix, List.infix_cons_iff]

end Substrings

/-- A pattern without the letters of a block is found behind the block or not at all. -/
theorem infix_append_iff_of_not_mem {pattern block text : List α} (hne : pattern ≠ [])
    (h : ∀ c ∈ block, c ∉ pattern) : pattern <:+: block ++ text ↔ pattern <:+: text := by
  refine ⟨fun hinfix => ?_, fun hinfix => hinfix.trans (List.suffix_append ..).isInfix⟩
  induction block with
  | nil => exact hinfix
  | cons c block ih =>
    rw [List.cons_append, List.infix_cons_iff] at hinfix
    rcases hinfix with hprefix | hinfix
    · cases pattern with
      | nil => exact absurd rfl hne
      | cons a pattern =>
        have heq : a = c := (List.cons_prefix_cons.mp hprefix).1
        exact absurd (heq ▸ List.mem_cons_self) (h c List.mem_cons_self)
    · exact ih (fun a ha => h a (List.mem_cons_of_mem c ha)) hinfix

/-- A pattern without a letter does not go beyond it. -/
theorem prefix_append_cons_iff {pattern before after : List α} {c : α} (h : c ∉ pattern) :
    pattern <+: before ++ c :: after ↔ pattern <+: before := by
  refine ⟨fun hprefix => ?_, fun hprefix => hprefix.trans (List.prefix_append ..)⟩
  rcases List.prefix_or_prefix_of_prefix hprefix (List.prefix_append before (c :: after)) with
    hprefix' | ⟨more, rfl⟩
  · exact hprefix'
  · rw [List.prefix_append_right_inj] at hprefix
    cases more with
    | nil => rw [List.append_nil]
    | cons d more =>
      obtain ⟨rfl, -⟩ := List.cons_prefix_cons.mp hprefix
      exact absurd (List.mem_append_right before List.mem_cons_self) h

/-- Two letters of a text: the same one, or the one before the other. -/
theorem letters_cases {before after before' after' : List α} {c d : α}
    (h : before ++ c :: after = before' ++ d :: after') :
    (before' = before ∧ d = c ∧ after' = after) ∨
      (∃ between, before' = before ++ c :: between ∧ after = between ++ d :: after') ∨
        ∃ between, before = before' ++ d :: between ∧ after' = between ++ c :: after := by
  rcases List.append_eq_append_iff.mp h with ⟨more, hbefore, hafter⟩ | ⟨more, hbefore, hafter⟩
  · rcases List.cons_eq_append_iff.mp hafter with ⟨rfl, hsame⟩ | ⟨between, rfl, hbetween⟩
    · obtain ⟨rfl, rfl⟩ := List.cons.inj hsame
      exact .inl ⟨hbefore.trans (List.append_nil before), rfl, rfl⟩
    · exact .inr (.inl ⟨between, hbefore, hbetween⟩)
  · rcases List.cons_eq_append_iff.mp hafter with ⟨rfl, hsame⟩ | ⟨between, rfl, hbetween⟩
    · obtain ⟨rfl, rfl⟩ := List.cons.inj hsame
      exact .inl ⟨(hbefore.trans (List.append_nil before')).symm, rfl, rfl⟩
    · exact .inr (.inr ⟨between, hbefore, hbetween⟩)

/-- A pattern without a letter is on one side of it. -/
theorem infix_append_cons_iff {pattern before after : List α} {c : α} (h : c ∉ pattern) :
    pattern <:+: before ++ c :: after ↔ pattern <:+: before ∨ pattern <:+: after := by
  constructor
  · rw [List.infix_append_iff_ne_nil]
    rintro (hbefore | hafter | ⟨start, rest, -, hrest, rfl, -, hprefix⟩)
    · exact .inl hbefore
    · rcases List.infix_cons_iff.mp hafter with hprefix | hafter
      · cases pattern with
        | nil => exact .inl (List.nil_infix)
        | cons a pattern =>
          have heq : a = c := (List.cons_prefix_cons.mp hprefix).1
          exact absurd (heq ▸ List.mem_cons_self) h
      · exact .inr hafter
    · cases rest with
      | nil => exact absurd rfl hrest
      | cons a rest =>
        have heq : a = c := (List.cons_prefix_cons.mp hprefix).1
        exact absurd (heq ▸ List.mem_append_right start List.mem_cons_self) h
  · rintro (hbefore | hafter)
    · exact hbefore.trans (List.prefix_append ..).isInfix
    · exact hafter.trans ((List.suffix_cons c after).trans (List.suffix_append ..)).isInfix

/-- Two letters that stand nowhere in the block and then right behind it: a pattern that
begins with them is found there, or behind them. -/
theorem infix_append_pair_iff {a b : α} {pattern block text : List α} (hne : a ≠ b)
    (hblock : ¬[a, b] <:+: block) : a :: b :: pattern <:+: block ++ a :: b :: text ↔
      pattern <+: text ∨ a :: b :: pattern <:+: text := by
  induction block with
  | nil =>
    rw [List.nil_append, List.infix_cons_iff, List.infix_cons_iff, List.cons_prefix_cons,
      List.cons_prefix_cons, List.cons_prefix_cons]
    simp only [true_and, hne, false_and, false_or]
  | cons c block ih =>
    have hrest : ¬[a, b] <:+: block := fun h => hblock (h.trans (List.suffix_cons c block).isInfix)
    have hhere : ¬a :: b :: pattern <+: c :: (block ++ a :: b :: text) := by
      rw [List.cons_prefix_cons]
      rintro ⟨rfl, hprefix⟩
      cases block with
      | nil => exact hne (List.cons_prefix_cons.mp hprefix).1.symm
      | cons d block =>
        obtain ⟨rfl, -⟩ := List.cons_prefix_cons.mp hprefix
        exact hblock (List.prefix_append [a, b] block).isInfix
    rw [List.cons_append, List.infix_cons_iff, ih hrest, or_iff_right hhere]

/-! ## Splitting and trimming -/

/-- The text before and after the first separator. -/
def splitOnce (sep : α → Bool) : List α → Option (List α × List α)
  | [] => none
  | c :: text =>
    if sep c then some ([], text)
    else (splitOnce sep text).map fun parts => (c :: parts.1, parts.2)

def trimEnd (space : α → Bool) (text : List α) : List α := (text.reverse.dropWhile space).reverse

def trim (space : α → Bool) (text : List α) : List α := trimEnd space (text.dropWhile space)

/-- The non-empty pieces between runs of separators. -/
def words (space : α → Bool) (text : List α) : List (List α) :=
  (text.splitOnP space).filter fun word => !word.isEmpty

/-- A letter that does not separate goes to the end of the second part. -/
theorem splitOnce_concat {sep : α → Bool} {c : α} (hc : sep c = false) (text : List α) :
    splitOnce sep (text ++ [c]) = (splitOnce sep text).map fun parts => (parts.1, parts.2 ++ [c]) := by
  induction text with
  | nil => simp only [List.nil_append, splitOnce, hc, Bool.false_eq_true, if_false, Option.map_none]
  | cons d text ih =>
    rw [List.cons_append, splitOnce, splitOnce, ih]
    split
    · rfl
    · rw [Option.map_map, Option.map_map]
      rfl

theorem splitOnce_append_cons {sep : α → Bool} {before : List α} {c : α}
    (hbefore : ∀ d ∈ before, sep d = false) (hc : sep c = true) (after : List α) :
    splitOnce sep (before ++ c :: after) = some (before, after) := by
  induction before with
  | nil => rw [List.nil_append, splitOnce, if_pos hc]
  | cons d before ih =>
    obtain ⟨hd, hbefore⟩ := List.forall_mem_cons.mp hbefore
    rw [List.cons_append, splitOnce, if_neg (Bool.not_eq_true _ ▸ hd), ih hbefore, Option.map_some]

theorem dropWhile_eq_self {space : α → Bool} {text : List α} (h : ∀ c ∈ text, space c = false) :
    text.dropWhile space = text := by
  cases text with
  | nil => rfl
  | cons c text =>
    rw [List.dropWhile_cons, if_neg (Bool.not_eq_true _ ▸ h c List.mem_cons_self)]

theorem trim_eq_self {space : α → Bool} {text : List α} (h : ∀ c ∈ text, space c = false) :
    trim space text = text := by
  have hreverse : ∀ c ∈ text.reverse, space c = false := fun c hc => h c (List.mem_reverse.mp hc)
  rw [trim, dropWhile_eq_self h, trimEnd, dropWhile_eq_self hreverse, List.reverse_reverse]

theorem trimEnd_append {space : α → Bool} {text spaces : List α} (h : ∀ c ∈ text, space c = false)
    (hspaces : ∀ c ∈ spaces, space c = true) : trimEnd space (text ++ spaces) = text := by
  have hreverse : ∀ c ∈ text.reverse, space c = false := fun c hc => h c (List.mem_reverse.mp hc)
  rw [trimEnd, List.reverse_append,
    List.dropWhile_append_of_pos fun c hc => hspaces c (List.mem_reverse.mp hc),
    dropWhile_eq_self hreverse, List.reverse_reverse]

/-- Trimming drops only what is tested for. -/
theorem mem_trim {space : α → Bool} {text : List α} {c : α} (hmem : c ∈ text)
    (hc : space c = false) : c ∈ trim space text := by
  have hkept {text : List α} (hmem : c ∈ text) : c ∈ text.dropWhile space := by
    rw [← List.takeWhile_append_dropWhile (p := space) (l := text), List.mem_append] at hmem
    refine hmem.resolve_left fun htaken => ?_
    rw [List.mem_takeWhile_imp htaken] at hc
    cases hc
  rw [trim, trimEnd, List.mem_reverse]
  exact hkept (List.mem_reverse.mpr (hkept hmem))

theorem trim_cons {space : α → Bool} {c : α} (hc : space c = true) (text : List α) :
    trim space (c :: text) = trim space text := by
  rw [trim, List.dropWhile_cons, if_pos hc, trim]

theorem trim_concat {space : α → Bool} {c : α} (hc : space c = true) (text : List α) :
    trim space (text ++ [c]) = trim space text := by
  rw [trim, trim, List.dropWhile_append]
  split
  · next hempty =>
    rw [List.isEmpty_iff.mp hempty, List.dropWhile_cons, if_pos hc, List.dropWhile_nil]
  · rw [trimEnd, trimEnd, List.reverse_concat, List.dropWhile_cons, if_pos hc]

/-- A letter that does not separate goes to the end of the last piece. -/
theorem splitOnP_concat {sep : α → Bool} {c : α} (hc : sep c = false) (text : List α) :
    ∃ pieces last, text.splitOnP sep = pieces ++ [last] ∧
      (text ++ [c]).splitOnP sep = pieces ++ [last ++ [c]] := by
  induction text with
  | nil =>
    refine ⟨[], [], List.splitOnP_nil, ?_⟩
    exact List.splitOnP_eq_singleton fun d hd => List.mem_singleton.mp hd ▸ hc
  | cons d text ih =>
    obtain ⟨pieces, last, hold, hnew⟩ := ih
    rw [List.cons_append, List.splitOnP_cons_eq_if_modifyHead, List.splitOnP_cons_eq_if_modifyHead,
      hold, hnew]
    split
    · exact ⟨[] :: pieces, last, rfl, rfl⟩
    · cases pieces with
      | nil => exact ⟨[], d :: last, rfl, rfl⟩
      | cons piece pieces => exact ⟨(d :: piece) :: pieces, last, rfl, rfl⟩

/-! ## Unicode -/

/-- The property `White_Space`. -/
def isWhiteSpace (c : Char) : Bool :=
  let n := c.toNat
  (0x09 ≤ n && n ≤ 0x0D) || n = 0x20 || n = 0x85 || n = 0xA0 || n = 0x1680 ||
    (0x2000 ≤ n && n ≤ 0x200A) || n = 0x2028 || n = 0x2029 || n = 0x202F || n = 0x205F || n = 0x3000

/-- Lower case, as far as the result is ASCII: two characters outside ASCII have
a lower case that has an ASCII letter in it. -/
def lower (text : List Char) : List Char :=
  text.flatMap fun c =>
    if c = '\u212A' then ['k'] else if c = '\u0130' then ['i', '\u0307'] else [c.toLower]

/-! ## Decimal digits -/

theorem isDigit_bounds {c : Char} (h : c.isDigit = true) : 48 ≤ c.toNat ∧ c.toNat ≤ 57 := by
  rw [Char.isDigit, Bool.and_eq_true, decide_eq_true_eq, decide_eq_true_eq] at h
  exact h

theorem isDigit_toDigits (n : Nat) : ∀ c ∈ Nat.toDigits 10 n, c.isDigit = true :=
  fun _ hc => Nat.isDigit_of_mem_toDigits (by decide) (by decide) hc

theorem toDigits_ascii (n : Nat) : ∀ c ∈ Nat.toDigits 10 n, c.toNat < 0x80 := fun c hc =>
  Nat.lt_of_le_of_lt (isDigit_bounds (isDigit_toDigits n c hc)).2 (by decide)

theorem not_isWhiteSpace_of_isDigit {c : Char} (h : c.isDigit = true) : isWhiteSpace c = false := by
  obtain ⟨hlow, hhigh⟩ := isDigit_bounds h
  simp only [isWhiteSpace, Bool.or_eq_false_iff, Bool.and_eq_false_iff, decide_eq_false_iff_not]
  omega

end Text
