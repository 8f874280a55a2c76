import Mathlib.Data.List.Infix
import Mathlib.Data.List.TakeWhile

/-!
# Rewriting the tokens behind a marker

A marker is a sequence of tests on letters; the token behind it runs up to the
next delimiter. `rewrite` is the usual loop: find the marker, put something else
in the place of the token, and go on behind it.

The same can be done letter by letter (`scan`), and then it is plain what one
more letter at the end of the text does.

* `Rule.Lawful.apply_eq`: the loop computes what the scan computes.
* `apply_grows`, `apply_lengthens`, `apply_flips`: one more letter is written, or
  makes no difference, or decides about the last token.
* `apply_both_concat`: the same for two rules that are applied one after the other.
* `rewrite_replaced`: all that the loop does is to replace segments.
-/

namespace Tokens

variable {α : Type*}

/-! ## Markers -/

/-- The text begins with the marker. -/
def startsWith : List (α → Bool) → List α → Bool
  | [], _ => true
  | _ :: _, [] => false
  | test :: marker, a :: text => test a && startsWith marker text

/-- The first place of the marker in the text. -/
def position (marker : List (α → Bool)) : List α → Option Nat
  | [] => if marker.isEmpty then some 0 else none
  | a :: text =>
    if startsWith marker (a :: text) then some 0 else (position marker text).map (· + 1)

/-- The text ends with the marker. -/
def endsWith (marker : List (α → Bool)) (text : List α) : Bool :=
  marker.length ≤ text.length && startsWith marker (text.drop (text.length - marker.length))

section Markers

variable {marker : List (α → Bool)} {text : List α}

theorem length_le_of_startsWith (h : startsWith marker text = true) :
    marker.length ≤ text.length := by
  induction marker generalizing text with
  | nil => exact Nat.zero_le _
  | cons test marker ih =>
    cases text with
    | nil => cases h
    | cons a text =>
      rw [startsWith, Bool.and_eq_true] at h
      exact Nat.succ_le_succ (ih h.2)

/-- Only the letters of the marker's length matter. -/
theorem startsWith_append (rest : List α) (h : marker.length ≤ text.length) :
    startsWith marker (text ++ rest) = startsWith marker text := by
  induction marker generalizing text with
  | nil => rfl
  | cons test marker ih =>
    cases text with
    | nil => cases h
    | cons a text =>
      rw [List.cons_append, startsWith, startsWith, ih (Nat.le_of_succ_le_succ h)]

theorem position_eq_none (h : position marker text = none) (i : Nat) :
    startsWith marker (text.drop i) = false := by
  induction text generalizing i with
  | nil =>
    rw [position] at h
    split at h
    · cases h
    · next hne =>
      rw [List.drop_nil]
      cases marker with
      | nil => exact absurd rfl hne
      | cons test marker => rfl
  | cons a text ih =>
    rw [position] at h
    split at h
    · cases h
    · next hne =>
      cases i with
      | zero => exact Bool.not_eq_true _ ▸ hne
      | succ i => exact ih (Option.map_eq_none_iff.mp h) i

theorem position_eq_some {i : Nat} (h : position marker text = some i) :
    startsWith marker (text.drop i) = true ∧ ∀ j < i, startsWith marker (text.drop j) = false := by
  induction text generalizing i with
  | nil =>
    rw [position] at h
    split at h
    · next hempty =>
      obtain rfl := Option.some.inj h
      rw [List.isEmpty_iff.mp hempty]
      exact ⟨rfl, fun j hj => absurd hj (Nat.not_lt_zero j)⟩
    · cases h
  | cons a text ih =>
    rw [position] at h
    split at h
    · next hstarts =>
      obtain rfl := Option.some.inj h
      exact ⟨hstarts, fun j hj => absurd hj (Nat.not_lt_zero j)⟩
    · next hne =>
      obtain ⟨i, hi, rfl⟩ := Option.map_eq_some_iff.mp h
      obtain ⟨hstarts, hfirst⟩ := ih hi
      refine ⟨hstarts, fun j hj => ?_⟩
      cases j with
      | zero => exact Bool.not_eq_true _ ▸ hne
      | succ j => exact hfirst j (Nat.lt_of_succ_lt_succ hj)

/-- The marker's place is the first at which it stands. -/
theorem position_of_first {i : Nat} (hstarts : startsWith marker (text.drop i) = true)
    (hfirst : ∀ j < i, startsWith marker (text.drop j) = false) : position marker text = some i := by
  cases hposition : position marker text with
  | none =>
    rw [position_eq_none hposition i] at hstarts
    cases hstarts
  | some j =>
    obtain ⟨hthere, hbefore⟩ := position_eq_some hposition
    rcases Nat.lt_trichotomy j i with hlt | rfl | hgt
    · rw [hfirst j hlt] at hthere
      cases hthere
    · rfl
    · rw [hbefore i hgt] at hstarts
      cases hstarts

theorem position_add_length_le {i : Nat} (hmarker : marker ≠ [])
    (h : position marker text = some i) : i + marker.length ≤ text.length := by
  have hle := length_le_of_startsWith (position_eq_some h).1
  have hpos := List.length_pos_iff.mpr hmarker
  rw [List.length_drop] at hle
  omega

/-- The first place of the marker does not depend on what follows it. -/
theorem position_append {i : Nat} (hmarker : marker ≠ []) (rest : List α)
    (h : position marker text = some i) : position marker (text ++ rest) = some i := by
  have hle := position_add_length_le hmarker h
  induction text generalizing i with
  | nil => exact absurd (List.length_eq_zero_iff.mp (by rw [List.length_nil] at hle; omega)) hmarker
  | cons a text ih =>
    have hstarts := startsWith_append rest (Nat.le_of_add_left_le hle)
    rw [position] at h
    rw [List.cons_append, position, ← List.cons_append, hstarts]
    split at h
    · next hhere => rwa [if_pos hhere]
    · next hhere =>
      obtain ⟨j, hj, rfl⟩ := Option.map_eq_some_iff.mp h
      rw [if_neg hhere, ih hj (position_add_length_le hmarker hj), Option.map_some]

/-- Where no marker begins, letters in front only move the first one. -/
theorem position_drop {k : Nat} (h : ∀ j < k, startsWith marker (text.drop j) = false) :
    position marker text = (position marker (text.drop k)).map (k + ·) := by
  cases hposition : position marker (text.drop k) with
  | none =>
    cases hfirst : position marker text with
    | none => rfl
    | some i =>
      obtain ⟨hstarts, -⟩ := position_eq_some hfirst
      rcases Nat.lt_or_ge i k with hlt | hge
      · rw [h i hlt] at hstarts
        cases hstarts
      · have hnone := position_eq_none hposition (i - k)
        rw [List.drop_drop, Nat.add_sub_cancel' hge, hstarts] at hnone
        cases hnone
  | some i =>
    obtain ⟨hstarts, hfirst⟩ := position_eq_some hposition
    rw [List.drop_drop] at hstarts
    refine position_of_first hstarts fun j (hj : j < k + i) => ?_
    rcases Nat.lt_or_ge j k with hlt | hge
    · exact h j hlt
    · have hbefore := hfirst (j - k) (by omega)
      rwa [List.drop_drop, Nat.add_sub_cancel' hge] at hbefore

/-- A prefix of the text ends with the marker where the marker stands in the text. -/
theorem endsWith_take {k : Nat} (hk : k ≤ text.length) : endsWith marker (text.take k) = true ↔
    marker.length ≤ k ∧ startsWith marker (text.drop (k - marker.length)) = true := by
  rw [endsWith, Bool.and_eq_true, decide_eq_true_eq, List.length_take_of_le hk]
  refine and_congr_right fun hle => ?_
  have hdrop : (text.take k).drop (k - marker.length) =
      (text.drop (k - marker.length)).take marker.length := by
    rw [List.drop_take, Nat.sub_sub_self hle]
  have hlength : marker.length ≤ ((text.drop (k - marker.length)).take marker.length).length := by
    rw [List.length_take, List.length_drop]
    omega
  rw [hdrop, ← startsWith_append ((text.drop (k - marker.length)).drop marker.length) hlength,
    List.take_append_drop]

theorem endsWith_iff : endsWith marker text = true ↔ ∃ before last, text = before ++ last ∧
    last.length = marker.length ∧ startsWith marker last = true := by
  rw [endsWith, Bool.and_eq_true, decide_eq_true_eq]
  constructor
  · rintro ⟨hle, hstarts⟩
    refine ⟨_, _, (List.take_append_drop (text.length - marker.length) text).symm, ?_, hstarts⟩
    rw [List.length_drop]
    omega
  · rintro ⟨before, last, rfl, hlength, hstarts⟩
    rw [List.length_append, hlength, Nat.add_sub_cancel, List.drop_left]
    exact ⟨Nat.le_add_left _ _, hstarts⟩

theorem endsWith_append (before : List α) (h : endsWith marker text = true) :
    endsWith marker (before ++ text) = true := by
  obtain ⟨start, last, rfl, hlast⟩ := endsWith_iff.mp h
  exact endsWith_iff.mpr ⟨before ++ start, last, (List.append_assoc ..).symm, hlast⟩

theorem startsWith_concat {test : α → Bool} {a : α} (hlength : text.length = marker.length)
    (h : startsWith (marker ++ [test]) (text ++ [a]) = true) : test a = true := by
  induction marker generalizing text with
  | nil =>
    obtain rfl := List.length_eq_zero_iff.mp hlength
    exact (Bool.and_eq_true _ _ ▸ h).1
  | cons first marker ih =>
    cases text with
    | nil => cases hlength
    | cons b text =>
      rw [List.cons_append, List.cons_append, startsWith, Bool.and_eq_true] at h
      exact ih (Nat.succ.inj hlength) h.2

/-- The last letter passes the last test. -/
theorem endsWith_concat {test : α → Bool} {a : α}
    (h : endsWith (marker ++ [test]) (text ++ [a]) = true) : test a = true := by
  obtain ⟨before, last, htext, hlength, hstarts⟩ := endsWith_iff.mp h
  rw [List.length_append, List.length_singleton] at hlength
  rcases List.eq_nil_or_concat' last with rfl | ⟨start, b, rfl⟩
  · cases hlength
  · rw [← List.append_assoc] at htext
    obtain rfl := List.singleton_inj.mp (List.append_inj' htext rfl).2
    rw [List.length_append, List.length_singleton] at hlength
    exact startsWith_concat (Nat.succ.inj hlength) hstarts

/-- Markers of one length that differ in the first letter. -/
theorem endsWith_apart {marker' : List (α → Bool)} {test test' : α → Bool}
    (hlength : marker.length = marker'.length) (hne : ∀ a, test a = true → test' a = false)
    (h : endsWith (test :: marker) text = true) : endsWith (test' :: marker') text = false := by
  rw [endsWith, Bool.and_eq_true, List.length_cons] at h
  rw [endsWith, List.length_cons, ← hlength]
  obtain ⟨-, hstarts⟩ := h
  cases hlast : text.drop (text.length - (marker.length + 1)) with
  | nil => rw [startsWith, Bool.and_false]
  | cons a last =>
    rw [hlast, startsWith, Bool.and_eq_true] at hstarts
    rw [startsWith, hne a hstarts.1, Bool.false_and, Bool.and_false]

end Markers

/-- The marker that is one text. -/
def literal [BEq α] (pattern : List α) : List (α → Bool) := pattern.map fun b a => a == b

section Literal

variable [BEq α] [LawfulBEq α] {pattern before after text : List α} {i : Nat}

theorem startsWith_literal : startsWith (literal pattern) text = true ↔ pattern <+: text := by
  induction pattern generalizing text with
  | nil => exact iff_of_true rfl List.nil_prefix
  | cons b pattern ih =>
    cases text with
    | nil => exact iff_of_false Bool.false_ne_true (by rintro ⟨_, h⟩; cases h)
    | cons a text =>
      show ((a == b) && startsWith (literal pattern) text) = true ↔ _
      rw [Bool.and_eq_true, beq_iff_eq, ih, List.cons_prefix_cons, eq_comm]

theorem position_literal_eq (h : position (literal pattern) text = some i) :
    text = text.take i ++ pattern ++ text.drop (i + pattern.length) := by
  obtain ⟨rest, hrest⟩ := startsWith_literal.mp (position_eq_some h).1
  rw [← List.drop_drop, ← hrest, List.drop_left, List.append_assoc, hrest, List.take_append_drop]

/-- A text stands first at a place if it cannot be completed before. -/
theorem position_literal_append (hne : pattern ≠ []) :
    position (literal pattern) (before ++ pattern ++ after) = some before.length ↔
      ¬pattern <:+: before ++ pattern.dropLast := by
  have hlength : pattern.dropLast.length + 1 = pattern.length := by
    rw [List.length_dropLast]
    exact Nat.sub_add_cancel (List.length_pos_iff.mpr hne)
  have htext : before ++ pattern ++ after =
      before ++ pattern.dropLast ++ (pattern.getLast hne :: after) := by
    conv_lhs => rw [← List.dropLast_concat_getLast hne]
    simp only [List.append_assoc, List.singleton_append]
  -- before that place, the text is read only as far as it is not completed
  have hbefore : ∀ j < before.length, pattern <+: (before ++ pattern ++ after).drop j ↔
      pattern <+: (before ++ pattern.dropLast).drop j := by
    intro j hj
    have hroom : j + pattern.length ≤ (before ++ pattern.dropLast).length := by
      rw [List.length_append]
      omega
    rw [htext, List.drop_append_of_le_length (Nat.le_of_add_right_le hroom),
      List.isPrefix_append_of_length]
    rw [List.length_drop]
    omega
  constructor
  · rintro hposition ⟨start, rest, heq⟩
    have hstart := congrArg List.length heq
    simp only [List.length_append] at hstart
    have hlt : start.length < before.length := by omega
    have hhere := (position_eq_some hposition).2 start.length hlt
    rw [Bool.eq_false_iff, Ne, startsWith_literal, hbefore _ hlt, ← heq, List.append_assoc,
      List.drop_left] at hhere
    exact hhere (List.prefix_append pattern rest)
  · intro hnot
    refine position_of_first ?_ fun j hj => ?_
    · rw [startsWith_literal, List.append_assoc, List.drop_left]
      exact List.prefix_append pattern after
    · rw [Bool.eq_false_iff, Ne, startsWith_literal, hbefore j hj]
      exact fun hhere => hnot (hhere.isInfix.trans (List.drop_suffix j _).isInfix)

theorem not_infix_of_position (hne : pattern ≠ []) (h : position (literal pattern) text = some i) :
    ¬pattern <:+: text.take i ++ pattern.dropLast := by
  have hle := position_add_length_le (mt List.map_eq_nil_iff.mp hne) h
  have hposition : position (literal pattern) (text.take i ++ pattern ++
      text.drop (i + pattern.length)) = some (text.take i).length := by
    rw [← position_literal_eq h, List.length_take_of_le (Nat.le_of_add_right_le hle), h]
  exact (position_literal_append hne).mp hposition

end Literal

/-! ## The loop and the scan -/

/-- What to look for, and what to put in the place of the tokens that pass the test. -/
structure Rule (α : Type*) where
  marker : List (α → Bool)
  delim : α → Bool
  test : List α → Bool
  substitute : List α

def Rule.replace (rule : Rule α) (token : List α) : List α :=
  if rule.test token then rule.substitute else token

theorem Rule.replace_of_true {rule : Rule α} {token : List α} (h : rule.test token = true) :
    rule.replace token = rule.substitute := if_pos h

theorem Rule.replace_of_false {rule : Rule α} {token : List α} (h : rule.test token = false) :
    rule.replace token = token := if_neg (Bool.not_eq_true _ ▸ h)

/-- The loop. The fuel counts the letters that are left. -/
def rewrite (rule : Rule α) : Nat → List α → List α
  | 0, text => text
  | fuel + 1, text =>
    -- behind a marker at the very end there is no token
    if text.length ≤ rule.marker.length then text
    else
      match position rule.marker text with
      | none => text
      | some i =>
        let start := i + rule.marker.length
        let token := (text.drop start).takeWhile (!rule.delim ·)
        let rest := (text.drop start).dropWhile (!rule.delim ·)
        text.take start ++ rule.replace token ++ rewrite rule fuel rest

/-- Where the scan is: in plain text, of which it has seen something since the last
token, or in a token. -/
inductive Mode (α : Type*) where
  | text (seen : List α)
  | token (token : List α)

structure Scan (α : Type*) where
  /-- What is written for the letters before. -/
  written : List α
  mode : Mode α

namespace Scan

def start : Scan α := ⟨[], .text []⟩

def step (rule : Rule α) (s : Scan α) (a : α) : Scan α :=
  match s.mode with
  | .text seen =>
    if endsWith rule.marker (seen ++ [a]) then ⟨s.written ++ (seen ++ [a]), .token []⟩
    else ⟨s.written, .text (seen ++ [a])⟩
  | .token token =>
    if rule.delim a then ⟨s.written ++ rule.replace token, .text [a]⟩
    else ⟨s.written, .token (token ++ [a])⟩

/-- The result if the text ends here. -/
def result (rule : Rule α) (s : Scan α) : List α :=
  match s.mode with
  | .text seen => s.written ++ seen
  | .token token => s.written ++ rule.replace token

end Scan

def scan (rule : Rule α) (text : List α) : Scan α := text.foldl (Scan.step rule) .start

section Loop

variable {rule : Rule α} {written seen token text : List α} {a : α}

theorem step_text (h : endsWith rule.marker (seen ++ [a]) = false) :
    Scan.step rule ⟨written, .text seen⟩ a = ⟨written, .text (seen ++ [a])⟩ := by
  simp only [Scan.step, h, Bool.false_eq_true, if_false]

theorem step_marker (h : endsWith rule.marker (seen ++ [a]) = true) :
    Scan.step rule ⟨written, .text seen⟩ a = ⟨written ++ (seen ++ [a]), .token []⟩ := by
  simp only [Scan.step, h, if_true]

theorem step_delim (h : rule.delim a = true) : Scan.step rule ⟨written, .token token⟩ a =
    ⟨written ++ rule.replace token, .text [a]⟩ := by simp only [Scan.step, h, if_true]

theorem step_token (h : rule.delim a = false) : Scan.step rule ⟨written, .token token⟩ a =
    ⟨written, .token (token ++ [a])⟩ := by
  simp only [Scan.step, h, Bool.false_eq_true, if_false]

@[simp] theorem result_text : Scan.result rule ⟨written, .text seen⟩ = written ++ seen := rfl

@[simp] theorem result_token :
    Scan.result rule ⟨written, .token token⟩ = written ++ rule.replace token := rfl

/-- Text in which no marker ends is only read. -/
theorem foldl_text (h : ∀ k, k < text.length →
    endsWith rule.marker (seen ++ text.take (k + 1)) = false) :
    text.foldl (Scan.step rule) ⟨written, .text seen⟩ = ⟨written, .text (seen ++ text)⟩ := by
  induction text generalizing seen with
  | nil => rw [List.foldl_nil, List.append_nil]
  | cons a text ih =>
    have hfirst : endsWith rule.marker (seen ++ [a]) = false := h 0 (Nat.succ_pos _)
    rw [List.foldl_cons, step_text hfirst, ih, List.append_assoc, List.singleton_append]
    intro k hk
    have hlater := h (k + 1) (Nat.succ_lt_succ hk)
    rw [List.append_assoc, List.singleton_append]
    exact hlater

theorem foldl_token (h : ∀ a ∈ text, rule.delim a = false) :
    text.foldl (Scan.step rule) ⟨written, .token token⟩ = ⟨written, .token (token ++ text)⟩ := by
  induction text generalizing token with
  | nil => rw [List.foldl_nil, List.append_nil]
  | cons a text ih =>
    rw [List.foldl_cons, step_token (h a List.mem_cons_self),
      ih fun b hb => h b (List.mem_cons_of_mem a hb), List.append_assoc, List.singleton_append]

/-- The scan stays in the text where there is no marker. -/
theorem foldl_position_none (h : position rule.marker text = none) :
    text.foldl (Scan.step rule) ⟨written, .text []⟩ = ⟨written, .text text⟩ := by
  refine foldl_text fun k hk => ?_
  rw [List.nil_append]
  by_contra hends
  rw [Bool.not_eq_false, endsWith_take (Nat.succ_le_of_lt hk)] at hends
  rw [position_eq_none h] at hends
  cases hends.2

/-- The scan enters the token behind the first marker. -/
theorem foldl_position_some {i : Nat} (hmarker : rule.marker ≠ [])
    (h : position rule.marker text = some i) :
    (text.take (i + rule.marker.length)).foldl (Scan.step rule) ⟨written, .text []⟩ =
      ⟨written ++ text.take (i + rule.marker.length), .token []⟩ := by
  obtain ⟨hstarts, hfirst⟩ := position_eq_some h
  have hle := length_le_of_startsWith hstarts
  have hpos := List.length_pos_iff.mpr hmarker
  rw [List.length_drop] at hle
  obtain ⟨n, hn⟩ : ∃ n, i + rule.marker.length = n + 1 := ⟨i + rule.marker.length - 1, by omega⟩
  have hlt : n < text.length := by omega
  have hends : endsWith rule.marker (text.take n ++ [text[n]]) = true := by
    rw [List.take_append_getElem, endsWith_take hlt, Nat.succ_eq_add_one, ← hn, Nat.add_sub_cancel]
    exact ⟨Nat.le_add_left _ _, hstarts⟩
  rw [hn, ← List.take_append_getElem hlt, List.foldl_append, foldl_text, List.nil_append,
    List.foldl_cons, step_marker hends, List.foldl_nil]
  -- before its last letter no marker has ended
  intro k hk
  rw [List.length_take] at hk
  rw [List.nil_append, List.take_take, Nat.min_eq_left (by omega)]
  by_contra hearlier
  rw [Bool.not_eq_false, endsWith_take (by omega)] at hearlier
  rw [hfirst _ (by omega)] at hearlier
  cases hearlier.2

/-- The scan reads the token behind the first marker. -/
theorem foldl_first_token {i : Nat} (hmarker : rule.marker ≠ [])
    (h : position rule.marker text = some i) :
    text.foldl (Scan.step rule) ⟨written, .text []⟩ =
      ((text.drop (i + rule.marker.length)).dropWhile (!rule.delim ·)).foldl (Scan.step rule)
        ⟨written ++ text.take (i + rule.marker.length),
          .token ((text.drop (i + rule.marker.length)).takeWhile (!rule.delim ·))⟩ := by
  have hscan : _ = (⟨written ++ _, .token []⟩ : Scan α) := foldl_position_some hmarker h
  have htoken : ∀ a ∈ (text.drop (i + rule.marker.length)).takeWhile (!rule.delim ·),
      rule.delim a = false := by
    intro a ha
    simpa using List.mem_takeWhile_imp ha
  rw [← List.nil_append ((text.drop _).takeWhile _), ← foldl_token htoken, ← hscan,
    ← List.foldl_append, ← List.foldl_append, List.takeWhile_append_dropWhile,
    List.take_append_drop]

/-- A single letter does not end with a marker. -/
theorem endsWith_singleton (hmarker : 2 ≤ rule.marker.length) (d : α) :
    endsWith rule.marker [d] = false := by
  rw [endsWith, Bool.and_eq_false_iff, decide_eq_false_iff_not]
  exact .inl (Nat.not_le.mpr hmarker)

/-- Behind a token the scan goes on as if the text started there. -/
theorem foldl_delim (hmarker : 2 ≤ rule.marker.length) {d : α} (hdelim : rule.delim d = true) :
    (d :: text).foldl (Scan.step rule) ⟨written, .token token⟩ =
      (d :: text).foldl (Scan.step rule) ⟨written ++ rule.replace token, .text []⟩ := by
  have hlone : endsWith rule.marker ([] ++ [d]) = false := endsWith_singleton hmarker d
  rw [List.foldl_cons, List.foldl_cons, step_delim hdelim, step_text hlone, List.nil_append]

theorem rewrite_nil (rule : Rule α) (fuel : Nat) : rewrite rule fuel [] = [] := by cases fuel <;> rfl

/-- The loop computes what the scan computes. -/
theorem append_rewrite (hmarker : 2 ≤ rule.marker.length) (hnil : rule.test [] = false) {fuel : Nat}
    (hfuel : text.length ≤ fuel) : written ++ rewrite rule fuel text =
      (text.foldl (Scan.step rule) ⟨written, .text []⟩).result rule := by
  have hne : rule.marker ≠ [] := List.length_pos_iff.mp (Nat.lt_of_lt_of_le Nat.two_pos hmarker)
  induction fuel generalizing text written with
  | zero =>
    obtain rfl := List.length_eq_zero_iff.mp (Nat.le_zero.mp hfuel)
    rfl
  | succ fuel ih =>
    cases hposition : position rule.marker text with
    | none =>
      rw [foldl_position_none hposition, rewrite, hposition]
      split <;> rfl
    | some i =>
      have hle := position_add_length_le hne hposition
      rw [foldl_first_token hne hposition, rewrite, hposition]
      split
      · next hshort =>
        -- the marker is all there is
        rw [List.drop_of_length_le (Nat.le_trans hshort (Nat.le_add_left ..)),
          List.take_of_length_le (Nat.le_trans hshort (Nat.le_add_left ..)), List.takeWhile_nil,
          List.dropWhile_nil, List.foldl_nil, result_token, Rule.replace_of_false hnil,
          List.append_nil]
      · simp only
        cases hrest : (text.drop (i + rule.marker.length)).dropWhile (!rule.delim ·) with
        | nil =>
          rw [rewrite_nil, List.foldl_nil, result_token, List.append_nil, List.append_assoc]
        | cons d rest =>
          have hdelim : rule.delim d = true := by
            have hhead := List.head?_dropWhile_not (!rule.delim ·) (text.drop (i + rule.marker.length))
            rw [hrest] at hhead
            simpa using hhead
          have hfewer : (d :: rest).length ≤ fuel := by
            have hdrop := (List.dropWhile_suffix (!rule.delim ·)
              (l := text.drop (i + rule.marker.length))).length_le
            rw [hrest, List.length_drop] at hdrop
            omega
          rw [foldl_delim hmarker hdelim, ← ih hfewer]
          simp only [List.append_assoc]

end Loop

/-! ## One more letter -/

/-- The loop with enough fuel. -/
def Rule.apply (rule : Rule α) (text : List α) : List α := rewrite rule text.length text

namespace Scan

/-- What stays written whatever follows. -/
def emitted (s : Scan α) : List α :=
  match s.mode with
  | .text seen => s.written ++ seen
  | .token _ => s.written

/-- The token that is not over yet. -/
def openToken (s : Scan α) : Option (List α) :=
  match s.mode with
  | .text _ => none
  | .token token => some token

end Scan

/-- The text is not empty and its last letter is no delimiter. -/
def EndsPlain (delim : α → Bool) (text : List α) : Prop :=
  ∃ start a, text = start ++ [a] ∧ delim a = false

theorem EndsPlain.append {delim : α → Bool} {text : List α} (before : List α)
    (h : EndsPlain delim text) : EndsPlain delim (before ++ text) := by
  obtain ⟨start, a, rfl, hdelim⟩ := h
  exact ⟨before ++ start, a, (List.append_assoc ..).symm, hdelim⟩

/-- A rule under which a letter more or less can be told from the result: a marker
ends in a delimiter, and a token that passes the test only with the letter, or
only without it, leaves something else in each case. -/
structure Rule.Lawful (rule : Rule α) : Prop where
  two_le : 2 ≤ rule.marker.length
  marker_delim : ∀ text a, endsWith rule.marker (text ++ [a]) = true → rule.delim a = true
  test_nil : rule.test [] = false
  test_singleton : ∀ a, rule.test [a] = false
  substitute_plain : EndsPlain rule.delim rule.substitute
  replace_ne : ∀ token a, rule.delim a = false → rule.test token ≠ rule.test (token ++ [a]) →
    rule.replace token ≠ rule.replace (token ++ [a])

/-- The letter only makes a token longer that is replaced with it and without it. -/
def Lengthens (rule : Rule α) (text : List α) (a : α) : Prop :=
  ∃ token, (scan rule text).openToken = some token ∧ rule.delim a = false ∧
    rule.test token = true ∧ rule.test (token ++ [a]) = true

/-- The letter decides whether the last token is replaced. -/
def Flips (rule : Rule α) (text : List α) (a : α) : Prop :=
  ∃ token, (scan rule text).openToken = some token ∧ rule.delim a = false ∧
    rule.test token ≠ rule.test (token ++ [a])

section Letter

variable {rule : Rule α} {s : Scan α} {text rest token : List α} {a : α}

theorem result_of_none (h : s.openToken = none) : s.result rule = s.emitted := by
  obtain ⟨written, _ | _⟩ := s
  · rfl
  · cases h

theorem result_of_some (h : s.openToken = some token) :
    s.result rule = s.emitted ++ rule.replace token := by
  obtain ⟨written, _ | _⟩ := s
  · cases h
  · obtain rfl := Option.some.inj h
    rfl

theorem scan_concat : scan rule (text ++ [a]) = (scan rule text).step rule a := by
  rw [scan, List.foldl_append]
  rfl

theorem emitted_prefix_result (s : Scan α) : s.emitted <+: s.result rule := by
  obtain ⟨written, seen | token⟩ := s
  · exact List.prefix_refl _
  · exact List.prefix_append ..

/-- Plain text is written as it is read. -/
theorem emitted_step_text (written seen : List α) (a : α) :
    (Scan.step rule ⟨written, .text seen⟩ a).emitted = written ++ seen ++ [a] := by
  cases hends : endsWith rule.marker (seen ++ [a]) with
  | false => rw [step_text hends, Scan.emitted, List.append_assoc]
  | true => rw [step_marker hends, Scan.emitted, List.append_assoc]

theorem emitted_step (s : Scan α) (a : α) : s.emitted <+: (s.step rule a).emitted := by
  obtain ⟨written, seen | token⟩ := s
  · rw [emitted_step_text]
    exact List.prefix_append ..
  · cases hdelim : rule.delim a with
    | false =>
      rw [step_token hdelim]
      exact List.prefix_refl _
    | true =>
      rw [step_delim hdelim]
      exact (List.prefix_append ..).trans (List.prefix_append ..)

theorem emitted_scan : (scan rule text).emitted <+: (scan rule (text ++ rest)).emitted := by
  induction rest using List.reverseRecOn with
  | nil => rw [List.append_nil]
  | append_singleton rest a ih =>
    rw [← List.append_assoc, scan_concat]
    exact ih.trans (emitted_step _ a)

/-- A delimiter makes everything before it final. -/
theorem emitted_step_delim (h : rule.delim a = true) :
    (s.step rule a).emitted = s.result rule ++ [a] := by
  obtain ⟨written, seen | token⟩ := s
  · exact emitted_step_text written seen a
  · rw [step_delim h]
    rfl

/-- The token that is open has no delimiter in it and stands behind a marker. -/
def Scan.Valid (rule : Rule α) (text : List α) (s : Scan α) : Prop :=
  match s.mode with
  | .text seen => seen <:+ text
  | .token token => endsWith rule.marker s.written = true ∧ ∀ a ∈ token, rule.delim a = false

theorem scan_valid (rule : Rule α) (text : List α) : (scan rule text).Valid rule text := by
  induction text using List.reverseRecOn with
  | nil => exact List.suffix_refl _
  | append_singleton text a ih =>
    rw [scan_concat]
    revert ih
    obtain ⟨written, seen | token⟩ := scan rule text
    · rintro ⟨before, hbefore⟩
      have hseen : seen ++ [a] <:+ text ++ [a] :=
        ⟨before, by rw [← List.append_assoc, hbefore]⟩
      cases hends : endsWith rule.marker (seen ++ [a]) with
      | false => rwa [step_text hends]
      | true =>
        rw [step_marker hends]
        exact ⟨endsWith_append written hends, fun b hb => absurd hb List.not_mem_nil⟩
    · rintro ⟨hwritten, htoken⟩
      cases hdelim : rule.delim a with
      | true =>
        rw [step_delim hdelim]
        exact List.suffix_append ..
      | false =>
        rw [step_token hdelim]
        refine ⟨hwritten, fun b hb => ?_⟩
        rcases List.mem_append.mp hb with hb | hb
        · exact htoken b hb
        · rwa [List.mem_singleton.mp hb]

theorem valid_of_some (h : (scan rule text).openToken = some token) :
    endsWith rule.marker (scan rule text).emitted = true ∧ ∀ a ∈ token, rule.delim a = false := by
  have hvalid := scan_valid rule text
  revert hvalid h
  obtain ⟨written, seen | token'⟩ := scan rule text
  · intro h
    cases h
  · intro h hvalid
    obtain rfl := Option.some.inj h
    exact hvalid

/-- In a token the letter makes the token longer. -/
theorem scan_concat_of_some (h : (scan rule text).openToken = some token)
    (hdelim : rule.delim a = false) :
    (scan rule (text ++ [a])).openToken = some (token ++ [a]) ∧
      (scan rule (text ++ [a])).emitted = (scan rule text).emitted := by
  rw [scan_concat]
  revert h
  obtain ⟨written, seen | token'⟩ := scan rule text
  · intro h
    cases h
  · intro h
    obtain rfl := Option.some.inj h
    rw [step_token hdelim]
    exact ⟨rfl, rfl⟩

variable (lawful : rule.Lawful)

include lawful

theorem Rule.Lawful.apply_eq (text : List α) : rule.apply text = (scan rule text).result rule := by
  show [] ++ rewrite rule text.length text = _
  exact append_rewrite lawful.two_le lawful.test_nil (Nat.le_refl _)

theorem Rule.Lawful.apply_of_none (h : (scan rule text).openToken = none) :
    rule.apply text = (scan rule text).emitted := by
  rw [lawful.apply_eq, result_of_none h]

theorem Rule.Lawful.apply_of_some (h : (scan rule text).openToken = some token) :
    rule.apply text = (scan rule text).emitted ++ rule.replace token := by
  rw [lawful.apply_eq, result_of_some h]

/-- Outside a token the letter is written, and so is a delimiter. -/
theorem apply_concat (h : (scan rule text).openToken = none ∨ rule.delim a = true) :
    rule.apply (text ++ [a]) = rule.apply text ++ [a] := by
  rw [lawful.apply_eq, lawful.apply_eq, scan_concat]
  revert h
  obtain ⟨written, seen | token⟩ := scan rule text
  · intro _
    cases hends : endsWith rule.marker (seen ++ [a]) with
    | false => rw [step_text hends, result_text, result_text, List.append_assoc]
    | true =>
      rw [step_marker hends, result_token, result_text, Rule.replace_of_false lawful.test_nil,
        List.append_nil, List.append_assoc]
  · rintro (h | h)
    · cases h
    · rw [step_delim h]
      rfl

theorem apply_lengthens (h : Lengthens rule text a) : rule.apply (text ++ [a]) = rule.apply text := by
  obtain ⟨token, hopen, hdelim, htest, hlonger⟩ := h
  obtain ⟨hopen', hemitted⟩ := scan_concat_of_some hopen hdelim
  rw [lawful.apply_of_some hopen, lawful.apply_of_some hopen', hemitted,
    Rule.replace_of_true htest, Rule.replace_of_true hlonger]

theorem apply_grows (hlengthens : ¬Lengthens rule text a) (hflips : ¬Flips rule text a) :
    rule.apply (text ++ [a]) = rule.apply text ++ [a] := by
  cases hopen : (scan rule text).openToken with
  | none => exact apply_concat lawful (.inl hopen)
  | some token =>
    cases hdelim : rule.delim a with
    | true => exact apply_concat lawful (.inr hdelim)
    | false =>
      have hsame : rule.test token = rule.test (token ++ [a]) := by
        by_contra hne
        exact hflips ⟨token, hopen, hdelim, hne⟩
      have hkept : rule.test token = false := by
        by_contra htest
        rw [Bool.not_eq_false] at htest
        exact hlengthens ⟨token, hopen, hdelim, htest, hsame ▸ htest⟩
      obtain ⟨hopen', hemitted⟩ := scan_concat_of_some hopen hdelim
      rw [lawful.apply_of_some hopen, lawful.apply_of_some hopen', hemitted,
        Rule.replace_of_false hkept, Rule.replace_of_false (hsame ▸ hkept), List.append_assoc]

/-- Both results of a letter that decides about a token end in a plain letter. -/
theorem endsPlain_replace (h : token ≠ []) (hplain : ∀ a ∈ token, rule.delim a = false) :
    EndsPlain rule.delim (rule.replace token) := by
  cases htest : rule.test token with
  | true => exact rule.replace_of_true htest ▸ lawful.substitute_plain
  | false =>
    rw [rule.replace_of_false htest]
    exact ⟨token.dropLast, token.getLast h, (List.dropLast_append_getLast h).symm,
      hplain _ (List.getLast_mem h)⟩

/-- A token that a letter decides about has a letter already. -/
theorem ne_nil_of_flips (h : rule.test token ≠ rule.test (token ++ [a])) : token ≠ [] := by
  rintro rfl
  rw [List.nil_append, lawful.test_nil, lawful.test_singleton] at h
  exact h rfl

/-- What ends in a plain letter does so after the rewriting. -/
theorem endsPlain_apply (h : EndsPlain rule.delim text) : EndsPlain rule.delim (rule.apply text) := by
  obtain ⟨start, a, rfl, hdelim⟩ := h
  cases hopen : (scan rule start).openToken with
  | none =>
    rw [apply_concat lawful (.inl hopen)]
    exact ⟨_, a, rfl, hdelim⟩
  | some token =>
    have htoken : ∀ b ∈ token ++ [a], rule.delim b = false := by
      intro b hb
      rcases List.mem_append.mp hb with hb | hb
      · exact (valid_of_some hopen).2 b hb
      · rwa [List.mem_singleton.mp hb]
    obtain ⟨last, b, hlast, hb⟩ :=
      endsPlain_replace lawful (List.append_ne_nil_of_right_ne_nil token (List.cons_ne_nil a [])) htoken
    rw [lawful.apply_of_some (scan_concat_of_some hopen hdelim).1, hlast, ← List.append_assoc]
    exact ⟨_, b, rfl, hb⟩

/-- A letter that decides about a token can be told from the result. -/
theorem apply_flips (h : Flips rule text a) : rule.apply (text ++ [a]) ≠ rule.apply text ∧
    EndsPlain rule.delim (rule.apply (text ++ [a])) ∧ EndsPlain rule.delim (rule.apply text) := by
  obtain ⟨token, hopen, hdelim, htest⟩ := h
  obtain ⟨hopen', hemitted⟩ := scan_concat_of_some hopen hdelim
  have hne := lawful.replace_ne token a hdelim htest
  have hends := endsPlain_replace lawful (ne_nil_of_flips lawful htest) (valid_of_some hopen).2
  have hends' := endsPlain_replace lawful (List.concat_ne_nil a token) (valid_of_some hopen').2
  rw [lawful.apply_of_some hopen, lawful.apply_of_some hopen', hemitted]
  exact ⟨fun heq => hne (List.append_cancel_left heq).symm, hends'.append _, hends.append _⟩

/-- Outside a token, plain letters are written as they are. -/
theorem scan_append_plain (h : (scan rule text).openToken = none)
    (hplain : ∀ a ∈ rest, rule.delim a = false) :
    (scan rule (text ++ rest)).openToken = none ∧
      rule.apply (text ++ rest) = rule.apply text ++ rest := by
  induction rest using List.reverseRecOn with
  | nil => exact ⟨(List.append_nil text).symm ▸ h, by rw [List.append_nil, List.append_nil]⟩
  | append_singleton rest a ih =>
    obtain ⟨hopen, happly⟩ := ih fun b hb => hplain b (List.mem_append_left _ hb)
    have hdelim : rule.delim a = false := hplain a (List.mem_append_right _ List.mem_cons_self)
    rw [← List.append_assoc, apply_concat lawful (.inl hopen), happly]
    refine ⟨?_, List.append_assoc ..⟩
    rw [scan_concat]
    revert hopen
    obtain ⟨written, seen | token⟩ := scan rule (text ++ rest)
    · intro _
      cases hends : endsWith rule.marker (seen ++ [a]) with
      | false => rw [step_text hends, Scan.openToken]
      | true =>
        -- a marker would have ended in a delimiter
        rw [lawful.marker_delim _ _ hends] at hdelim
        cases hdelim
    · intro hopen
      cases hopen

theorem apply_prefix (rest : List α) (h : (scan rule text).openToken = none) :
    rule.apply text <+: rule.apply (text ++ rest) := by
  rw [lawful.apply_of_none h, lawful.apply_eq]
  exact emitted_scan.trans (emitted_prefix_result _)

theorem apply_delim_prefix (text rest : List α) (h : rule.delim a = true) :
    rule.apply text ++ [a] <+: rule.apply (text ++ a :: rest) := by
  rw [lawful.apply_eq, lawful.apply_eq, ← emitted_step_delim h, ← scan_concat,
    List.append_cons text a rest]
  exact emitted_scan.trans (emitted_prefix_result _)

/-- Outside a token, different plain letters lead to different results; so do plain
letters and any other ones. -/
theorem apply_append_ne (h : (scan rule text).openToken = none)
    (hplain : ∀ a ∈ token, rule.delim a = false) (hne : token ≠ rest) :
    rule.apply (text ++ token) ≠ rule.apply (text ++ rest) := by
  rw [(scan_append_plain lawful h hplain).2]
  intro heq
  by_cases hrest : ∀ a ∈ rest, rule.delim a = false
  · rw [(scan_append_plain lawful h hrest).2] at heq
    exact hne (List.append_cancel_left heq)
  · -- the first delimiter of `rest` is written
    push Not at hrest
    obtain ⟨d, hd, hdelim⟩ := hrest
    rw [Bool.ne_false_iff] at hdelim
    obtain ⟨before, after, rfl⟩ := List.append_of_mem hd
    have hwritten := apply_delim_prefix lawful (text ++ before) after hdelim
    obtain ⟨more, hmore⟩ := apply_prefix lawful before h
    rw [List.append_assoc, ← heq, ← hmore, List.append_assoc, List.prefix_append_right_inj]
      at hwritten
    have hmem := hwritten.subset (List.mem_append_right more List.mem_cons_self)
    rw [hplain d hmem] at hdelim
    cases hdelim

end Letter

/-! ## Two rules, one after the other -/

/-- The rules have the same delimiters, and no text ends with both markers. -/
structure Compatible (first second : Rule α) : Prop where
  delim_eq : second.delim = first.delim
  apart : ∀ text, endsWith first.marker text = true → endsWith second.marker text = false

/-- The letter only makes a token longer that one of the two rules replaces with it
and without it. -/
def LengthensEither (first second : Rule α) (text : List α) (a : α) : Prop :=
  Lengthens first text a ∨
    ((scan first text).openToken = none ∧ Lengthens second (first.apply text) a)

section TwoRules

variable {first second : Rule α} {text token : List α} {a : α}

variable (lawful₁ : first.Lawful) (lawful₂ : second.Lawful) (compatible : Compatible first second)

include lawful₁ compatible

/-- Behind a marker of the first rule, the second one is outside its tokens. -/
theorem openToken_marker (h : endsWith first.marker text = true) :
    (scan second text).openToken = none := by
  rcases List.eq_nil_or_concat' text with rfl | ⟨before, d, rfl⟩
  · rfl
  · have hvalid := scan_valid second before
    have hdelim : second.delim d = true := by
      rw [compatible.delim_eq]
      exact lawful₁.marker_delim before d h
    rw [scan_concat]
    revert hvalid
    obtain ⟨written, seen | token⟩ := scan second before
    · rintro ⟨start, rfl⟩
      cases hends : endsWith second.marker (seen ++ [d]) with
      | false => rw [step_text hends, Scan.openToken]
      | true =>
        have hboth := endsWith_append start hends
        rw [← List.append_assoc, compatible.apart _ h] at hboth
        cases hboth
    · intro _
      rw [step_delim hdelim, Scan.openToken]

include lawful₂

/-- In a token of the first rule, the second one is outside its own: the token has
no delimiter, so no marker ends in it. -/
theorem openToken_second (h : (scan first text).openToken = some token) :
    (scan second ((scan first text).emitted ++ token)).openToken = none := by
  obtain ⟨hmarker, hplain⟩ := valid_of_some h
  refine (scan_append_plain lawful₂ (openToken_marker lawful₁ compatible hmarker) ?_).1
  rw [compatible.delim_eq]
  exact hplain

/-- A letter that decides about a token of the first rule can be told from the result
of both. -/
theorem apply_flips_first (h : Flips first text a) :
    second.apply (first.apply (text ++ [a])) ≠ second.apply (first.apply text) ∧
      EndsPlain first.delim (second.apply (first.apply (text ++ [a]))) ∧
      EndsPlain first.delim (second.apply (first.apply text)) := by
  obtain ⟨token, hopen, hdelim, htest⟩ := h
  obtain ⟨hopen', hemitted⟩ := scan_concat_of_some hopen hdelim
  have hclosed := openToken_marker lawful₁ compatible (valid_of_some hopen).1
  have hplain := (valid_of_some hopen).2
  have hplain' := (valid_of_some hopen').2
  have hne := lawful₁.replace_ne token a hdelim htest
  have hends := endsPlain_replace lawful₁ (ne_nil_of_flips lawful₁ htest) hplain
  have hends' := endsPlain_replace lawful₁ (List.concat_ne_nil a token) hplain'
  rw [← compatible.delim_eq] at hplain hplain' hends hends' ⊢
  rw [lawful₁.apply_of_some hopen, lawful₁.apply_of_some hopen', hemitted]
  refine ⟨?_, endsPlain_apply lawful₂ (hends'.append _), endsPlain_apply lawful₂ (hends.append _)⟩
  -- one of the two tokens is left as it is, and has no delimiter
  cases hkept : first.test token with
  | false =>
    rw [first.replace_of_false hkept] at hne ⊢
    exact (apply_append_ne lawful₂ hclosed hplain hne).symm
  | true =>
    have hkept' : first.test (token ++ [a]) = false := by
      rw [hkept] at htest
      exact Bool.eq_false_iff.mpr htest.symm
    rw [first.replace_of_false hkept'] at hne ⊢
    exact apply_append_ne lawful₂ hclosed hplain' hne.symm

/-- A letter that the first rule writes and that lengthens a token of the second one
stands outside the tokens of the first one. -/
theorem openToken_none_of_lengthens (hlengthens : ¬Lengthens first text a)
    (hflips : ¬Flips first text a) (h : Lengthens second (first.apply text) a) :
    (scan first text).openToken = none := by
  obtain ⟨token₂, hopen₂, hdelim, -⟩ := h
  rw [compatible.delim_eq] at hdelim
  cases hopen : (scan first text).openToken with
  | none => rfl
  | some token =>
    have hkept : first.test token = false := by
      by_contra htest
      rw [Bool.not_eq_false] at htest
      by_cases hlonger : first.test (token ++ [a]) = true
      · exact hlengthens ⟨token, hopen, hdelim, htest, hlonger⟩
      · exact hflips ⟨token, hopen, hdelim, fun heq => hlonger (heq ▸ htest)⟩
    rw [lawful₁.apply_of_some hopen, first.replace_of_false hkept,
      openToken_second lawful₁ lawful₂ compatible hopen] at hopen₂
    cases hopen₂

/-- What one more letter does to the result of both rules: it is written, or it
lengthens a token that is replaced all the same, or both results are different and
end in plain letters. -/
theorem apply_both_concat (text : List α) (a : α) :
    (¬LengthensEither first second text a ∧
        second.apply (first.apply (text ++ [a])) = second.apply (first.apply text) ++ [a]) ∨
      (LengthensEither first second text a ∧
        second.apply (first.apply (text ++ [a])) = second.apply (first.apply text)) ∨
      (¬LengthensEither first second text a ∧
        second.apply (first.apply (text ++ [a])) ≠ second.apply (first.apply text) ∧
        EndsPlain first.delim (second.apply (first.apply (text ++ [a]))) ∧
        EndsPlain first.delim (second.apply (first.apply text))) := by
  by_cases hlengthens : Lengthens first text a
  · exact .inr (.inl ⟨.inl hlengthens, congrArg _ (apply_lengthens lawful₁ hlengthens)⟩)
  by_cases hflips : Flips first text a
  · refine .inr (.inr ⟨?_, apply_flips_first lawful₁ lawful₂ compatible hflips⟩)
    rintro (h | ⟨hnone, -⟩)
    · exact hlengthens h
    · obtain ⟨token, hsome, -⟩ := hflips
      rw [hnone] at hsome
      cases hsome
  -- the first rule writes the letter
  have hgrows := apply_grows lawful₁ hlengthens hflips
  by_cases hlengthens₂ : Lengthens second (first.apply text) a
  · refine .inr (.inl ⟨.inr ⟨?_, hlengthens₂⟩, ?_⟩)
    · exact openToken_none_of_lengthens lawful₁ lawful₂ compatible hlengthens hflips hlengthens₂
    · rw [hgrows, apply_lengthens lawful₂ hlengthens₂]
  have hneither : ¬LengthensEither first second text a := by
    rintro (h | ⟨-, h⟩)
    · exact hlengthens h
    · exact hlengthens₂ h
  rw [hgrows]
  by_cases hflips₂ : Flips second (first.apply text) a
  · rw [← compatible.delim_eq]
    exact .inr (.inr ⟨hneither, apply_flips lawful₂ hflips₂⟩)
  · exact .inl ⟨hneither, apply_grows lawful₂ hlengthens₂ hflips₂⟩

end TwoRules

/-! ## Segments -/

/-- Segments of a text are replaced: each one follows a lead, runs up to the next delimiter
or the end, and passes the test. All other letters stay. -/
inductive Replaced (lead : List α → Prop) (delim : α → Bool) (test : List α → Prop)
    (substitute : List α) : List α → List α → Prop
  | rest (text : List α) : Replaced lead delim test substitute text text
  | segment (before found token : List α) {text text' : List α} : lead found →
      (∀ a ∈ token, delim a = false) → (∀ a ∈ text.head?, delim a = true) → test token →
      Replaced lead delim test substitute text text' →
      Replaced lead delim test substitute (before ++ found ++ token ++ text)
        (before ++ found ++ substitute ++ text')

section Segments

variable {lead lead' test test' : List α → Prop} {delim : α → Bool} {substitute text text' : List α}

/-- Letters in front change nothing. -/
theorem Replaced.append_left (kept : List α) (h : Replaced lead delim test substitute text text') :
    Replaced lead delim test substitute (kept ++ text) (kept ++ text') := by
  cases h with
  | rest => exact .rest _
  | segment before found token hlead htoken hend htest hrest =>
    have hmore := Replaced.segment (kept ++ before) found token hlead htoken hend htest hrest
    simpa only [List.append_assoc] using hmore

theorem Replaced.mono (hlead : ∀ found, lead found → lead' found)
    (htest : ∀ token, test token → test' token) (h : Replaced lead delim test substitute text text') :
    Replaced lead' delim test' substitute text text' := by
  induction h with
  | rest text => exact .rest text
  | segment before found token hfound htoken hend hpasses _ ih =>
    exact .segment before found token (hlead found hfound) htoken hend (htest token hpasses) ih

/-- A replaced segment is a part of the text. -/
theorem Replaced.eq_or_exists (h : Replaced lead delim test substitute text text') :
    text' = text ∨ ∃ token, token <:+: text ∧ test token := by
  cases h with
  | rest => exact .inl rfl
  | segment before found token _ _ _ htest _ =>
    exact .inr ⟨token, ⟨before ++ found, _, rfl⟩, htest⟩

/-- What stands behind a token begins with a delimiter. -/
theorem head?_dropWhile {a : α} (h : a ∈ (text.dropWhile (!delim ·)).head?) : delim a = true := by
  have hhead := List.head?_dropWhile_not (!delim ·) text
  rw [Option.mem_def.mp h] at hhead
  exact Bool.not_eq_false' .. ▸ hhead

theorem lead_of_position {marker : List (α → Bool)} {i : Nat} (h : position marker text = some i) :
    ((text.drop i).take marker.length).length = marker.length ∧
      startsWith marker ((text.drop i).take marker.length) = true := by
  have hstarts := (position_eq_some h).1
  have hlength : ((text.drop i).take marker.length).length = marker.length :=
    List.length_take_of_le (length_le_of_startsWith hstarts)
  refine ⟨hlength, ?_⟩
  rw [← startsWith_append ((text.drop i).drop marker.length) (Nat.le_of_eq hlength.symm),
    List.take_append_drop, hstarts]

/-- The loop replaces segments. -/
theorem rewrite_replaced (rule : Rule α) (fuel : Nat) (text : List α) :
    Replaced (fun found => found.length = rule.marker.length ∧ startsWith rule.marker found = true)
      rule.delim (rule.test · = true) rule.substitute text (rewrite rule fuel text) := by
  induction fuel generalizing text with
  | zero => exact .rest text
  | succ fuel ih =>
    rw [rewrite]
    split
    · exact .rest text
    cases hposition : position rule.marker text with
    | none => exact .rest text
    | some i =>
      obtain ⟨start, hstart⟩ : ∃ start, start = i + rule.marker.length := ⟨_, rfl⟩
      have hfound : text.take i ++ (text.drop i).take rule.marker.length = text.take start := by
        rw [hstart, List.take_add]
      have htext : text.take start ++ (text.drop start).takeWhile (!rule.delim ·) ++
          (text.drop start).dropWhile (!rule.delim ·) = text := by
        rw [List.append_assoc, List.takeWhile_append_dropWhile, List.take_append_drop]
      have hrest := ih ((text.drop start).dropWhile (!rule.delim ·))
      simp only [← hstart]
      cases htest : rule.test ((text.drop start).takeWhile (!rule.delim ·)) with
      | true =>
        have hsegment := Replaced.segment (text.take i) ((text.drop i).take rule.marker.length) _
          (lead_of_position hposition) (fun a ha => by simpa using List.mem_takeWhile_imp ha)
          (fun a => head?_dropWhile) htest hrest
        rw [hfound, htext] at hsegment
        rw [Rule.replace_of_true htest]
        exact hsegment
      | false =>
        have hkept := hrest.append_left (text.take start ++ (text.drop start).takeWhile (!rule.delim ·))
        rw [htext] at hkept
        rw [Rule.replace_of_false htest]
        exact hkept

end Segments

end Tokens
