import DahuaBridge.Lib.Fields
import DahuaBridge.Lib.Utf8

/-!
# Hiding the secrets of a text in the log

`redact_http_text` replaces the values of `PasswordDigest=` and then the content of the
elements `<wsse:Password ...>`. What is to be known about it is which secrets can be told
from the result. `Alike` says it on the texts: they differ only where the loops look for
values.

1. `digestLoop_eq`: the first loop hides the values of the field `digests`.
2. `passwordLoop_hidden`: what the second loop does to the text that it has not read.
3. `redact_alike_iff`: both loops end, and the results are the same for the texts that are
   alike and for no others.
4. `redact_quoted`: a digest in quotes stands in the result.
-/

namespace DahuaBridge

open Tokens (Plain Ended First)

/-! ## Source -/

def redacted : List Char := "***REDACTED***".toList

def digestMarker : List Char := "PasswordDigest=".toList

def isDigestEnd (character : Char) : Bool :=
  character = '\x22' || character = '\x27' || Text.isWhiteSpace character || character = '<' ||
    character = ';'

/-- `to_ascii_lowercase`. -/
def toAsciiLowercase (text : List Char) : List Char := text.map Char.toLower

/-- `find` with a string. -/
def findStr (pattern text : List Char) : Option Nat := Tokens.position (Tokens.literal pattern) text

/-- `text.replace_range(value_start..value_end, "***REDACTED***")`. -/
def replaceRange (text : List Char) (valueStart valueEnd : Nat) : List Char :=
  text.take valueStart ++ redacted ++ text.drop valueEnd

/-- The loop over the digests: none if the turns do not suffice. -/
def digestLoop : Nat → Nat → List Char → Option (List Char)
  | 0, _, _ => none
  | turns + 1, searchFrom, text =>
    match findStr digestMarker (text.drop searchFrom) with
    | none => some text
    | some relative =>
      let valueStart := searchFrom + relative + digestMarker.length
      let valueEnd :=
        match (text.drop valueStart).findIdx? isDigestEnd with
        | some offset => valueStart + offset
        | none => text.length
      digestLoop turns (valueStart + redacted.length) (replaceRange text valueStart valueEnd)

/-- The loop over the elements. -/
def passwordLoop : Nat → Nat → List Char → Option (List Char)
  | 0, _, _ => none
  | turns + 1, searchFrom, text =>
    match findStr "<wsse:password".toList (toAsciiLowercase (text.drop searchFrom)) with
    | none => some text
    | some relative =>
      let tagStart := searchFrom + relative
      match findStr ">".toList (text.drop tagStart) with
      | none => some text
      | some openEndRelative =>
        let valueStart := tagStart + openEndRelative + 1
        match findStr "</wsse:password".toList (toAsciiLowercase (text.drop valueStart)) with
        | none => some text
        | some closeRelative =>
          let valueEnd := valueStart + closeRelative
          passwordLoop turns (valueStart + redacted.length) (replaceRange text valueStart valueEnd)

def redactHttpText (turns : Nat) (text : List Char) : Option (List Char) :=
  (digestLoop turns 0 text).bind (passwordLoop turns 0)

def debugHttp (turns : Nat) (data : List UInt8) : Option (List Char) :=
  redactHttpText turns (Utf8.lossy data)

/-! ## The digests -/

/-- What the first loop hides. -/
def digests : Tokens.Field Char := ⟨digestMarker, isDigestEnd, redacted⟩

theorem digests_lawful : digests.Lawful :=
  ⟨by decide, by decide, by decide⟩

/-- The end of the value is the end of the run. -/
theorem drop_valueEnd (text : List Char) (valueStart : Nat) :
    text.drop (match (text.drop valueStart).findIdx? isDigestEnd with
      | some offset => valueStart + offset
      | none => text.length) = (text.drop valueStart).dropWhile (!isDigestEnd ·) := by
  have hfirst : (text.drop valueStart).dropWhile (!isDigestEnd ·) =
      (text.drop valueStart).drop ((text.drop valueStart).findIdx (! !isDigestEnd ·)) :=
    List.dropWhile_eq_drop_findIdx_not
  simp only [Bool.not_not] at hfirst
  rw [hfirst]
  cases hend : (text.drop valueStart).findIdx? isDigestEnd with
  | some offset =>
    obtain ⟨-, hoffset⟩ := List.findIdx?_eq_some_iff_findIdx_eq.mp hend
    rw [hoffset, List.drop_drop]
  | none =>
    rw [List.findIdx?_eq_none_iff_findIdx_eq.mp hend, List.drop_length, List.drop_length]

theorem not_infix_of_findStr {pattern text : List Char} (h : findStr pattern text = none) :
    ¬pattern <:+: text := by
  intro hinside
  obtain ⟨i, hi⟩ := Tokens.exists_position hinside
  rw [findStr, hi] at h
  cases h

/-- The first loop hides the digests in what it has not read. -/
theorem digestLoop_eq (turns : Nat) (done left : List Char) (h : left.length < turns) :
    digestLoop turns done.length (done ++ left) = some (done ++ digests.hideAll left) := by
  induction turns generalizing done left with
  | zero => exact absurd h (Nat.not_lt_zero _)
  | succ turns ih =>
    rw [digestLoop, List.drop_left]
    cases hposition : findStr digestMarker left with
    | none =>
      exact congrArg (fun hidden => some (done ++ hidden))
        (Tokens.hideAll_unmarked digests_lawful (not_infix_of_findStr hposition)).symm
    | some relative =>
      obtain ⟨valueStart, hstart⟩ : ∃ valueStart, valueStart = relative + digestMarker.length := ⟨_, rfl⟩
      have hle : valueStart ≤ left.length := hstart ▸ Tokens.position_add_length_le (by decide) hposition
      obtain ⟨rest, hrest⟩ : ∃ rest, rest = (left.drop valueStart).dropWhile (!isDigestEnd ·) := ⟨_, rfl⟩
      have hvalue : left.drop (relative + digestMarker.length) =
          (left.drop valueStart).takeWhile (!isDigestEnd ·) ++ rest := by
        rw [← hstart, hrest, List.takeWhile_append_dropWhile]
      have hended : Ended isDigestEnd rest := fun c hc => Tokens.head?_dropWhile (hrest ▸ hc)
      have hplain : Plain isDigestEnd ((left.drop valueStart).takeWhile (!isDigestEnd ·)) :=
        fun c hc => by simpa using List.mem_takeWhile_imp hc
      have hhidden := Tokens.hideAll_of_position digests_lawful hposition hvalue hplain hended
      have hdone : done.length + valueStart + redacted.length =
          (done ++ left.take valueStart ++ redacted).length := by
        rw [List.length_append, List.length_append, List.length_take_of_le hle]
      have hshorter : rest.length < turns := by
        have hsuffix : rest.length ≤ (left.drop valueStart).length :=
          hrest ▸ (List.dropWhile_suffix _).length_le
        have hmarker : 0 < digestMarker.length := by decide
        rw [List.length_drop] at hsuffix
        omega
      simp only [replaceRange, drop_valueEnd]
      rw [Nat.add_assoc done.length, ← hstart, List.take_length_add_append, ← List.drop_drop,
        List.drop_left, ← hrest, hdone, ih _ rest hshorter, hhidden, hstart]
      simp only [List.append_assoc]
      rfl

/-! ## The elements -/

def openName : List Char := "wsse:password".toList

def closeName : List Char := "/wsse:password".toList

/-- The text ends with the first tag in it. -/
def Lead (text : List Char) : Prop := ∃ before tag, text = before ++ '<' :: (tag ++ ['>']) ∧
  First Char.toLower '<' openName before tag ∧ '>' ∉ tag

/-- The content ends where the first closing tag begins. -/
def Closing (content rest : List Char) : Prop :=
  ∃ more, rest = '<' :: more ∧ First Char.toLower '<' closeName content more

/-- What the second loop makes of a text. -/
inductive Emptied : List Char → List Char → Prop
  | element {lead content rest rest' : List Char} : Lead lead → Closing content rest →
      Emptied rest rest' → Emptied (lead ++ content ++ rest) (lead ++ redacted ++ rest')
  | rest {text : List Char} : (∀ lead content rest, text = lead ++ content ++ rest → Lead lead →
      ¬Closing content rest) → Emptied text text

section Elements

variable {before before' tag after lead lead' content content' rest rest' text : List Char}

/-- Only the letters from 'A' to 'Z' are changed. -/
theorem toLower_cases (c : Char) : c.toLower = c ∨
    65 ≤ c.toNat ∧ c.toNat ≤ 90 ∧ c.toLower.toNat = c.toNat + 32 := by
  by_cases h : c.val ≥ 'A'.val ∧ c.val ≤ 'Z'.val
  · have hlow : 65 ≤ c.toNat := UInt32.le_iff_toNat_le.mp h.1
    have hhigh : c.toNat ≤ 90 := UInt32.le_iff_toNat_le.mp h.2
    have hlower : c.toLower.val = c.val + 32 := congrArg Char.val (dif_pos h)
    refine .inr ⟨hlow, hhigh, ?_⟩
    show c.toLower.val.toNat = c.toNat + 32
    rw [hlower, UInt32.toNat_add]
    exact Nat.mod_eq_of_lt (Nat.lt_of_le_of_lt (Nat.add_le_add_right hhigh 32) (by decide))
  · exact .inl (dif_neg h)

theorem eq_of_toLower {c : Char} (h : c.toLower = Char.toLower '<') : c = '<' := by
  rcases toLower_cases c with hsame | ⟨hlow, -, hlower⟩
  · exact hsame.symm.trans h
  · rw [h] at hlower
    exact absurd (Nat.add_le_add_right hlow 32) (hlower ▸ by decide)

theorem isDigestEnd_letter {c : Char} (hlow : 65 ≤ c.toNat) (hhigh : c.toNat ≤ 90) :
    isDigestEnd c = false := by
  have hspace : Text.isWhiteSpace c = false := by
    simp only [Text.isWhiteSpace, Bool.or_eq_false_iff, Bool.and_eq_false_iff, decide_eq_false_iff_not]
    omega
  have hne {d : Char} (hd : d.toNat < 65) : c ≠ d := fun heq => Nat.not_le.mpr hd (heq ▸ hlow)
  rw [isDigestEnd, hspace, decide_eq_false (hne (by decide)), decide_eq_false (hne (by decide)),
    decide_eq_false (hne (by decide)), decide_eq_false (hne (by decide))]
  rfl

/-- No end of a digest has its lower case in a plain pattern. -/
theorem toLower_not_mem {pattern : List Char} (hplain : Plain isDigestEnd pattern) (c : Char)
    (h : isDigestEnd c = true) : c.toLower ∉ pattern := by
  rcases toLower_cases c with hsame | ⟨hlow, hhigh, -⟩
  · rw [hsame]
    intro hmem
    rw [hplain c hmem] at h
    cases h
  · rw [isDigestEnd_letter hlow hhigh] at h
    cases h

/-- The '>' behind a tag. -/
theorem first_tag : First Char.toLower '<' openName before (tag ++ '>' :: rest) ↔
    First Char.toLower '<' openName before tag := by
  rw [First, First, List.map_append, List.map_cons, Text.prefix_append_cons_iff (by decide)]

theorem lead_unique (h : Lead lead) (h' : Lead lead') (htext : lead ++ rest = lead' ++ rest') :
    lead = lead' ∧ rest = rest' := by
  obtain ⟨before, tag, rfl, hfirst, htag⟩ := h
  obtain ⟨before', tag', rfl, hfirst', htag'⟩ := h'
  simp only [List.append_assoc, List.cons_append, List.nil_append] at htext
  obtain ⟨rfl, hafter⟩ := (first_tag.mpr hfirst).unique (by decide) (first_tag.mpr hfirst') htext
  rcases Text.letters_cases hafter with ⟨rfl, -, rfl⟩ | ⟨between, rfl, -⟩ | ⟨between, rfl, -⟩
  · exact ⟨rfl, rfl⟩
  · exact absurd (List.mem_append_right tag List.mem_cons_self) htag'
  · exact absurd (List.mem_append_right tag' List.mem_cons_self) htag

theorem closing_unique (h : Closing content rest) (h' : Closing content' rest')
    (htext : content ++ rest = content' ++ rest') : content = content' ∧ rest = rest' := by
  obtain ⟨more, rfl, hfirst⟩ := h
  obtain ⟨more', rfl, hfirst'⟩ := h'
  obtain ⟨rfl, rfl⟩ := hfirst.unique (by decide) hfirst' htext
  exact ⟨rfl, rfl⟩

/-- What the search for a tag finds. -/
theorem first_of_findStr (pattern : List Char) {i : Nat}
    (h : findStr ('<' :: pattern) (toAsciiLowercase text) = some i) : ∃ before after,
      text = before ++ '<' :: after ∧ before.length = i ∧ First Char.toLower '<' pattern before after :=
  Tokens.exists_first (fun _ => eq_of_toLower) h

/-- What the search for the end of the tag finds. -/
theorem tag_of_findStr {i : Nat} (h : findStr ">".toList ('<' :: after) = some i) : ∃ tag rest,
    after = tag ++ '>' :: rest ∧ tag.length + 1 = i ∧ '>' ∉ tag := by
  have hposition : Tokens.position (Tokens.literal [id '>']) (('<' :: after).map id) = some i := by
    rwa [List.map_id]
  obtain ⟨before, rest, htext, hlength, -, hnot⟩ :=
    Tokens.exists_first (f := id) (fun _ heq => heq) hposition
  rw [List.map_id] at hnot
  cases before with
  | nil => cases htext
  | cons c tag =>
    obtain ⟨rfl, rfl⟩ := List.cons.inj htext
    refine ⟨tag, rest, rfl, hlength, fun hmem => hnot ?_⟩
    obtain ⟨start, more, rfl⟩ := List.append_of_mem hmem
    exact ⟨'<' :: start, more, by rw [List.append_assoc]; rfl⟩

/-- What both searches find. -/
theorem lead_of_findStr {relative openEnd : Nat}
    (hopen : findStr ('<' :: openName) (toAsciiLowercase text) = some relative)
    (hend : findStr ">".toList (text.drop relative) = some openEnd) : ∃ lead rest,
      Lead lead ∧ text = lead ++ rest ∧ lead.length = relative + openEnd + 1 := by
  obtain ⟨before, after, rfl, rfl, hfirst⟩ := first_of_findStr openName hopen
  rw [List.drop_left] at hend
  obtain ⟨tag, rest, rfl, rfl, htag⟩ := tag_of_findStr hend
  refine ⟨_, rest, ⟨before, tag, rfl, first_tag.mp hfirst, htag⟩, ?_, ?_⟩
  · simp only [List.append_assoc, List.cons_append, List.nil_append]
  · simp only [List.length_append, List.length_cons, List.length_nil, Nat.add_assoc]

/-! What is not found is not there. -/

theorem not_lead_of_open (hopen : findStr ('<' :: openName) (toAsciiLowercase text) = none)
    (htext : text = lead ++ rest) : ¬Lead lead := by
  rintro ⟨before, tag, rfl, hfirst, -⟩
  simp only [List.append_assoc, List.cons_append, List.nil_append] at htext
  rw [htext] at hopen
  exact not_infix_of_findStr hopen (Tokens.infix_of_start (first_tag.mpr hfirst).1 before '<')

theorem not_lead_of_end {relative : Nat}
    (hopen : findStr ('<' :: openName) (toAsciiLowercase text) = some relative)
    (hend : findStr ">".toList (text.drop relative) = none) (htext : text = lead ++ rest) :
    ¬Lead lead := by
  rintro ⟨before', tag, rfl, hfirst', -⟩
  obtain ⟨before, after, rfl, rfl, hfirst⟩ := first_of_findStr openName hopen
  simp only [List.append_assoc, List.cons_append, List.nil_append] at htext
  obtain ⟨rfl, rfl⟩ := hfirst.unique (by decide) (first_tag.mpr hfirst') htext
  rw [List.drop_left] at hend
  exact not_infix_of_findStr hend ⟨'<' :: tag, rest, by rw [List.append_assoc]; rfl⟩

theorem not_closing_of_findStr
    (h : findStr ('<' :: closeName) (toAsciiLowercase (content ++ rest)) = none) :
    ¬Closing content rest := by
  rintro ⟨more, rfl, hbegins, -⟩
  exact not_infix_of_findStr h (Tokens.infix_of_start hbegins content '<')

/-- The second loop empties the elements in what it has not read. -/
theorem passwordLoop_emptied (turns : Nat) (done left : List Char) (h : left.length < turns) :
    ∃ result, Emptied left result ∧
      passwordLoop turns done.length (done ++ left) = some (done ++ result) := by
  induction turns generalizing done left with
  | zero => exact absurd h (Nat.not_lt_zero _)
  | succ turns ih =>
    rw [passwordLoop, List.drop_left]
    cases hopen : findStr "<wsse:password".toList (toAsciiLowercase left) with
    | none =>
      refine ⟨left, .rest fun lead content rest hleft hlead _ => ?_, rfl⟩
      exact not_lead_of_open hopen (hleft.trans (List.append_assoc ..)) hlead
    | some relative =>
      dsimp only
      rw [List.drop_length_add_append]
      cases hend : findStr ">".toList (left.drop relative) with
      | none =>
        refine ⟨left, .rest fun lead content rest hleft hlead _ => ?_, rfl⟩
        exact not_lead_of_end hopen hend (hleft.trans (List.append_assoc ..)) hlead
      | some openEndRelative =>
        obtain ⟨lead, rest, hlead, rfl, hlength⟩ := lead_of_findStr hopen hend
        have hdone : done.length + relative + openEndRelative + 1 = (done ++ lead).length := by
          rw [List.length_append, hlength]
          simp only [Nat.add_assoc]
        dsimp only
        rw [hdone, ← List.append_assoc, List.drop_left]
        cases hclose : findStr "</wsse:password".toList (toAsciiLowercase rest) with
        | none =>
          refine ⟨lead ++ rest, .rest fun lead' content rest' hleft hlead' => ?_,
            congrArg some (List.append_assoc ..)⟩
          rw [List.append_assoc] at hleft
          obtain ⟨rfl, rfl⟩ := lead_unique hlead hlead' hleft
          exact not_closing_of_findStr hclose
        | some closeRelative =>
          obtain ⟨content, more, rfl, rfl, hclosing⟩ := first_of_findStr closeName hclose
          have hshorter : ('<' :: more).length < turns := by
            rw [List.length_append, List.length_append, hlength] at h
            omega
          obtain ⟨result, hresult, hloop⟩ := ih (done ++ lead ++ redacted) ('<' :: more) hshorter
          refine ⟨lead ++ redacted ++ result, ?_, ?_⟩
          · rw [← List.append_assoc]
            exact .element hlead ⟨more, rfl, hclosing⟩ hresult
          · dsimp only
            rw [replaceRange, List.take_left, List.drop_length_add_append, List.drop_left,
              ← List.length_append, hloop]
            simp only [List.append_assoc]

theorem emptied_element {result : List Char} (hlead : Lead lead) (hclosing : Closing content rest)
    (h : Emptied (lead ++ content ++ rest) result) :
    ∃ rest', Emptied rest rest' ∧ result = lead ++ redacted ++ rest' := by
  generalize htext : lead ++ content ++ rest = text at h
  cases h with
  | element hlead' hclosing' hrest =>
    rw [List.append_assoc, List.append_assoc] at htext
    obtain ⟨rfl, hmore⟩ := lead_unique hlead hlead' htext
    obtain ⟨rfl, rfl⟩ := closing_unique hclosing hclosing' hmore
    exact ⟨_, hrest, rfl⟩
  | rest hnone => exact absurd hclosing (hnone lead content rest htext.symm hlead)

theorem Emptied.unique {result result' : List Char} (h : Emptied text result)
    (h' : Emptied text result') : result = result' := by
  induction h generalizing result' with
  | element hlead hclosing _ ih =>
    obtain ⟨rest', hrest, rfl⟩ := emptied_element hlead hclosing h'
    rw [ih hrest]
  | rest hnone =>
    cases h' with
    | element hlead hclosing _ => exact absurd hclosing (hnone _ _ _ rfl hlead)
    | rest _ => rfl

/-- The closing tag stays, and stands behind what is put in the place of the content. -/
theorem closing_emptied (hclosing : Closing content rest) (h : Emptied rest rest') :
    Closing redacted rest' := by
  obtain ⟨more, rfl, hbegins, -⟩ := hclosing
  have hnot : ¬ '<' :: closeName <:+: redacted.map Char.toLower := fun hinside =>
    absurd (hinside.subset List.mem_cons_self) (by decide)
  generalize htext : '<' :: more = text at h
  cases h with
  | rest _ => exact ⟨more, htext.symm, hbegins, hnot⟩
  | element hlead _ _ =>
    obtain ⟨before, tag, rfl, hfirst, -⟩ := hlead
    simp only [List.append_assoc, List.cons_append] at htext ⊢
    cases before with
    | nil =>
      -- the tag is no closing tag
      obtain rfl := (List.cons.inj htext).2
      rw [List.map_append] at hbegins
      rcases List.prefix_or_prefix_of_prefix hbegins (hfirst.1.trans (List.prefix_append ..)) with
        hclose | hopen
      · exact absurd hclose (by decide)
      · exact absurd hopen (by decide)
    | cons c before =>
      obtain ⟨rfl, rfl⟩ := List.cons.inj htext
      rw [List.append_eq, List.map_append, List.map_cons, Text.prefix_append_cons_iff (by decide)] at hbegins
      refine ⟨_, rfl, ?_, hnot⟩
      show closeName <+: (before ++ _).map Char.toLower
      rw [List.map_append]
      exact hbegins.trans (List.prefix_append ..)

end Elements

/-! ## Which texts are alike -/

/-- The text ends with the first tag in it: a '>' in a digest does not end the tag. -/
def Opening (text : List Char) : Prop := ∃ before tag, text = before ++ '<' :: (tag ++ ['>']) ∧
  First Char.toLower '<' openName before tag ∧ ¬digests.InValue tag ∧
    ∀ start more, tag = start ++ '>' :: more → digests.InValue start

/-- The texts differ in digests and in the content of elements. -/
inductive Alike : List Char → List Char → Prop
  | digests {text text' : List Char} : digests.Same text text' → Alike text text'
  | element {lead lead' content content' rest rest' : List Char} : digests.Same lead lead' →
      Opening lead → Opening lead' → Closing content rest → Closing content' rest' →
      Alike rest rest' → Alike (lead ++ content ++ rest) (lead' ++ content' ++ rest')

section Alike

variable {before after lead lead' content content' rest rest' text text' : List Char}

/-- The first loop keeps the tags where they are. -/
theorem first_hideAll {pattern : List Char} (hplain : Plain isDigestEnd pattern)
    (hshort : pattern.length ≤ digestMarker.length) :
    First Char.toLower '<' pattern (digests.hideAll before) (digests.hideAll after) ↔
      First Char.toLower '<' pattern before after :=
  Tokens.first_hideAll digests_lawful hshort (toLower_not_mem hplain) (by decide) (by decide)
    (by decide) fun _ => eq_of_toLower

theorem hideAll_lt (before rest : List Char) : digests.hideAll (before ++ '<' :: rest) =
    digests.hideAll before ++ '<' :: digests.hideAll rest :=
  Tokens.hideAll_written digests_lawful (by decide) (.inl (by decide)) rest

theorem hideAll_gt (h : ¬digests.InValue before) (rest : List Char) :
    digests.hideAll (before ++ '>' :: rest) = digests.hideAll before ++ '>' :: digests.hideAll rest :=
  Tokens.hideAll_written digests_lawful (by decide) (.inr h) rest

/-! What stands in the hidden text comes from the text. -/

theorem exists_of_lt (h : digests.hideAll text = before ++ '<' :: after) : ∃ start more,
    text = start ++ '<' :: more ∧ digests.hideAll start = before ∧ digests.hideAll more = after := by
  obtain ⟨start, more, htext, -, hstart, hmore⟩ :=
    Tokens.exists_of_hideAll digests_lawful (by decide) (by decide) h
  exact ⟨start, more, htext, hstart, hmore⟩

theorem exists_of_gt (h : digests.hideAll text = before ++ '>' :: after) : ∃ start more,
    text = start ++ '>' :: more ∧ ¬digests.InValue start ∧ digests.hideAll start = before ∧
      digests.hideAll more = after := by
  obtain ⟨start, more, htext, hwritten, hstart, hmore⟩ :=
    Tokens.exists_of_hideAll digests_lawful (by decide) (by decide) h
  exact ⟨start, more, htext, hwritten.resolve_left (by decide), hstart, hmore⟩

theorem hideAll_opening (h : Opening lead) : Lead (digests.hideAll lead) ∧
    ∀ rest, digests.hideAll (lead ++ rest) = digests.hideAll lead ++ digests.hideAll rest := by
  obtain ⟨before, tag, rfl, hfirst, hnot, hvalues⟩ := h
  have hhidden (rest : List Char) : digests.hideAll (before ++ '<' :: (tag ++ '>' :: rest)) =
      digests.hideAll before ++ '<' :: (digests.hideAll tag ++ '>' :: digests.hideAll rest) := by
    rw [hideAll_lt, hideAll_gt hnot]
  have hnil : digests.hideAll [] = [] := Tokens.hideAll_nil digests_lawful
  simp only [List.append_assoc, List.cons_append, List.nil_append, hhidden, hnil, implies_true, and_true]
  refine ⟨_, _, rfl, (first_hideAll (by decide) (by decide)).mpr hfirst, fun hmem => ?_⟩
  obtain ⟨start, more, hsplit⟩ := List.append_of_mem hmem
  obtain ⟨start, more, rfl, hout, -⟩ := exists_of_gt hsplit
  exact hout (hvalues start more rfl)

theorem hideAll_closing (h : Closing content rest) :
    Closing (digests.hideAll content) (digests.hideAll rest) ∧
      digests.hideAll (content ++ rest) = digests.hideAll content ++ digests.hideAll rest := by
  obtain ⟨more, rfl, hfirst⟩ := h
  have hrest : digests.hideAll ('<' :: more) = '<' :: digests.hideAll more :=
    Tokens.hideAll_cons digests_lawful (by decide) more
  rw [hideAll_lt, hrest]
  exact ⟨⟨_, rfl, (first_hideAll (by decide) (by decide)).mpr hfirst⟩, rfl⟩

theorem hideAll_element (hopening : Opening lead) (hclosing : Closing content rest) :
    digests.hideAll (lead ++ content ++ rest) =
      digests.hideAll lead ++ digests.hideAll content ++ digests.hideAll rest := by
  rw [List.append_assoc, (hideAll_opening hopening).2, (hideAll_closing hclosing).2, List.append_assoc]

/-- A first tag of the hidden text comes from one of the text. -/
theorem exists_opening (hlead : Lead lead) (h : digests.hideAll text = lead ++ rest) :
    ∃ start more, text = start ++ more ∧ Opening start ∧ digests.hideAll start = lead ∧
      digests.hideAll more = rest := by
  obtain ⟨before, tag, rfl, hfirst, hgt⟩ := hlead
  simp only [List.append_assoc, List.cons_append, List.nil_append] at h
  obtain ⟨before, after, rfl, rfl, hafter⟩ := exists_of_lt h
  obtain ⟨tag, more, rfl, hnot, rfl, rfl⟩ := exists_of_gt hafter
  have hvalues (start rest : List Char) (htag : tag = start ++ '>' :: rest) : digests.InValue start := by
    by_contra hout
    rw [htag, hideAll_gt hout] at hgt
    exact hgt (List.mem_append_right _ List.mem_cons_self)
  have hfirst := (first_hideAll (by decide) (by decide)).mp hfirst
  refine ⟨before ++ '<' :: (tag ++ ['>']), more, ?_, ⟨before, tag, rfl, hfirst, hnot, hvalues⟩, ?_, rfl⟩
  · simp only [List.append_assoc, List.cons_append, List.nil_append]
  · rw [hideAll_lt, hideAll_gt hnot, Tokens.hideAll_nil digests_lawful]

theorem exists_closing (hclosing : Closing content rest) (h : digests.hideAll text = content ++ rest) :
    ∃ start more, text = start ++ more ∧ Closing start more ∧ digests.hideAll start = content ∧
      digests.hideAll more = rest := by
  obtain ⟨after, rfl, hfirst⟩ := hclosing
  obtain ⟨start, more, rfl, rfl, rfl⟩ := exists_of_lt h
  refine ⟨start, '<' :: more, rfl, ⟨more, rfl, (first_hideAll (by decide) (by decide)).mp hfirst⟩, rfl, ?_⟩
  exact Tokens.hideAll_cons digests_lawful (by decide) more

theorem exists_element (hlead : Lead lead) (hclosing : Closing content rest)
    (h : digests.hideAll text = lead ++ content ++ rest) :
    ∃ start between more, text = start ++ between ++ more ∧ Opening start ∧ Closing between more ∧
      digests.hideAll start = lead ∧ digests.hideAll more = rest := by
  rw [List.append_assoc] at h
  obtain ⟨start, after, rfl, hopening, hstart, hafter⟩ := exists_opening hlead h
  obtain ⟨between, more, rfl, hclosing, -, hmore⟩ := exists_closing hclosing hafter
  exact ⟨start, between, more, (List.append_assoc ..).symm, hopening, hclosing, hstart, hmore⟩

/-- The emptied text still has its closing tag, so it cannot be a text without elements. -/
theorem not_uncut {hidden : List Char} (hlead : Lead lead) (hclosing : Closing content rest)
    (hrest : Emptied rest rest') (htext : lead ++ redacted ++ rest' = hidden)
    (hnone : ∀ lead content rest, hidden = lead ++ content ++ rest → Lead lead → ¬Closing content rest) :
    False :=
  hnone lead redacted rest' htext.symm hlead (closing_emptied hclosing hrest)

theorem alike_of_eq {hidden hidden' result : List Char} (h : Emptied hidden result)
    (h' : Emptied hidden' result) (htext : digests.hideAll text = hidden)
    (htext' : digests.hideAll text' = hidden') : Alike text text' := by
  induction h generalizing text text' hidden' with
  | @element lead content rest rest' hlead hclosing hrest ih =>
    generalize hresult : lead ++ redacted ++ rest' = result at h'
    cases h' with
    | element hlead' hclosing' hrest' =>
      rw [List.append_assoc, List.append_assoc] at hresult
      obtain ⟨rfl, hmore⟩ := lead_unique hlead hlead' hresult
      obtain rfl := List.append_cancel_left hmore
      obtain ⟨start, between, more, rfl, hopening, hbetween, hstart, hmore⟩ :=
        exists_element hlead hclosing htext
      obtain ⟨start', between', more', rfl, hopening', hbetween', hstart', hmore'⟩ :=
        exists_element hlead hclosing' htext'
      have hsame := (Tokens.hideAll_eq_iff digests_lawful).mp (hstart.trans hstart'.symm)
      exact .element hsame hopening hopening' hbetween hbetween' (ih hrest' hmore hmore')
    | rest hnone => exact (not_uncut hlead hclosing hrest hresult hnone).elim
  | rest hnone =>
    cases h' with
    | element hlead hclosing hrest => exact (not_uncut hlead hclosing hrest rfl hnone).elim
    | rest _ => exact .digests ((Tokens.hideAll_eq_iff digests_lawful).mp (htext.trans htext'.symm))

/-- What is left to tell texts apart. -/
theorem alike_iff {result result' : List Char} (h : Emptied (digests.hideAll text) result)
    (h' : Emptied (digests.hideAll text') result') : result = result' ↔ Alike text text' := by
  constructor
  · rintro rfl
    exact alike_of_eq h h' rfl rfl
  · intro halike
    induction halike generalizing result result' with
    | digests hsame =>
      rw [(Tokens.hideAll_eq_iff digests_lawful).mpr hsame] at h
      exact h.unique h'
    | element hsame hopening hopening' hclosing hclosing' _ ih =>
      rw [hideAll_element hopening hclosing] at h
      rw [hideAll_element hopening' hclosing'] at h'
      obtain ⟨rest, hrest, rfl⟩ :=
        emptied_element (hideAll_opening hopening).1 (hideAll_closing hclosing).1 h
      obtain ⟨rest', hrest', rfl⟩ :=
        emptied_element (hideAll_opening hopening').1 (hideAll_closing hclosing').1 h'
      rw [ih hrest hrest', (Tokens.hideAll_eq_iff digests_lawful).mpr hsame]

/-- Both loops end, whatever the text. -/
theorem redactHttpText_emptied (text : List Char) : ∃ turns result,
    Emptied (digests.hideAll text) result ∧
      ∀ more, redactHttpText (turns + more) text = some result := by
  obtain ⟨result, hresult, -⟩ := passwordLoop_emptied _ [] (digests.hideAll text) (Nat.lt_succ_self _)
  refine ⟨text.length + (digests.hideAll text).length + 1, result, hresult, fun more => ?_⟩
  have hturns (n : Nat) (h : n ≤ text.length + (digests.hideAll text).length) :
      n < text.length + (digests.hideAll text).length + 1 + more :=
    Nat.lt_of_lt_of_le (Nat.lt_succ_of_le h) (Nat.le_add_right _ more)
  have hdigests := digestLoop_eq _ [] text (hturns _ (Nat.le_add_right _ _))
  obtain ⟨result', hresult', hloop⟩ :=
    passwordLoop_emptied _ [] (digests.hideAll text) (hturns _ (Nat.le_add_left _ _))
  rw [List.length_nil, List.nil_append, List.nil_append] at hdigests hloop
  rw [hresult.unique hresult', redactHttpText, hdigests]
  exact hloop

end Alike

/-- Both loops end, and they make the same of two texts exactly if the texts differ only in
what the loops take for the secrets. -/
theorem redact_alike_iff (text text' : List Char) : ∃ turns result result',
    (∀ more, redactHttpText (turns + more) text = some result) ∧
      (∀ more, redactHttpText (turns + more) text' = some result') ∧
        (result = result' ↔ Alike text text') := by
  obtain ⟨turns, result, hresult, hloops⟩ := redactHttpText_emptied text
  obtain ⟨turns', result', hresult', hloops'⟩ := redactHttpText_emptied text'
  refine ⟨turns + turns', result, result', fun more => ?_, fun more => ?_, alike_iff hresult hresult'⟩
  · rw [Nat.add_assoc]
    exact hloops _
  · rw [Nat.add_comm turns, Nat.add_assoc]
    exact hloops' _

/-- Whatever the bytes are, the log gets its text. -/
theorem debugHttp_ends (data : List UInt8) :
    ∃ turns result, ∀ more, debugHttp (turns + more) data = some result := by
  obtain ⟨turns, result, -, hloops⟩ := redactHttpText_emptied (Utf8.lossy data)
  exact ⟨turns, result, hloops⟩

/-! ## A digest in quotes -/

theorem emptied_of_not_mem {text : List Char} (h : '<' ∉ text) : Emptied text text := by
  refine .rest fun lead content rest htext hlead _ => h ?_
  obtain ⟨before, tag, rfl, -⟩ := hlead
  rw [htext, List.append_assoc, List.append_assoc]
  exact List.mem_append_right before (List.mem_append_left _ List.mem_cons_self)

/-- The value ends at its opening quote, and the secret stays behind it. -/
theorem redact_quoted {quote : Char} {secret : List Char} (hquote : quote = '\x22' ∨ quote = '\x27')
    (hdigest : ¬digestMarker <:+: secret) (htag : '<' ∉ secret) : ∃ turns, ∀ more,
      redactHttpText (turns + more) (digestMarker ++ quote :: (secret ++ [quote])) =
        some (digestMarker ++ redacted ++ quote :: (secret ++ [quote])) := by
  obtain ⟨hmarker, hend, hlt⟩ : quote ∉ digestMarker ∧ isDigestEnd quote = true ∧ quote ≠ '<' := by
    rcases hquote with rfl | rfl <;> exact ⟨by decide, by decide, by decide⟩
  have hsecret : ¬digestMarker <:+: secret ++ [quote] := by
    rw [Text.infix_append_cons_iff hmarker]
    exact not_or.mpr ⟨hdigest, by decide⟩
  have hhidden : digests.hideAll (digestMarker ++ quote :: (secret ++ [quote])) =
      digestMarker ++ redacted ++ quote :: (secret ++ [quote]) := by
    rw [Tokens.hideAll_written digests_lawful hmarker (.inl hend),
      Tokens.hideAll_unmarked digests_lawful hsecret]
    exact congrArg (· ++ _) (by decide)
  have hnone : '<' ∉ digestMarker ++ redacted ++ quote :: (secret ++ [quote]) := by
    simp only [List.mem_append, List.mem_cons, List.not_mem_nil, or_false, not_or]
    exact ⟨⟨by decide, by decide⟩, hlt.symm, htag, hlt.symm⟩
  obtain ⟨turns, result, hresult, hloops⟩ :=
    redactHttpText_emptied (digestMarker ++ quote :: (secret ++ [quote]))
  rw [hhidden] at hresult
  obtain rfl := hresult.unique (emptied_of_not_mem hnone)
  exact ⟨turns, hloops⟩

/-- A secret in which no other one begins. -/
def Unmarked (secret : List Char) : Prop :=
  ¬digestMarker <:+: secret ∧ ¬ '<' :: openName <:+: toAsciiLowercase secret

/-- The texts differ in secrets only: in the values of digests, in quotes or up to white space,
'<' or ';', and in the content of elements. -/
inductive SecretsOnly : List Char → List Char → Prop
  | nil : SecretsOnly [] []
  | letter (c : Char) {text text' : List Char} : SecretsOnly text text' →
      SecretsOnly (c :: text) (c :: text')
  | quoted (quote : Char) (secret secret' : List Char) {text text' : List Char} :
      quote = '\x22' ∨ quote = '\x27' → quote ∉ secret ++ secret' → Unmarked secret →
      Unmarked secret' → SecretsOnly text text' →
      SecretsOnly (digestMarker ++ quote :: (secret ++ quote :: text))
        (digestMarker ++ quote :: (secret' ++ quote :: text'))
  | unquoted (secret secret' : List Char) {text text' : List Char} :
      (∀ c ∈ secret ++ secret', Text.isWhiteSpace c = false ∧ c ≠ '<' ∧ c ≠ ';') →
      (∀ c ∈ secret.head?, c ≠ '\x22' ∧ c ≠ '\x27') → (∀ c ∈ secret'.head?, c ≠ '\x22' ∧ c ≠ '\x27') →
      (∀ c ∈ text.head?, Text.isWhiteSpace c = true ∨ c = '<' ∨ c = ';') →
      Unmarked secret → Unmarked secret' → SecretsOnly text text' →
      SecretsOnly (digestMarker ++ secret ++ text) (digestMarker ++ secret' ++ text')
  | element (attributes secret secret' : List Char) {text text' : List Char} :
      '<' ∉ attributes → '>' ∉ attributes → '<' ∉ secret ++ secret' → Unmarked secret →
      Unmarked secret' → SecretsOnly text text' →
      SecretsOnly
        ("<wsse:Password".toList ++ attributes ++ '>' :: (secret ++ "</wsse:Password>".toList ++ text))
        ("<wsse:Password".toList ++ attributes ++
          '>' :: (secret' ++ "</wsse:Password>".toList ++ text'))

/-- Two digests in quotes lead to two results. -/
theorem redact_tells : ¬∀ text text' : List Char, SecretsOnly text text' → ∃ turns result,
    ∀ more, redactHttpText (turns + more) text = some result ∧
      redactHttpText (turns + more) text' = some result := by
  intro h
  have hsecrets : SecretsOnly (digestMarker ++ "\"a\"".toList) (digestMarker ++ "\"b\"".toList) :=
    .quoted '\x22' ['a'] ['b'] (.inl rfl) (by decide) ⟨by decide, by decide⟩ ⟨by decide, by decide⟩ .nil
  obtain ⟨turns, result, hsame⟩ := h _ _ hsecrets
  obtain ⟨turns₁, hfirst⟩ := redact_quoted (.inl rfl) (show ¬digestMarker <:+: ['a'] by decide) (by decide)
  obtain ⟨turns₂, hsecond⟩ := redact_quoted (.inl rfl) (show ¬digestMarker <:+: ['b'] by decide) (by decide)
  obtain ⟨ha, hb⟩ := hsame (turns₁ + turns₂)
  have ha' := hfirst (turns + turns₂)
  have hb' := hsecond (turns + turns₁)
  rw [Nat.add_left_comm] at ha'
  rw [Nat.add_left_comm, Nat.add_comm turns₂] at hb'
  have heq := Option.some.inj ((ha'.symm.trans ha).trans (hb.symm.trans hb'))
  exact absurd heq (by decide)

end DahuaBridge
