import DahuaBridge.Lib.Tokens

/-!
# Runs between delimiters

A text falls into runs of plain letters with delimiters between them. A rewriting does
something to a whole run or leaves it, and keeps every delimiter; so the result has the same
runs in the same order.

* `apply_run`: a run is replaced if a token is open before it, and is written otherwise.
* `exists_of_delim`: a delimiter of the result is one of the text.
* `apply_eq_self`: where every token is its own substitute, nothing changes.
* `open_marker_iff`: of markers that stand in each other's tokens, every other one counts.
-/

namespace Tokens

variable {α : Type*}

/-! ## Runs -/

/-- The text is empty or ends in a delimiter. -/
def Closed (delim : α → Bool) (text : List α) : Prop := ∀ a ∈ text.getLast?, delim a = true

/-- There is no delimiter in the token. -/
def Plain (delim : α → Bool) (token : List α) : Prop := ∀ a ∈ token, delim a = false

instance (delim : α → Bool) (token : List α) : Decidable (Plain delim token) :=
  List.decidableBAll _ token

section Runs

variable {delim : α → Bool} {text before before' token token' : List α} {a : α}

theorem closed_nil : Closed delim [] := fun _ ha => absurd ha (Option.not_mem_none _)

theorem closed_concat (ha : delim a = true) (text : List α) : Closed delim (text ++ [a]) := by
  intro b hb
  rw [List.getLast?_concat] at hb
  exact Option.some.inj hb ▸ ha

/-- A closed text that is not empty has a last delimiter. -/
theorem Closed.eq_concat (h : Closed delim text) (hne : text ≠ []) :
    ∃ before a, text = before ++ [a] ∧ delim a = true := by
  rcases List.eq_nil_or_concat' text with rfl | ⟨before, a, rfl⟩
  · exact absurd rfl hne
  · exact ⟨before, a, rfl, h a (List.getLast?_concat ..)⟩

theorem plain_nil : Plain delim [] := fun _ ha => absurd ha List.not_mem_nil

/-- A text that is closed and plain is empty. -/
theorem Plain.eq_nil (h : Plain delim text) (hclosed : Closed delim text) : text = [] := by
  by_contra hne
  obtain ⟨before, a, rfl, ha⟩ := hclosed.eq_concat hne
  rw [h a (List.mem_append_right _ List.mem_cons_self)] at ha
  cases ha

theorem Closed.of_append (h : Closed delim (before ++ token)) : Closed delim token := by
  intro a ha
  exact h a (by rw [List.getLast?_append, Option.mem_def.mp ha]; rfl)

/-- Every text ends in a run. -/
theorem exists_run (delim : α → Bool) (text : List α) :
    ∃ before token, text = before ++ token ∧ Closed delim before ∧ Plain delim token := by
  induction text using List.reverseRecOn with
  | nil => exact ⟨[], [], rfl, closed_nil, plain_nil⟩
  | append_singleton text a ih =>
    obtain ⟨before, token, rfl, hclosed, hplain⟩ := ih
    cases ha : delim a with
    | true => exact ⟨_, [], (List.append_nil _).symm, closed_concat ha _, plain_nil⟩
    | false =>
      refine ⟨before, token ++ [a], List.append_assoc .., hclosed, fun b hb => ?_⟩
      rcases List.mem_append.mp hb with hb | hb
      · exact hplain b hb
      · rwa [List.mem_singleton.mp hb]

/-- The last run is determined. -/
theorem run_unique (hclosed : Closed delim before) (hplain : Plain delim token)
    (hclosed' : Closed delim before') (hplain' : Plain delim token')
    (h : before ++ token = before' ++ token') : before = before' ∧ token = token' := by
  have hsame : before = before' := by
    rcases List.append_eq_append_iff.mp h with ⟨more, rfl, rfl⟩ | ⟨more, rfl, rfl⟩
    · have hnil : more = [] :=
        Plain.eq_nil (fun b hb => hplain b (List.mem_append_left _ hb)) hclosed'.of_append
      rw [hnil, List.append_nil]
    · have hnil : more = [] :=
        Plain.eq_nil (fun b hb => hplain' b (List.mem_append_left _ hb)) hclosed.of_append
      rw [hnil, List.append_nil]
  subst hsame
  exact ⟨rfl, List.append_cancel_left h⟩

/-- What stands behind a run: nothing, or a delimiter first. -/
def Ended (delim : α → Bool) (rest : List α) : Prop := ∀ a ∈ rest.head?, delim a = true

instance (delim : α → Bool) (rest : List α) : Decidable (Ended delim rest) :=
  inferInstanceAs (Decidable (∀ a ∈ rest.head?, delim a = true))

theorem ended_cons (ha : delim a = true) (rest : List α) : Ended delim (a :: rest) := by
  intro b hb
  rw [List.head?_cons] at hb
  exact Option.some.inj hb ▸ ha

theorem ended_nil : Ended delim [] := fun _ ha => absurd ha (Option.not_mem_none _)

/-- A text begins with a run. -/
theorem exists_first_run (delim : α → Bool) (text : List α) :
    ∃ token rest, text = token ++ rest ∧ Plain delim token ∧ Ended delim rest :=
  ⟨_, _, List.takeWhile_append_dropWhile.symm,
    fun _ ha => by simpa using List.mem_takeWhile_imp ha, fun _ ha => head?_dropWhile ha⟩

theorem Ended.eq_cons {rest : List α} (h : Ended delim rest) (hne : rest ≠ []) :
    ∃ a more, rest = a :: more ∧ delim a = true := by
  cases rest with
  | nil => exact absurd rfl hne
  | cons a more => exact ⟨a, more, rfl, h a rfl⟩

/-- The first run is determined. -/
theorem first_run_unique {rest rest' : List α} (hplain : Plain delim token) (hended : Ended delim rest)
    (hplain' : Plain delim token') (hended' : Ended delim rest')
    (h : token ++ rest = token' ++ rest') : token = token' ∧ rest = rest' := by
  have hnil {more : List α} (hmore : Plain delim more) (hend : Ended delim more) : more = [] := by
    by_contra hne
    obtain ⟨a, more, rfl, ha⟩ := hend.eq_cons hne
    rw [hmore a List.mem_cons_self] at ha
    cases ha
  have hfirst {more rest : List α} (hend : Ended delim (more ++ rest)) : Ended delim more := by
    intro a ha
    exact hend a (by rw [List.head?_append, Option.mem_def.mp ha]; rfl)
  rcases List.append_eq_append_iff.mp h with ⟨more, rfl, rfl⟩ | ⟨more, rfl, rfl⟩
  · rw [hnil (fun b hb => hplain' b (List.mem_append_right _ hb)) (hfirst hended)]
    exact ⟨(List.append_nil _).symm, rfl⟩
  · rw [hnil (fun b hb => hplain b (List.mem_append_right _ hb)) (hfirst hended')]
    exact ⟨List.append_nil _, rfl⟩

/-- A closed beginning of a text does not go into its last run. -/
theorem prefix_of_plain (hplain : Plain delim token) (ha : delim a = true)
    (h : before ++ [a] <+: text ++ token) : before ++ [a] <+: text := by
  rcases List.prefix_or_prefix_of_prefix h (List.prefix_append text token) with hprefix | ⟨more, hmore⟩
  · exact hprefix
  · rw [← hmore, List.prefix_append_right_inj] at h
    have hclosed : Closed delim (text ++ more) := hmore ▸ closed_concat ha before
    have hnil : more = [] := Plain.eq_nil (fun b hb => hplain b (h.subset hb)) hclosed.of_append
    rw [← hmore, hnil, List.append_nil]

end Runs

/-! ## What a rule does to a run -/

/-- What is written for the run behind a closed text. -/
def Rule.behind (rule : Rule α) (before token : List α) : List α :=
  match (scan rule before).openToken with
  | none => token
  | some _ => rule.replace token

/-- A marker ends the text, and the run behind it is a token. -/
def Open (rule : Rule α) (text : List α) : Prop := (scan rule text).openToken = some []

section Rules

variable {rule : Rule α} {text before written token rest : List α} {a : α}

/-- The open token stands behind a marker in the text. -/
theorem openToken_ends (h : (scan rule text).openToken = some token) :
    ∃ before, text = before ++ token ∧ endsWith rule.marker before = true := by
  induction text using List.reverseRecOn generalizing token with
  | nil => cases h
  | append_singleton text a ih =>
    have hvalid := scan_valid rule text
    rw [scan_concat] at h
    revert hvalid h ih
    obtain ⟨written, seen | token'⟩ := scan rule text
    · rintro - h ⟨start, rfl⟩
      cases hends : endsWith rule.marker (seen ++ [a]) with
      | false =>
        rw [step_text hends] at h
        cases h
      | true =>
        rw [step_marker hends] at h
        obtain rfl := Option.some.inj h
        refine ⟨start ++ seen ++ [a], (List.append_nil _).symm, ?_⟩
        rw [List.append_assoc]
        exact endsWith_append start hends
    · intro ih h _
      obtain ⟨before, rfl, hbefore⟩ := ih rfl
      cases ha : rule.delim a with
      | true =>
        rw [step_delim ha] at h
        cases h
      | false =>
        rw [step_token ha] at h
        obtain rfl := Option.some.inj h
        exact ⟨before, List.append_assoc .., hbefore⟩

theorem Open.endsWith (h : Open rule text) : endsWith rule.marker text = true := by
  obtain ⟨before, rfl, hends⟩ := openToken_ends h
  rwa [List.append_nil]

/-- Behind a closed text, either no token is open or one that begins there. -/
theorem openToken_closed (h : Closed rule.delim text) :
    (scan rule text).openToken = none ∨ Open rule text := by
  cases hopen : (scan rule text).openToken with
  | none => exact .inl rfl
  | some token =>
    obtain ⟨before, rfl, -⟩ := openToken_ends hopen
    have hnil : token = [] := Plain.eq_nil (valid_of_some hopen).2 h.of_append
    rw [hnil] at hopen ⊢
    exact .inr hopen

theorem behind_of_open (h : Open rule before) : rule.behind before token = rule.replace token := by
  rw [Rule.behind, h]

theorem behind_of_not_open (hclosed : Closed rule.delim before) (h : ¬Open rule before) :
    rule.behind before token = token := by
  rw [Rule.behind, (openToken_closed hclosed).resolve_right h]

/-- The token that is read is the run. -/
theorem openToken_run (hplain : Plain rule.delim token) (h : Open rule before) :
    (scan rule (before ++ token)).openToken = some token ∧
      (scan rule (before ++ token)).emitted = (scan rule before).emitted := by
  induction token using List.reverseRecOn with
  | nil => exact ⟨(List.append_nil before).symm ▸ h, by rw [List.append_nil]⟩
  | append_singleton token a ih =>
    obtain ⟨hopen, hemitted⟩ := ih fun b hb => hplain b (List.mem_append_left _ hb)
    obtain ⟨hopen', hemitted'⟩ :=
      scan_concat_of_some hopen (hplain a (List.mem_append_right _ List.mem_cons_self))
    rw [← List.append_assoc]
    exact ⟨hopen', hemitted'.trans hemitted⟩

variable (lawful : rule.Lawful)

include lawful

/-- A run is replaced if a token is open before it, and is written otherwise. -/
theorem apply_run (hclosed : Closed rule.delim before) (hplain : Plain rule.delim token) :
    rule.apply (before ++ token) = rule.apply before ++ rule.behind before token := by
  rcases openToken_closed hclosed with hnone | hopen
  · rw [Rule.behind, hnone]
    exact (scan_append_plain lawful hnone hplain).2
  · obtain ⟨htoken, hemitted⟩ := openToken_run hplain hopen
    rw [behind_of_open hopen, lawful.apply_of_some htoken, hemitted, lawful.apply_of_some hopen,
      Rule.replace_of_false lawful.test_nil, List.append_nil]

theorem apply_delim (ha : rule.delim a = true) (text : List α) :
    rule.apply (text ++ [a]) = rule.apply text ++ [a] := apply_concat lawful (.inr ha)

theorem closed_apply (h : Closed rule.delim text) : Closed rule.delim (rule.apply text) := by
  rcases List.eq_nil_or_concat' text with rfl | ⟨before, a, rfl⟩
  · exact h
  · have ha : rule.delim a = true := h a (List.getLast?_concat ..)
    rw [apply_delim lawful ha]
    exact closed_concat ha _

/-- The text behind a run is written behind what is written for the run. -/
theorem apply_run_append (hclosed : Closed rule.delim before) (hplain : Plain rule.delim token)
    (hended : Ended rule.delim rest) : ∃ rest', Ended rule.delim rest' ∧
      rule.apply (before ++ token ++ rest) = rule.apply before ++ rule.behind before token ++ rest' := by
  rw [← apply_run lawful hclosed hplain]
  by_cases hrest : rest = []
  · exact ⟨[], ended_nil, by rw [hrest, List.append_nil, List.append_nil]⟩
  · obtain ⟨a, more, rfl, ha⟩ := hended.eq_cons hrest
    obtain ⟨rest', hrest'⟩ := apply_delim_prefix lawful (before ++ token) more ha
    exact ⟨a :: rest', ended_cons ha rest', by rw [← hrest', List.append_assoc, List.singleton_append]⟩

/-- Where every token is its own substitute, nothing changes. -/
theorem apply_eq_self (h : ∀ before token rest, text = before ++ token ++ rest →
    endsWith rule.marker before = true → Plain rule.delim token → Ended rule.delim rest →
    rule.replace token = token) : rule.apply text = text := by
  -- the letters before are written as they are, run by run
  have hbefore (n : Nat) : ∀ before rest, before.length = n → text = before ++ rest →
      Closed rule.delim before → rule.apply before = before := by
    induction n using Nat.strongRecOn with
    | ind n ih =>
      rintro before rest hlength htext hclosed
      by_cases hne : before = []
      · rw [hne]
        exact rewrite_nil rule 0
      · obtain ⟨start, a, rfl, ha⟩ := hclosed.eq_concat hne
        obtain ⟨closed, token, rfl, hclosed', hplain⟩ := exists_run rule.delim start
        have hshorter : closed.length < n := by
          rw [← hlength, List.length_append, List.length_append]
          exact Nat.lt_of_le_of_lt (Nat.le_add_right _ _) (Nat.lt_succ_self _)
        have hsame := ih _ hshorter closed (token ++ a :: rest) rfl
          (by rw [htext]; simp only [List.append_assoc, List.singleton_append]) hclosed'
        rw [apply_delim lawful ha, apply_run lawful hclosed' hplain, hsame]
        by_cases hopen : Open rule closed
        · rw [behind_of_open hopen, h closed token (a :: rest) (by
            rw [htext, List.append_assoc _ [a], List.singleton_append]) hopen.endsWith hplain
            (ended_cons ha rest)]
        · rw [behind_of_not_open hclosed' hopen]
  obtain ⟨before, token, rfl, hclosed, hplain⟩ := exists_run rule.delim text
  rw [apply_run lawful hclosed hplain, hbefore _ before token rfl rfl hclosed]
  by_cases hopen : Open rule before
  · rw [behind_of_open hopen, h before token [] (List.append_nil _).symm hopen.endsWith hplain ended_nil]
  · rw [behind_of_not_open hclosed hopen]

variable (hsubstitute : Plain rule.delim rule.substitute)

include hsubstitute

omit lawful in
theorem plain_replace (hplain : Plain rule.delim token) : Plain rule.delim (rule.replace token) := by
  rw [Rule.replace]
  split
  · exact hsubstitute
  · exact hplain

omit lawful in
theorem plain_behind (hplain : Plain rule.delim token) :
    Plain rule.delim (rule.behind before token) := by
  rw [Rule.behind]
  split
  · exact hplain
  · exact plain_replace hsubstitute hplain

/-- A delimiter of the result is one of the text. -/
theorem exists_of_delim (ha : rule.delim a = true) (h : written ++ [a] <+: rule.apply text) :
    ∃ before rest, text = before ++ a :: rest ∧ rule.apply before = written := by
  induction text using List.reverseRecOn with
  | nil =>
    rw [show rule.apply [] = [] from rewrite_nil rule 0, List.prefix_nil] at h
    exact absurd h (List.concat_ne_nil a written)
  | append_singleton text b ih =>
    have hearlier (hold : written ++ [a] <+: rule.apply text) :
        ∃ before rest, text ++ [b] = before ++ a :: rest ∧ rule.apply before = written := by
      obtain ⟨before, rest, rfl, hbefore⟩ := ih hold
      exact ⟨before, rest ++ [b], List.append_assoc .., hbefore⟩
    cases hb : rule.delim b with
    | true =>
      rw [apply_delim lawful hb, List.prefix_concat_iff] at h
      rcases h with heq | hprefix
      · obtain ⟨rfl, hlast⟩ := List.append_inj' heq rfl
        obtain rfl := List.singleton_inj.mp hlast
        exact ⟨text, [], rfl, rfl⟩
      · exact hearlier hprefix
    | false =>
      refine hearlier ?_
      have hlast : Plain rule.delim [b] := fun c hc => by rwa [List.mem_singleton.mp hc]
      cases hopen : (scan rule text).openToken with
      | none =>
        rw [apply_concat lawful (.inl hopen)] at h
        exact prefix_of_plain hlast ha h
      | some token =>
        obtain ⟨hopen', hemitted⟩ := scan_concat_of_some hopen hb
        rw [lawful.apply_of_some hopen', hemitted] at h
        rw [lawful.apply_of_some hopen]
        have hplain := plain_replace hsubstitute (valid_of_some hopen').2
        exact (prefix_of_plain hplain ha h).trans (List.prefix_append _ _)

end Rules

/-! ## Markers that end a run -/

/-- The tests of a name: there is one at least, and none passes a delimiter. -/
structure IsName (delim : α → Bool) (name : List (α → Bool)) : Prop where
  ne_nil : name ≠ []
  plain : ∀ test ∈ name, ∀ a, test a = true → delim a = false

section Names

variable {delim slash : α → Bool} {name marker : List (α → Bool)} {text before token : List α} {a b : α}

theorem startsWith_append_append {last : List α} (hlength : text.length = name.length) :
    startsWith (name ++ marker) (text ++ last) = (startsWith name text && startsWith marker last) := by
  induction name generalizing text with
  | nil =>
    rw [List.length_eq_zero_iff.mp hlength]
    rfl
  | cons test name ih =>
    cases text with
    | nil => cases hlength
    | cons c text =>
      rw [List.cons_append, List.cons_append, startsWith, startsWith, ih (Nat.succ.inj hlength),
        Bool.and_assoc]

/-- A name with two slashes behind it. -/
theorem endsWith_slashes_iff : endsWith (name ++ [slash, slash]) text = true ↔
    ∃ before a b, text = before ++ [a, b] ∧ slash a = true ∧ slash b = true ∧
      endsWith name before = true := by
  rw [endsWith_iff]
  constructor
  · rintro ⟨before, last, rfl, hlength, hstarts⟩
    rw [List.length_append] at hlength
    rw [← List.take_append_drop name.length last] at hstarts ⊢
    have htake : (last.take name.length).length = name.length :=
      List.length_take_of_le (hlength ▸ Nat.le_add_right _ _)
    have hdrop : (last.drop name.length).length = 2 := by
      rw [List.length_drop, hlength]
      exact Nat.add_sub_cancel_left _ _
    obtain ⟨a, b, hpair⟩ := List.length_eq_two.mp hdrop
    rw [startsWith_append_append htake, hpair, Bool.and_eq_true] at hstarts
    obtain ⟨hname, hslashes⟩ := hstarts
    simp only [startsWith, Bool.and_true, Bool.and_eq_true] at hslashes
    refine ⟨before ++ last.take name.length, a, b, ?_, hslashes.1, hslashes.2, ?_⟩
    · rw [hpair, List.append_assoc]
    · exact endsWith_iff.mpr ⟨before, _, rfl, htake, hname⟩
  · rintro ⟨before, a, b, rfl, ha, hb, hends⟩
    obtain ⟨start, last, rfl, hlength, hstarts⟩ := endsWith_iff.mp hends
    refine ⟨start, last ++ [a, b], List.append_assoc .., ?_, ?_⟩
    · rw [List.length_append, List.length_append, hlength]
      rfl
    · rw [startsWith_append_append hlength, hstarts]
      simp only [startsWith, ha, hb, Bool.and_self]

theorem plain_of_startsWith (hname : ∀ test ∈ name, ∀ a, test a = true → delim a = false)
    (hlength : text.length = name.length) (h : startsWith name text = true) : Plain delim text := by
  induction name generalizing text with
  | nil =>
    rw [List.length_eq_zero_iff.mp hlength]
    exact plain_nil
  | cons test name ih =>
    cases text with
    | nil => cases hlength
    | cons c text =>
      rw [startsWith, Bool.and_eq_true] at h
      obtain ⟨htest, hrest⟩ := List.forall_mem_cons.mp hname
      exact List.forall_mem_cons.mpr ⟨htest c h.1, ih hrest (Nat.succ.inj hlength) h.2⟩

/-- A name that ends a text ends its last run. -/
theorem endsWith_run (hname : IsName delim name) (hclosed : Closed delim before) :
    endsWith name (before ++ token) = endsWith name token := by
  refine Bool.eq_iff_iff.mpr ⟨fun h => ?_, endsWith_append before⟩
  obtain ⟨start, last, heq, hlength, hstarts⟩ := endsWith_iff.mp h
  have hplain := plain_of_startsWith hname.plain hlength hstarts
  rcases List.append_eq_append_iff.mp heq with ⟨more, rfl, rfl⟩ | ⟨more, rfl, rfl⟩
  · exact endsWith_iff.mpr ⟨more, last, rfl, hlength, hstarts⟩
  · have hnil : more = [] :=
      Plain.eq_nil (fun c hc => hplain c (List.mem_append_left _ hc)) hclosed.of_append
    rw [hnil, List.nil_append] at hlength hstarts
    exact endsWith_iff.mpr ⟨[], token, rfl, hlength, hstarts⟩

/-- Such a marker ends a text behind a run that ends in the name. -/
theorem endsWith_slashes_run (hname : IsName delim name) :
    endsWith (name ++ [slash, slash]) text = true ↔ ∃ before token a b,
      text = before ++ token ++ [a, b] ∧ Closed delim before ∧ Plain delim token ∧
        slash a = true ∧ slash b = true ∧ endsWith name token = true := by
  rw [endsWith_slashes_iff]
  constructor
  · rintro ⟨start, a, b, rfl, ha, hb, hends⟩
    obtain ⟨before, token, rfl, hclosed, hplain⟩ := exists_run delim start
    rw [endsWith_run hname hclosed] at hends
    exact ⟨before, token, a, b, rfl, hclosed, hplain, ha, hb, hends⟩
  · rintro ⟨before, token, a, b, rfl, -, -, ha, hb, hends⟩
    exact ⟨before ++ token, a, b, rfl, ha, hb, endsWith_append before hends⟩

theorem ne_nil_of_endsWith (hname : IsName delim name) (h : endsWith name token = true) :
    token ≠ [] := by
  rintro rfl
  obtain ⟨start, last, hnil, hlength, -⟩ := endsWith_iff.mp h
  rw [(List.append_eq_nil_iff.mp hnil.symm).2] at hlength
  exact hname.ne_nil (List.length_eq_zero_iff.mp hlength.symm)

end Names

/-- A lawful rule for a name with two slashes. What it puts in has no delimiter. -/
structure Rule.Framed (rule : Rule α) (name : List (α → Bool)) (slash : α → Bool) : Prop where
  lawful : rule.Lawful
  marker_eq : rule.marker = name ++ [slash, slash]
  isName : IsName rule.delim name
  slash_delim : ∀ a, slash a = true → rule.delim a = true
  substitute_plain : Plain rule.delim rule.substitute

section Framed

variable {rule : Rule α} {name name' : List (α → Bool)} {slash : α → Bool}
  {text before token : List α} {a b : α}

variable (framed : rule.Framed name slash)

include framed

theorem apply_slashes (ha : slash a = true) (hb : slash b = true) (hclosed : Closed rule.delim before)
    (hplain : Plain rule.delim token) : rule.apply (before ++ token ++ [a, b]) =
      rule.apply before ++ rule.behind before token ++ [a, b] := by
  have happly := apply_delim framed.lawful (framed.slash_delim b hb) (before ++ token ++ [a])
  rw [apply_delim framed.lawful (framed.slash_delim a ha), apply_run framed.lawful hclosed hplain,
    List.append_assoc _ [a], List.append_assoc _ [a]] at happly
  exact happly

/-- Of markers that stand in each other's tokens, every other one counts. -/
theorem open_marker_iff (ha : slash a = true) (hb : slash b = true)
    (hclosed : Closed rule.delim before) (hplain : Plain rule.delim token)
    (hends : endsWith name token = true) :
    Open rule (before ++ token ++ [a, b]) ↔ ¬Open rule before := by
  have htwo : before ++ token ++ [a, b] = before ++ token ++ [a] ++ [b] := by
    rw [List.append_assoc _ [a]]
    rfl
  rw [Open, htwo, scan_concat, scan_concat]
  rcases openToken_closed hclosed with hnone | hopen
  · refine iff_of_true ?_ (by rw [Open, hnone]; rintro ⟨⟩)
    obtain ⟨start, c, htoken⟩ : ∃ start c, token = start ++ [c] :=
      (List.eq_nil_or_concat' token).resolve_left (ne_nil_of_endsWith framed.isName hends)
    have hscan : ∃ written seen, scan rule (before ++ token) = ⟨written, .text (seen ++ token)⟩ := by
      rw [scan, List.foldl_append]
      show ∃ written seen, token.foldl (Scan.step rule) (scan rule before) = _
      revert hnone
      obtain ⟨written, seen | token'⟩ := scan rule before
      · intro _
        refine ⟨written, seen, foldl_text fun k hk => ?_⟩
        -- a marker would end in a delimiter
        rw [List.take_succ_eq_append_getElem hk, ← List.append_assoc, Bool.eq_false_iff]
        intro hmarker
        have hdelim := framed.lawful.marker_delim _ _ hmarker
        rw [hplain _ (List.getElem_mem hk)] at hdelim
        cases hdelim
      · intro hnone
        cases hnone
    obtain ⟨written, seen, hscan⟩ := hscan
    have hfirst : endsWith rule.marker (seen ++ token ++ [a]) = false := by
      rw [Bool.eq_false_iff, framed.marker_eq, Ne, endsWith_slashes_iff]
      rintro ⟨start', c', a', heq, hc, -⟩
      rw [htoken, ← List.append_assoc, List.append_assoc _ [c]] at heq
      obtain ⟨-, hlast⟩ := List.append_inj' heq rfl
      obtain ⟨rfl, -⟩ := List.cons.inj hlast
      have hdelim := framed.slash_delim c hc
      rw [hplain c (htoken ▸ List.mem_append_right _ List.mem_cons_self)] at hdelim
      cases hdelim
    have hsecond : endsWith rule.marker (seen ++ token ++ [a] ++ [b]) = true := by
      rw [framed.marker_eq, endsWith_slashes_iff]
      exact ⟨seen ++ token, a, b, List.append_assoc .., ha, hb, endsWith_append seen hends⟩
    rw [hscan, step_text hfirst, step_marker hsecond]
    rfl
  · refine iff_of_false ?_ (not_not_intro hopen)
    obtain ⟨htoken, -⟩ := openToken_run hplain hopen
    revert htoken
    obtain ⟨written, seen | token'⟩ := scan rule (before ++ token)
    · intro htoken
      cases htoken
    · intro _
      have hshort : endsWith rule.marker ([a] ++ [b]) = false := by
        rw [endsWith, framed.marker_eq, Bool.and_eq_false_iff, decide_eq_false_iff_not,
          List.length_append]
        have hpos := List.length_pos_iff.mpr framed.isName.ne_nil
        exact .inl (Nat.not_le.mpr (Nat.lt_add_of_pos_left hpos))
      rw [step_delim (framed.slash_delim a ha), step_text hshort]
      rintro ⟨⟩

theorem behind_eq_nil (h : rule.behind before token = []) : token = [] := by
  rw [Rule.behind] at h
  split at h
  · exact h
  · cases htest : rule.test token with
    | false => rwa [Rule.replace_of_false htest] at h
    | true =>
      obtain ⟨start, a, hsubstitute, -⟩ := framed.lawful.substitute_plain
      rw [Rule.replace_of_true htest, hsubstitute] at h
      exact absurd h (List.concat_ne_nil a start)

/-- A marker in the result stands where there is one, or a run becomes one. -/
theorem endsWith_apply_iff (hname : IsName rule.delim name') (hclosed : Closed rule.delim text) :
    endsWith (name' ++ [slash, slash]) (rule.apply text) = true ↔ ∃ before token a b,
      text = before ++ token ++ [a, b] ∧ Closed rule.delim before ∧ Plain rule.delim token ∧
        slash a = true ∧ slash b = true ∧ endsWith name' (rule.behind before token) = true := by
  constructor
  · intro h
    obtain ⟨start, a, b, happly, ha, hb, hends⟩ := endsWith_slashes_iff.mp h
    have hpeel {text start : List α} {c : α} (hclosed : Closed rule.delim text)
        (happly : rule.apply text = start ++ [c]) : ∃ before token, text = before ++ token ++ [c] ∧
          Closed rule.delim before ∧ Plain rule.delim token ∧
          rule.apply before ++ rule.behind before token = start := by
      have hne : text ≠ [] := by
        rintro rfl
        rw [show rule.apply [] = [] from rewrite_nil rule 0] at happly
        exact List.concat_ne_nil c start happly.symm
      obtain ⟨before', d, rfl, hd⟩ := hclosed.eq_concat hne
      obtain ⟨before, token, rfl, hbefore, hplain⟩ := exists_run rule.delim before'
      rw [apply_delim framed.lawful hd, apply_run framed.lawful hbefore hplain] at happly
      obtain ⟨heq, hlast⟩ := List.append_inj' happly rfl
      obtain rfl := List.singleton_inj.mp hlast
      exact ⟨before, token, rfl, hbefore, hplain, heq⟩
    have htwo : rule.apply text = start ++ [a] ++ [b] := by rw [happly, List.append_assoc]; rfl
    obtain ⟨last, empty, rfl, hlast, hempty, heq⟩ := hpeel hclosed htwo
    -- there is no run between the two slashes
    have hnone : rule.behind last empty = [] := by
      refine Plain.eq_nil (plain_behind framed.substitute_plain hempty) ?_
      have hslash : Closed rule.delim (start ++ [a]) := closed_concat (framed.slash_delim a ha) start
      rw [← heq] at hslash
      exact hslash.of_append
    obtain rfl := behind_eq_nil framed hnone
    rw [hnone, List.append_nil] at heq
    rw [List.append_nil]
    obtain ⟨before, token, rfl, hbefore, hplain, rfl⟩ := hpeel hlast heq
    rw [endsWith_run hname (closed_apply framed.lawful hbefore)] at hends
    exact ⟨before, token, a, b, List.append_assoc _ [a] [b], hbefore, hplain, ha, hb, hends⟩
  · rintro ⟨before, token, a, b, rfl, hbefore, hplain, ha, hb, hends⟩
    rw [apply_slashes framed ha hb hbefore hplain, endsWith_slashes_iff]
    exact ⟨_, a, b, rfl, ha, hb, endsWith_append _ hends⟩

end Framed

end Tokens
