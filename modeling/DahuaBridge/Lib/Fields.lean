import DahuaBridge.Lib.Runs
import DahuaBridge.Lib.Text

/-!
# The values behind a marker, hidden

The value begins behind the first marker of a run and ends with the run. `Field.hideAll`
puts the same substitute in the place of every value, and keeps all the rest.

* `mapRuns_ended`: what is done to the runs can be done on both sides of a delimiter.
* `hideAll_written`, `exists_of_hideAll`: so it is on both sides of a letter that is in no value.
* `hideAll_eq_iff`: two texts become the same if they have the same letters outside the values.
-/

namespace Tokens

variable {α : Type*}

/-! ## The runs of a text, each changed for itself -/

/-- `run` is what has been read of the first run. -/
def mapRunsFrom (delim : α → Bool) (change : List α → List α) : List α → List α → List α
  | run, [] => change run
  | run, a :: text =>
    if delim a then change run ++ a :: mapRunsFrom delim change [] text
    else mapRunsFrom delim change (run ++ [a]) text

def mapRuns (delim : α → Bool) (change : List α → List α) (text : List α) : List α :=
  mapRunsFrom delim change [] text

section MapRuns

variable {delim : α → Bool} {change : List α → List α} {run text before rest : List α} {a : α}

theorem mapRunsFrom_delim (ha : delim a = true) (run before rest : List α) :
    mapRunsFrom delim change run (before ++ a :: rest) =
      mapRunsFrom delim change run before ++ a :: mapRuns delim change rest := by
  induction before generalizing run with
  | nil => exact if_pos ha
  | cons b before ih =>
    rw [List.cons_append, mapRunsFrom, mapRunsFrom]
    split
    · rw [ih, List.append_assoc, List.cons_append]
    · exact ih _

/-- A delimiter cuts the text. -/
theorem mapRuns_delim (ha : delim a = true) (before rest : List α) :
    mapRuns delim change (before ++ a :: rest) =
      mapRuns delim change before ++ a :: mapRuns delim change rest := mapRunsFrom_delim ha [] before rest

theorem mapRunsFrom_plain (h : Plain delim text) : mapRunsFrom delim change run text =
    change (run ++ text) := by
  induction text generalizing run with
  | nil => rw [mapRunsFrom, List.append_nil]
  | cons a text ih =>
    obtain ⟨ha, htext⟩ := List.forall_mem_cons.mp h
    rw [mapRunsFrom, if_neg (Bool.not_eq_true _ ▸ ha), ih htext, List.append_assoc, List.singleton_append]

theorem mapRuns_plain (h : Plain delim text) : mapRuns delim change text = change text :=
  mapRunsFrom_plain h

/-- Induction on the runs of a text. -/
theorem run_induction {motive : List α → Prop} (delim : α → Bool)
    (last : ∀ run, Plain delim run → motive run)
    (next : ∀ run a rest, Plain delim run → delim a = true → motive rest → motive (run ++ a :: rest))
    (text : List α) : motive text := by
  have hrun (run : List α) (hplain : Plain delim run) : motive (run ++ text) := by
    induction text generalizing run with
    | nil =>
      rw [List.append_nil]
      exact last run hplain
    | cons a text ih =>
      cases ha : delim a with
      | true => exact next run a text hplain ha (ih [] plain_nil)
      | false =>
        rw [List.append_cons]
        exact ih (run ++ [a]) (List.forall_mem_append.mpr ⟨hplain, List.forall_mem_singleton.mpr ha⟩)
  exact hrun [] plain_nil

variable (hnil : change [] = [])

include hnil

theorem mapRuns_cons_delim (ha : delim a = true) (rest : List α) :
    mapRuns delim change (a :: rest) = a :: mapRuns delim change rest := by
  have hcut : mapRuns delim change ([] ++ a :: rest) = _ := mapRuns_delim ha [] rest
  rwa [mapRuns_plain plain_nil, hnil] at hcut

/-- What begins with a delimiter may be cut off. -/
theorem mapRuns_ended (h : Ended delim rest) (before : List α) :
    mapRuns delim change (before ++ rest) = mapRuns delim change before ++ mapRuns delim change rest := by
  cases rest with
  | nil => rw [List.append_nil, mapRuns_plain plain_nil, hnil, List.append_nil]
  | cons a rest => rw [mapRuns_delim (h a rfl), mapRuns_cons_delim hnil (h a rfl)]

theorem ended_mapRuns (h : Ended delim rest) : Ended delim (mapRuns delim change rest) := by
  cases rest with
  | nil =>
    rw [mapRuns_plain plain_nil, hnil]
    exact ended_nil
  | cons a rest =>
    rw [mapRuns_cons_delim hnil (h a rfl)]
    exact ended_cons (h a rfl) _

/-- What ends in a delimiter may be cut off. -/
theorem mapRuns_closed (h : Closed delim before) (rest : List α) :
    mapRuns delim change (before ++ rest) = mapRuns delim change before ++ mapRuns delim change rest := by
  rcases List.eq_nil_or_concat' before with rfl | ⟨start, a, rfl⟩
  · rw [mapRuns_plain plain_nil, hnil]
    rfl
  · have ha : delim a = true := h a (List.getLast?_concat ..)
    rw [List.append_assoc, List.singleton_append, mapRuns_delim ha, mapRuns_delim ha,
      mapRuns_plain plain_nil, hnil, List.append_assoc, List.singleton_append]

end MapRuns

/-! ## The value of a run -/

/-- The marker, what ends the value behind it, and what hides the value. -/
structure Field (α : Type*) where
  marker : List α
  delim : α → Bool
  substitute : List α

structure Field.Lawful (field : Field α) : Prop where
  marker_ne : field.marker ≠ []
  marker_plain : Plain field.delim field.marker
  substitute_plain : Plain field.delim field.substitute

/-- What stands behind the text belongs to a value. -/
def Field.InValue (field : Field α) (text : List α) : Prop :=
  ∃ before value, text = before ++ field.marker ++ value ∧ Plain field.delim value

section Values

variable [BEq α] [LawfulBEq α] {field : Field α} {before run run' value rest text : List α} {a : α}

/-- Hides the value of a run. -/
def Field.hide (field : Field α) (run : List α) : List α :=
  match position (literal field.marker) run with
  | none => run
  | some i => run.take (i + field.marker.length) ++ field.substitute

def Field.hideAll (field : Field α) : List α → List α := mapRuns field.delim field.hide

omit [LawfulBEq α] in
theorem hide_of_none (h : position (literal field.marker) run = none) : field.hide run = run := by
  rw [Field.hide, h]

omit [LawfulBEq α] in
theorem hide_of_some {i : Nat} (h : position (literal field.marker) run = some i) :
    field.hide run = run.take (i + field.marker.length) ++ field.substitute := by
  rw [Field.hide, h]

theorem position_literal_eq_none {pattern : List α} (h : ¬pattern <:+: text) :
    position (literal pattern) text = none := by
  cases hposition : position (literal pattern) text with
  | none => rfl
  | some i => exact absurd ⟨_, _, (position_literal_eq hposition).symm⟩ h

theorem exists_position {pattern : List α} (h : pattern <:+: text) :
    ∃ i, position (literal pattern) text = some i := by
  cases hposition : position (literal pattern) text with
  | some i => exact ⟨i, rfl⟩
  | none =>
    obtain ⟨before, rest, rfl⟩ := h
    have hnone := position_eq_none hposition before.length
    rw [List.append_assoc, List.drop_left, startsWith_literal.mpr (List.prefix_append ..)] at hnone
    cases hnone

theorem take_of_position {pattern : List α} {i : Nat}
    (h : position (literal pattern) text = some i) :
    text.take (i + pattern.length) = text.take i ++ pattern := by
  rw [List.take_add, ← List.prefix_iff_eq_take.mp (startsWith_literal.mp (position_eq_some h).1)]

theorem hide_unmarked (h : ¬field.marker <:+: run) : field.hide run = run :=
  hide_of_none (position_literal_eq_none h)

variable (lawful : field.Lawful)

include lawful

theorem hide_nil : field.hide [] = [] :=
  hide_unmarked fun h => lawful.marker_ne (List.infix_nil.mp h)

omit [BEq α] [LawfulBEq α] lawful in
theorem plain_append (hbefore : Plain field.delim before) (hrest : Plain field.delim rest) :
    Plain field.delim (before ++ rest) := fun b hb =>
  (List.mem_append.mp hb).elim (hbefore b) (hrest b)

omit [LawfulBEq α] in
theorem plain_hide (h : Plain field.delim run) : Plain field.delim (field.hide run) := by
  rw [Field.hide]
  split
  · exact h
  · exact plain_append (fun b hb => h b (List.mem_of_mem_take hb)) lawful.substitute_plain

/-- Behind a marker nothing is read any more. -/
theorem hide_append (h : field.marker <:+: run) (value : List α) :
    field.hide (run ++ value) = field.hide run := by
  obtain ⟨i, hi⟩ := exists_position h
  have hne : literal field.marker ≠ [] := mt List.map_eq_nil_iff.mp lawful.marker_ne
  have hle := position_add_length_le hne hi
  rw [literal, List.length_map] at hle
  rw [hide_of_some hi, hide_of_some (position_append hne value hi), List.take_append_of_le_length hle]

omit lawful in
/-- A letter that is in no marker and in no value. -/
theorem hide_append_cons (ha : a ∉ field.marker) (h : ¬field.marker <:+: before) (rest : List α) :
    field.hide (before ++ a :: rest) = before ++ a :: field.hide rest := by
  -- a marker does not begin before the letter
  have hfirst : ∀ j < before.length + 1,
      startsWith (literal field.marker) ((before ++ a :: rest).drop j) = false := by
    intro j hj
    rw [Bool.eq_false_iff, Ne, startsWith_literal,
      List.drop_append_of_le_length (Nat.le_of_lt_succ hj)]
    intro hbegins
    have hpart := (Text.prefix_append_cons_iff ha).mp hbegins
    exact h (hpart.isInfix.trans (List.drop_suffix j before).isInfix)
  have hlength : before.length + 1 = (before ++ [a]).length := by
    rw [List.length_append, List.length_singleton]
  have hposition := position_drop hfirst
  rw [List.append_cons, hlength, List.drop_left] at hposition
  rw [List.append_cons before a (field.hide rest), List.append_cons before a rest]
  cases hi : position (literal field.marker) rest with
  | none =>
    rw [hi, Option.map_none] at hposition
    rw [hide_of_none hposition, hide_of_none hi]
  | some i =>
    rw [hi, Option.map_some] at hposition
    rw [hide_of_some hposition, hide_of_some hi, Nat.add_assoc, List.take_length_add_append,
      List.append_assoc]

/-- A letter of the result that is in no marker and does not come from a substitute. -/
theorem exists_of_hide (ha : a ∉ field.marker) (ha' : a ∉ field.substitute)
    (h : field.hide run = before ++ a :: rest) :
    ∃ after, run = before ++ a :: after ∧ ¬field.marker <:+: before ∧ field.hide after = rest := by
  have hcut : ∃ after, run = before ++ a :: after ∧ ¬field.marker <:+: before := by
    cases hposition : position (literal field.marker) run with
    | none =>
      rw [hide_of_none hposition] at h
      refine ⟨rest, h, fun hmarker => ?_⟩
      obtain ⟨i, hi⟩ := exists_position (h ▸ hmarker.trans (List.prefix_append before _).isInfix)
      rw [hi] at hposition
      cases hposition
    | some i =>
      have hnot : ¬field.marker <:+: run.take i := fun hmarker =>
        not_infix_of_position lawful.marker_ne hposition (hmarker.trans (List.prefix_append ..).isInfix)
      rw [hide_of_some hposition, take_of_position hposition, List.append_assoc] at h
      rcases List.append_eq_append_iff.mp h with ⟨more, -, hmore⟩ | ⟨more, hmore, hrest⟩
      · have hmem : a ∈ field.marker ++ field.substitute :=
          hmore ▸ List.mem_append_right more List.mem_cons_self
        exact absurd hmem fun hmem => (List.mem_append.mp hmem).elim ha ha'
      · cases more with
        | nil =>
          have hmem : a ∈ field.marker ++ field.substitute := hrest ▸ List.mem_cons_self
          exact absurd hmem fun hmem => (List.mem_append.mp hmem).elim ha ha'
        | cons b more =>
          obtain ⟨rfl, -⟩ := List.cons.inj hrest
          refine ⟨more ++ run.drop i, ?_, fun hmarker => ?_⟩
          · rw [← List.cons_append, ← List.append_assoc, ← hmore, List.take_append_drop]
          · exact hnot (hmore ▸ hmarker.trans (List.prefix_append before _).isInfix)
  obtain ⟨after, rfl, hnot⟩ := hcut
  rw [hide_append_cons ha hnot] at h
  exact ⟨after, rfl, hnot, (List.cons.inj (List.append_cancel_left h)).2⟩

omit lawful in
theorem exists_hide (h : field.marker <:+: run) : ∃ before value,
    run = before ++ field.marker ++ value ∧ field.hide run = before ++ field.marker ++ field.substitute := by
  obtain ⟨i, hi⟩ := exists_position h
  exact ⟨_, _, position_literal_eq hi, by rw [hide_of_some hi, take_of_position hi]⟩

/-- Two runs become the same if they are, or differ in a value. -/
theorem hide_eq_iff : field.hide run = field.hide run' ↔ run = run' ∨
    ∃ before value value', run = before ++ field.marker ++ value ∧
      run' = before ++ field.marker ++ value' := by
  constructor
  · intro h
    have hfound {run run' : List α} (hnot : ¬field.marker <:+: run) (hmarker : field.marker <:+: run')
        (h : field.hide run = field.hide run') : False := by
      obtain ⟨before, value, -, hrun'⟩ := exists_hide hmarker
      rw [hide_unmarked hnot, hrun'] at h
      exact hnot ⟨before, field.substitute, h.symm⟩
    by_cases hmarker : field.marker <:+: run
    · by_cases hmarker' : field.marker <:+: run'
      · obtain ⟨before, value, rfl, hrun⟩ := exists_hide hmarker
        obtain ⟨before', value', rfl, hrun'⟩ := exists_hide hmarker'
        rw [hrun, hrun'] at h
        obtain rfl := List.append_cancel_right (List.append_cancel_right h)
        exact .inr ⟨before, value, value', rfl, rfl⟩
      · exact absurd h.symm (hfound hmarker' hmarker)
    · by_cases hmarker' : field.marker <:+: run'
      · exact absurd h (hfound hmarker hmarker')
      · rw [hide_unmarked hmarker, hide_unmarked hmarker'] at h
        exact .inl h
  · rintro (rfl | ⟨before, value, value', rfl, rfl⟩)
    · rfl
    · have hmarker : field.marker <:+: before ++ field.marker := (List.suffix_append ..).isInfix
      rw [hide_append lawful hmarker, hide_append lawful hmarker]

end Values

/-! ## The values of a text -/

/-- The letter behind the text is in no value. -/
def Field.Written (field : Field α) (text : List α) (a : α) : Prop :=
  field.delim a = true ∨ ¬field.InValue text

/-- The texts have the same letters outside their values. -/
inductive Field.Same (field : Field α) : List α → List α → Prop
  | rest (text : List α) : field.Same text text
  | value (before value value' : List α) {rest rest' : List α} : Plain field.delim value →
      Plain field.delim value' → Ended field.delim rest → Ended field.delim rest' →
      field.Same rest rest' → field.Same (before ++ field.marker ++ value ++ rest)
        (before ++ field.marker ++ value' ++ rest')

section Texts

variable {field : Field α} {before written value run run' rest rest' text text' : List α} {a : α}

theorem Field.Same.append_left (before : List α) (h : field.Same text text') :
    field.Same (before ++ text) (before ++ text') := by
  cases h with
  | rest => exact .rest _
  | value start value value' hplain hplain' hended hended' hrest =>
    simpa only [List.append_assoc] using
      Field.Same.value (before ++ start) value value' hplain hplain' hended hended' hrest

theorem inValue_of_marker (hplain : Plain field.delim run) (h : field.marker <:+: run)
    (before : List α) : field.InValue (before ++ run) := by
  obtain ⟨start, value, rfl⟩ := h
  refine ⟨before ++ start, value, ?_, fun b hb => hplain b (List.mem_append_right _ hb)⟩
  simp only [List.append_assoc]

variable (lawful : field.Lawful)

include lawful

/-- No value goes beyond a delimiter. -/
theorem inValue_delim (ha : field.delim a = true) (before rest : List α) :
    field.InValue (before ++ a :: rest) ↔ field.InValue rest := by
  constructor
  · rintro ⟨start, value, htext, hvalue⟩
    have hplain := plain_append lawful.marker_plain hvalue
    have hmem : a ∉ field.marker ++ value := fun hmem => by
      rw [hplain a hmem] at ha
      cases ha
    rw [List.append_assoc] at htext
    rcases List.append_eq_append_iff.mp htext with ⟨more, -, hmore⟩ | ⟨more, -, hmore⟩
    · cases more with
      | nil => exact absurd (hmore ▸ List.mem_cons_self : a ∈ [] ++ _) hmem
      | cons b more =>
        exact ⟨more, value, (List.cons.inj hmore).2.trans (List.append_assoc ..).symm, hvalue⟩
    · exact absurd (hmore ▸ List.mem_append_right more List.mem_cons_self) hmem
  · rintro ⟨start, value, rfl, hvalue⟩
    exact ⟨before ++ a :: start, value, by simp only [List.append_assoc, List.cons_append], hvalue⟩

variable [BEq α] [LawfulBEq α]

theorem hideAll_run (hplain : Plain field.delim run) (hended : Ended field.delim rest) :
    field.hideAll (run ++ rest) = field.hide run ++ field.hideAll rest := by
  rw [Field.hideAll, mapRuns_ended (hide_nil lawful) hended, mapRuns_plain hplain]

/-- A letter that is in no marker and in no value cuts the text. -/
theorem hideAll_written (ha : a ∉ field.marker) (h : field.Written before a) (rest : List α) :
    field.hideAll (before ++ a :: rest) = field.hideAll before ++ a :: field.hideAll rest := by
  cases hdelim : field.delim a with
  | true => exact mapRuns_delim hdelim before rest
  | false =>
    obtain ⟨start, run, rfl, hclosed, hplain⟩ := exists_run field.delim before
    obtain ⟨more, rest, rfl, hmore, hended⟩ := exists_first_run field.delim rest
    have hnot : ¬field.marker <:+: run := fun hmarker =>
      h.elim (fun ha => Bool.false_ne_true (hdelim.symm.trans ha))
        fun hvalue => hvalue (inValue_of_marker hplain hmarker start)
    have hnil := hide_nil lawful
    have hrun : Plain field.delim (run ++ a :: more) :=
      plain_append hplain (List.forall_mem_cons.mpr ⟨hdelim, hmore⟩)
    have htext : start ++ run ++ a :: (more ++ rest) = start ++ ((run ++ a :: more) ++ rest) := by
      simp only [List.append_assoc, List.cons_append]
    rw [htext, hideAll_run lawful hmore hended, Field.hideAll, mapRuns_closed hnil hclosed,
      mapRuns_closed hnil hclosed, ← Field.hideAll, hideAll_run lawful hrun hended,
      hide_append_cons ha hnot, Field.hideAll, mapRuns_plain hplain, hide_unmarked hnot]
    simp only [List.append_assoc, List.cons_append]

theorem exists_of_hide_run (ha : a ∉ field.marker) (ha' : a ∉ field.substitute)
    (hplain : Plain field.delim run) (h : field.hide run = written ++ a :: rest) :
    ∃ after, run = written ++ a :: after ∧ field.Written written a ∧ Plain field.delim after ∧
      field.hideAll written = written ∧ field.hide after = rest := by
  obtain ⟨after, rfl, hnot, hafter⟩ := exists_of_hide lawful ha ha' h
  obtain ⟨hbefore, hrest⟩ := List.forall_mem_append.mp hplain
  refine ⟨after, rfl, .inr fun hvalue => hnot ?_, (List.forall_mem_cons.mp hrest).2, ?_, hafter⟩
  · obtain ⟨start, value, rfl, -⟩ := hvalue
    exact ⟨start, value, rfl⟩
  · exact (mapRuns_plain hbefore).trans (hide_unmarked hnot)

/-- A letter of the result that is in no marker and does not come from a substitute. -/
theorem exists_of_hideAll (ha : a ∉ field.marker) (ha' : a ∉ field.substitute)
    (h : field.hideAll text = written ++ a :: rest) : ∃ before after, text = before ++ a :: after ∧
      field.Written before a ∧ field.hideAll before = written ∧ field.hideAll after = rest := by
  induction text using run_induction field.delim generalizing written with
  | last run hplain =>
    rw [Field.hideAll, mapRuns_plain hplain] at h
    obtain ⟨after, rfl, hwritten, hafter, hbefore, rfl⟩ := exists_of_hide_run lawful ha ha' hplain h
    exact ⟨written, after, rfl, hwritten, hbefore, mapRuns_plain hafter⟩
  | next run d more hplain hd ih =>
    have hmore : field.hideAll (run ++ d :: more) = field.hide run ++ d :: field.hideAll more := by
      rw [Field.hideAll, mapRuns_delim hd, mapRuns_plain hplain]
    rw [hmore] at h
    rcases Text.letters_cases h with ⟨rfl, rfl, rfl⟩ | ⟨between, rfl, hbetween⟩ | ⟨between, hbefore, rfl⟩
    · exact ⟨run, more, rfl, .inl hd, mapRuns_plain hplain, rfl⟩
    · obtain ⟨before, after, rfl, hwritten, rfl, rfl⟩ := ih hbetween
      refine ⟨run ++ d :: before, after, by rw [List.append_assoc, List.cons_append], ?_, ?_, rfl⟩
      · exact hwritten.imp_right (mt (inValue_delim lawful hd run before).mp)
      · exact (mapRuns_delim hd run before).trans (congrArg (· ++ _) (mapRuns_plain hplain))
    · obtain ⟨after, rfl, hwritten, hafter, hsame, rfl⟩ :=
        exists_of_hide_run lawful ha ha' hplain hbefore
      refine ⟨written, after ++ d :: more, List.append_assoc .., hwritten, hsame, ?_⟩
      exact (mapRuns_delim hd after more).trans (congrArg (· ++ _) (mapRuns_plain hafter))

theorem hideAll_nil : field.hideAll [] = [] := (mapRuns_plain plain_nil).trans (hide_nil lawful)

theorem hideAll_cons (ha : field.delim a = true) (rest : List α) :
    field.hideAll (a :: rest) = a :: field.hideAll rest := mapRuns_cons_delim (hide_nil lawful) ha rest

theorem hideAll_value (hplain : Plain field.delim value) (hended : Ended field.delim rest)
    (before : List α) : field.hideAll (before ++ field.marker ++ value ++ rest) =
      field.hideAll (before ++ field.marker) ++ field.hideAll rest := by
  obtain ⟨start, run, rfl, hclosed, hrun⟩ := exists_run field.delim before
  have hnil := hide_nil lawful
  have hmarker : Plain field.delim (run ++ field.marker) := plain_append hrun lawful.marker_plain
  have hinside : field.marker <:+: run ++ field.marker := (List.suffix_append ..).isInfix
  have hhidden : field.hideAll (start ++ run ++ field.marker ++ value) =
      field.hideAll (start ++ run ++ field.marker) := by
    rw [List.append_assoc start, List.append_assoc start, Field.hideAll, mapRuns_closed hnil hclosed,
      mapRuns_closed hnil hclosed, mapRuns_plain hmarker, mapRuns_plain (plain_append hmarker hplain),
      hide_append lawful hinside]
  rw [← hhidden]
  exact mapRuns_ended hnil hended _

theorem hideAll_unmarked (h : ¬field.marker <:+: text) : field.hideAll text = text := by
  induction text using run_induction field.delim with
  | last run hplain => exact (mapRuns_plain hplain).trans (hide_unmarked h)
  | next run a rest hplain ha ih =>
    rw [hideAll_run lawful hplain (ended_cons ha rest), hideAll_cons lawful ha,
      ih fun hrest => h (hrest.trans ((List.suffix_cons a rest).trans (List.suffix_append ..)).isInfix),
      hide_unmarked fun hrun => h (hrun.trans (List.prefix_append run _).isInfix)]

/-- What a turn of a loop does that looks for the marker. -/
theorem hideAll_of_position {i : Nat} (h : position (literal field.marker) text = some i)
    (hvalue : text.drop (i + field.marker.length) = value ++ rest) (hplain : Plain field.delim value)
    (hended : Ended field.delim rest) : field.hideAll text =
      text.take (i + field.marker.length) ++ field.substitute ++ field.hideAll rest := by
  have hfirst := not_infix_of_position lawful.marker_ne h
  have htext : text = text.take i ++ field.marker ++ value ++ rest := by
    rw [List.append_assoc (_ ++ _), ← hvalue]
    exact position_literal_eq h
  obtain ⟨start, run, hstart, hclosed, hrun⟩ := exists_run field.delim (text.take i)
  have hnil := hide_nil lawful
  rw [hstart] at hfirst
  have hposition : position (literal field.marker) (run ++ field.marker) = some run.length := by
    rw [← List.append_nil (run ++ field.marker), position_literal_append lawful.marker_ne]
    refine fun hrun => hfirst (hrun.trans ?_)
    rw [List.append_assoc]
    exact (List.suffix_append ..).isInfix
  have hhide : field.hide (run ++ field.marker) = run ++ field.marker ++ field.substitute := by
    rw [hide_of_some hposition, ← List.length_append, List.take_length]
  conv_lhs => rw [htext]
  rw [take_of_position h, hideAll_value lawful hplain hended, hstart, List.append_assoc start,
    Field.hideAll, mapRuns_closed hnil hclosed, mapRuns_plain (plain_append hrun lawful.marker_plain),
    hhide, ← Field.hideAll, hideAll_unmarked lawful fun hinside => hfirst ?_]
  · simp only [List.append_assoc]
  · rw [List.append_assoc]
    exact hinside.trans (List.prefix_append ..).isInfix

theorem hideAll_eq_nil (hended : Ended field.delim rest) (h : field.hideAll rest = []) :
    rest = [] := by
  cases rest with
  | nil => rfl
  | cons a rest =>
    rw [hideAll_cons lawful (hended a rfl)] at h
    cases h

/-- Behind runs that become the same. -/
theorem same_of_hide (hplain : Plain field.delim run) (hplain' : Plain field.delim run')
    (hended : Ended field.delim rest) (hended' : Ended field.delim rest')
    (h : field.hide run = field.hide run') (hrest : field.Same rest rest') :
    field.Same (run ++ rest) (run' ++ rest') := by
  rcases (hide_eq_iff lawful).mp h with rfl | ⟨before, value, value', rfl, rfl⟩
  · exact hrest.append_left run
  · exact .value before value value' (List.forall_mem_append.mp hplain).2
      (List.forall_mem_append.mp hplain').2 hended hended' hrest

/-- Two texts become the same if they have the same letters outside their values. -/
theorem hideAll_eq_iff : field.hideAll text = field.hideAll text' ↔ field.Same text text' := by
  constructor
  · intro h
    induction text using run_induction field.delim generalizing text' with
    | last run hplain =>
      obtain ⟨run', rest', rfl, hplain', hended'⟩ := exists_first_run field.delim text'
      rw [hideAll_run lawful hplain' hended', Field.hideAll, mapRuns_plain hplain,
        ← List.append_nil (field.hide run)] at h
      obtain ⟨hrun, hrest⟩ := first_run_unique (plain_hide lawful hplain) ended_nil
        (plain_hide lawful hplain') (ended_mapRuns (hide_nil lawful) hended') h
      obtain rfl := hideAll_eq_nil lawful hended' hrest.symm
      rw [← List.append_nil run]
      exact same_of_hide lawful hplain hplain' ended_nil ended_nil hrun (.rest [])
    | next run a rest hplain ha ih =>
      obtain ⟨run', rest', rfl, hplain', hended'⟩ := exists_first_run field.delim text'
      rw [hideAll_run lawful hplain' hended', hideAll_run lawful hplain (ended_cons ha rest)] at h
      obtain ⟨hrun, hrest⟩ := first_run_unique (plain_hide lawful hplain)
        (ended_mapRuns (hide_nil lawful) (ended_cons ha rest)) (plain_hide lawful hplain')
        (ended_mapRuns (hide_nil lawful) hended') h
      refine same_of_hide lawful hplain hplain' (ended_cons ha rest) hended' hrun ?_
      have hrest : a :: field.hideAll rest = field.hideAll rest' :=
        (hideAll_cons lawful ha rest).symm.trans hrest
      cases rest' with
      | nil =>
        rw [hideAll_nil lawful] at hrest
        cases hrest
      | cons b rest' =>
        rw [hideAll_cons lawful (hended' b rfl)] at hrest
        obtain ⟨rfl, hmore⟩ := List.cons.inj hrest
        exact (ih hmore).append_left [a]
  · intro h
    induction h with
    | rest text => rfl
    | value before value value' hplain hplain' hended hended' _ ih =>
      rw [hideAll_value lawful hplain hended, hideAll_value lawful hplain' hended', ih]

end Texts

/-! ## Patterns -/

section Patterns

variable {β : Type*} {f : α → β} {pattern : List β} {a : α} {run rest text : List α}

theorem prefix_map_ended {delim : α → Bool} (hdelim : ∀ a, delim a = true → f a ∉ pattern)
    (hended : Ended delim rest) : pattern <+: (run ++ rest).map f ↔ pattern <+: run.map f := by
  cases rest with
  | nil => rw [List.append_nil]
  | cons a rest =>
    rw [List.map_append, List.map_cons]
    exact Text.prefix_append_cons_iff (hdelim a (hended a rfl))

theorem infix_of_start {after : List α} (h : pattern <+: after.map f) (before : List α) (a : α) :
    f a :: pattern <:+: (before ++ a :: after).map f := by
  obtain ⟨rest, hrest⟩ := h
  refine ⟨before.map f, rest, ?_⟩
  rw [List.map_append, List.map_cons, ← hrest, List.append_assoc, List.cons_append]

/-- A pattern with the letter in front. -/
theorem infix_map_iff (hletter : ∀ b, f b = f a → b = a) : f a :: pattern <:+: text.map f ↔
    ∃ before after, text = before ++ a :: after ∧ pattern <+: after.map f := by
  constructor
  · rintro ⟨start, rest, htext⟩
    rw [List.append_assoc, List.cons_append] at htext
    obtain ⟨before, after, rfl, -, hafter⟩ := List.map_eq_append_iff.mp htext.symm
    obtain ⟨b, after, rfl, hb, hmore⟩ := List.map_eq_cons_iff.mp hafter
    obtain rfl := hletter b hb
    exact ⟨before, after, rfl, rest, hmore.symm⟩
  · rintro ⟨before, after, rfl, hbegins⟩
    exact infix_of_start hbegins before a

/-- The pattern stands at the letter between the texts, and nowhere before. -/
def First (f : α → β) (a : α) (pattern : List β) (before after : List α) : Prop :=
  pattern <+: after.map f ∧ ¬f a :: pattern <:+: before.map f

theorem First.unique {before after before' after' : List α} (hpattern : f a ∉ pattern)
    (h : First f a pattern before after) (h' : First f a pattern before' after')
    (htext : before ++ a :: after = before' ++ a :: after') : before = before' ∧ after = after' := by
  have hearlier {before between after : List α} (hbegins : pattern <+: (between ++ a :: after).map f)
      (hnot : ¬f a :: pattern <:+: (before ++ a :: between).map f) : False := by
    rw [List.map_append, List.map_cons, Text.prefix_append_cons_iff hpattern] at hbegins
    exact hnot (infix_of_start hbegins before a)
  rcases Text.letters_cases htext with ⟨rfl, -, rfl⟩ | ⟨between, rfl, rfl⟩ | ⟨between, rfl, rfl⟩
  · exact ⟨rfl, rfl⟩
  · exact (hearlier h.1 h'.2).elim
  · exact (hearlier h'.1 h.2).elim

section Position

variable [BEq β] [LawfulBEq β]

/-- The search finds the pattern at its first place. -/
theorem exists_first {i : Nat} (hletter : ∀ b, f b = f a → b = a)
    (h : position (literal (f a :: pattern)) (text.map f) = some i) : ∃ before after,
      text = before ++ a :: after ∧ before.length = i ∧ First f a pattern before after := by
  have hnot := not_infix_of_position (List.cons_ne_nil _ _) h
  obtain ⟨rest, hrest⟩ := startsWith_literal.mp (position_eq_some h).1
  rw [← List.map_drop, List.cons_append] at hrest
  obtain ⟨b, after, hdrop, hb, hafter⟩ := List.map_eq_cons_iff.mp hrest.symm
  obtain rfl := hletter b hb
  refine ⟨text.take i, after, by rw [← hdrop, List.take_append_drop], ?_, ⟨rest, hafter.symm⟩, ?_⟩
  · refine List.length_take_of_le (Nat.le_of_not_le fun hle => ?_)
    rw [List.drop_eq_nil_iff.mpr hle] at hdrop
    cases hdrop
  · rw [List.map_take]
    exact fun hinside => hnot (hinside.trans (List.prefix_append ..).isInfix)

end Position

variable [BEq α] [LawfulBEq α] {field : Field α}

variable (lawful : field.Lawful) (hshort : pattern.length ≤ field.marker.length)
  (hdelim : ∀ a, field.delim a = true → f a ∉ pattern)

include hshort

omit hdelim in
theorem prefix_map_hide : pattern <+: (field.hide run).map f ↔ pattern <+: run.map f := by
  by_cases hmarker : field.marker <:+: run
  · obtain ⟨before, value, hrun, hhide⟩ := exists_hide hmarker
    have hlength : pattern.length ≤ ((before ++ field.marker).map f).length := by
      rw [List.length_map, List.length_append]
      exact hshort.trans (Nat.le_add_left _ _)
    have hmap (rest : List α) : (before ++ field.marker ++ rest).map f =
        (before ++ field.marker).map f ++ rest.map f := List.map_append
    rw [hhide, hrun, hmap, hmap, List.isPrefix_append_of_length hlength,
      List.isPrefix_append_of_length hlength]
  · rw [hide_unmarked hmarker]

include lawful hdelim

/-- A short pattern without delimiters at the beginning of a text. -/
theorem prefix_map_hideAll : pattern <+: (field.hideAll text).map f ↔ pattern <+: text.map f := by
  obtain ⟨run, rest, rfl, hplain, hended⟩ := exists_first_run field.delim text
  have hended' : Ended field.delim (field.hideAll rest) := ended_mapRuns (hide_nil lawful) hended
  rw [hideAll_run lawful hplain hended, prefix_map_ended hdelim hended,
    prefix_map_ended hdelim hended', prefix_map_hide hshort]

/-- A pattern with a delimiter in front. -/
theorem infix_map_hideAll (ha : field.delim a = true) (hmarker : a ∉ field.marker)
    (hsubstitute : a ∉ field.substitute) (hletter : ∀ b, f b = f a → b = a) :
    f a :: pattern <:+: (field.hideAll text).map f ↔ f a :: pattern <:+: text.map f := by
  rw [infix_map_iff hletter, infix_map_iff hletter]
  constructor
  · rintro ⟨before, after, htext, hbegins⟩
    obtain ⟨before, after, rfl, -, -, rfl⟩ := exists_of_hideAll lawful hmarker hsubstitute htext
    exact ⟨before, after, rfl, (prefix_map_hideAll lawful hshort hdelim).mp hbegins⟩
  · rintro ⟨before, after, rfl, hbegins⟩
    refine ⟨_, _, hideAll_written lawful hmarker (.inl ha) after, ?_⟩
    exact (prefix_map_hideAll lawful hshort hdelim).mpr hbegins

/-- The first place of a pattern stays the first. -/
theorem first_hideAll {before after : List α} (ha : field.delim a = true) (hmarker : a ∉ field.marker)
    (hsubstitute : a ∉ field.substitute) (hletter : ∀ b, f b = f a → b = a) :
    First f a pattern (field.hideAll before) (field.hideAll after) ↔ First f a pattern before after :=
  and_congr (prefix_map_hideAll lawful hshort hdelim)
    (not_congr (infix_map_hideAll lawful hshort hdelim ha hmarker hsubstitute hletter))

end Patterns

end Tokens
