import DahuaBridge.Http.Message

/-!
# The length that a message declares

`http_request_complete` and `http_response_complete` add the declared length to the end of the
header. The sum is one of `usize`: a release build wraps it, and a debug build stops.

* `messageComplete_counts_iff`: a length that is not counted in full is one whose sum wraps.
* `checkedComplete_eq`: a debug build stops for the same lengths, and agrees otherwise.
-/

namespace DahuaBridge

/-! ## Declared lengths -/

/-- The end of the header and the length that the header declares. -/
def declared (data : Bytes) : Option (Nat × Nat) :=
  (headerEnd data).bind fun headerEnd =>
    (contentLength (Utf8.lossy (data.take headerEnd))).map fun length => (headerEnd, length)

/-- The declared length leaves room for the header in a `usize`. -/
def Addressable (data : Bytes) : Prop :=
  ∀ headerEnd length, declared data = some (headerEnd, length) →
    length ≤ 2 ^ 64 - 1 - (headerEnd + 4)

/-- The declared length, where the test passes, is there behind the header. -/
def Counted (complete : Bytes → Bool) (data : Bytes) : Prop :=
  ∀ headerEnd length, declared data = some (headerEnd, length) → complete data = true →
    length ≤ (data.drop (headerEnd + 4)).length

/-- The sum of the header and the declared length is a `usize`. -/
def SumFits (data : Bytes) : Prop :=
  ∀ headerEnd length, declared data = some (headerEnd, length) → headerEnd + 4 + length < 2 ^ 64

/-- The test of a debug build, in which a sum that is no `usize` panics. -/
def checkedComplete (data : Bytes) : Option Bool :=
  match headerEnd data with
  | none => some false
  | some headerEnd =>
    match contentLength (Utf8.lossy (data.take headerEnd)) with
    | some length =>
      if headerEnd + 4 + length < 2 ^ 64 then some (headerEnd + 4 + length ≤ data.length) else none
    | none => some true

section

variable {data : Bytes} {headers : List Char} {i length : Nat}

theorem parseUsize_lt {text : List Char} (h : parseUsize text = some length) : length < 2 ^ 64 := by
  rw [parseUsize] at h
  split at h
  all_goals
    split at h
    · cases h
    · exact of_decide_eq_true (Option.filter_eq_some_iff.mp h).2

theorem contentLength_lt (h : contentLength headers = some length) : length < 2 ^ 64 := by
  obtain ⟨line, -, hline⟩ := List.exists_of_findSome?_eq_some h
  obtain ⟨⟨name, value⟩, -, hvalue⟩ := Option.bind_eq_some_iff.mp hline
  dsimp only at hvalue
  split at hvalue
  · exact parseUsize_lt hvalue
  · cases hvalue

theorem declared_eq_some : declared data = some (i, length) ↔
    headerEnd data = some i ∧ contentLength (Utf8.lossy (data.take i)) = some length := by
  rw [declared, Option.bind_eq_some_iff]
  constructor
  · rintro ⟨j, hj, hmap⟩
    obtain ⟨found, hfound, hpair⟩ := Option.map_eq_some_iff.mp hmap
    cases hpair
    exact ⟨hj, hfound⟩
  · rintro ⟨hi, hlength⟩
    exact ⟨i, hi, by rw [hlength, Option.map_some]⟩

theorem messageComplete_of_declared (h : declared data = some (i, length)) :
    messageComplete data = decide ((i + 4 + length) % 2 ^ 64 ≤ data.length) := by
  obtain ⟨hi, hlength⟩ := declared_eq_some.mp h
  simp only [messageComplete, hi, hlength]

/-- A sum that wraps is smaller than the header, so the test passes. -/
theorem messageComplete_of_wraps (h : declared data = some (i, length))
    (hwraps : 2 ^ 64 ≤ i + 4 + length) : messageComplete data = true := by
  have hheader := headerEnd_add_four_le (declared_eq_some.mp h).1
  have hlength := contentLength_lt (declared_eq_some.mp h).2
  rw [messageComplete_of_declared h, decide_eq_true_eq, Nat.mod_eq_sub_mod hwraps]
  refine Nat.le_trans (Nat.mod_le _ _) ?_
  omega

theorem addressable_iff_sumFits (hdata : data.length < 2 ^ 64) : Addressable data ↔ SumFits data := by
  refine forall_congr' fun i => forall_congr' fun length => forall_congr' fun h => ?_
  have hheader := headerEnd_add_four_le (declared_eq_some.mp h).1
  omega

theorem counted_iff_sumFits (hdata : data.length < 2 ^ 64) :
    Counted messageComplete data ↔ SumFits data := by
  refine forall_congr' fun i => forall_congr' fun length => forall_congr' fun h => ?_
  have hheader := headerEnd_add_four_le (declared_eq_some.mp h).1
  rw [List.length_drop]
  constructor
  · intro hcounted
    by_contra hwraps
    have hthere := hcounted (messageComplete_of_wraps h (Nat.le_of_not_lt hwraps))
    omega
  · intro hfits hcomplete
    rw [messageComplete_of_declared h, decide_eq_true_eq, Nat.mod_eq_of_lt hfits] at hcomplete
    omega

/-- A debug build stops where the sum does not fit, and answers the same elsewhere. -/
theorem checkedComplete_spec (data : Bytes) : (SumFits data ∧
      checkedComplete data = some (messageComplete data)) ∨
    (¬SumFits data ∧ checkedComplete data = none) := by
  cases hi : headerEnd data with
  | none =>
    refine .inl ⟨fun i length h => ?_, by simp only [checkedComplete, messageComplete, hi]⟩
    rw [(declared_eq_some.mp h).1] at hi
    cases hi
  | some i =>
    cases hlength : contentLength (Utf8.lossy (data.take i)) with
    | none =>
      refine .inl ⟨fun j length h => ?_, by simp only [checkedComplete, messageComplete, hi, hlength]⟩
      obtain ⟨hj, hfound⟩ := declared_eq_some.mp h
      obtain rfl := Option.some.inj (hi.symm.trans hj)
      rw [hfound] at hlength
      cases hlength
    | some length =>
      have hdeclared : declared data = some (i, length) := declared_eq_some.mpr ⟨hi, hlength⟩
      have hfits : SumFits data ↔ i + 4 + length < 2 ^ 64 := by
        refine ⟨fun h => h i length hdeclared, fun h j found hfound => ?_⟩
        cases hdeclared.symm.trans hfound
        exact h
      by_cases hsum : i + 4 + length < 2 ^ 64
      · refine .inl ⟨hfits.mpr hsum, ?_⟩
        rw [messageComplete_of_declared hdeclared, Nat.mod_eq_of_lt hsum]
        simp only [checkedComplete, hi, hlength, if_pos hsum]
      · refine .inr ⟨mt hfits.mp hsum, ?_⟩
        simp only [checkedComplete, hi, hlength, if_neg hsum]

end

/-- For data of any length that a `usize` holds, the two tests count the declared length in
full, and its sum fits, exactly if the length leaves room for the header; where it does not, a
debug build stops. What follows changes no test that passes. -/
theorem complete_counted_iff {data : Bytes} (hdata : data.length < 2 ^ 64) :
    (Counted httpRequestComplete data ↔ Addressable data) ∧
    (Counted httpResponseComplete data ↔ Addressable data) ∧
    (SumFits data ↔ Addressable data) ∧ (checkedComplete data = none ↔ ¬Addressable data) ∧
    (httpRequestComplete data = true → ∀ more, httpRequestComplete (data ++ more) = true) ∧
    (httpResponseComplete data = true → ∀ more, httpResponseComplete (data ++ more) = true) := by
  have hroom := addressable_iff_sumFits hdata
  have hcounted := (counted_iff_sumFits hdata).trans hroom.symm
  refine ⟨hcounted, hcounted, hroom.symm, ?_, fun h more => messageComplete_append more h,
    fun h more => messageComplete_append more h⟩
  rw [hroom]
  rcases checkedComplete_spec data with ⟨hfits, hchecked⟩ | ⟨hwraps, hchecked⟩
  · exact iff_of_false (by rw [hchecked]; exact Option.some_ne_none _) (not_not_intro hfits)
  · exact iff_of_true hchecked hwraps

theorem complete_counted_iff_five :
    let data := asBytes "HTTP/1.1 200 OK\r\nContent-Length: 5\r\n\r\n12345"
    SumFits data ↔ Addressable data :=
  (@complete_counted_iff (asBytes "HTTP/1.1 200 OK\r\nContent-Length: 5\r\n\r\n12345")
    (by decide +kernel)).2.2.1

/-- The largest `usize` as the length: the sum wraps, and the header alone is complete. -/
def largestLength : Bytes := asBytes "HTTP/1.1 200 OK\r\nContent-Length: 18446744073709551615\r\n\r\n"

theorem largestLength_not_counted : largestLength.length < 2 ^ 64 ∧
    httpResponseComplete largestLength = true ∧ ¬Counted httpResponseComplete largestLength ∧
    httpRequestComplete largestLength = true ∧ ¬Counted httpRequestComplete largestLength ∧
    ¬SumFits largestLength := by
  have hdeclared : declared largestLength = some (53, 2 ^ 64 - 1) := by decide +kernel
  have hcomplete : messageComplete largestLength = true :=
    messageComplete_of_wraps hdeclared (by decide)
  have hnothing : (largestLength.drop (53 + 4)).length = 0 := by decide
  have hmissing : ¬Counted messageComplete largestLength := by
    intro h
    have hthere := h 53 _ hdeclared hcomplete
    rw [hnothing] at hthere
    exact absurd hthere (by decide)
  refine ⟨by decide, hcomplete, hmissing, hcomplete, hmissing, fun h => ?_⟩
  exact absurd (h 53 _ hdeclared) (by decide)

end DahuaBridge
