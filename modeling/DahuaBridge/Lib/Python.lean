import DahuaBridge.Lib.Utf8

/-!
# Python's text and numbers

A `str` is a list of characters, and a function that may raise has its exception in the
result: `str.encode`, `bytes.decode` and `int` of a text, as Python 3.12 has them, and what
`json.loads` may return. A number is written as `str` and an f-string write it.

* `decode_encode`: an encoded text is decoded to itself.
* `int_toDigits`: decimal digits are read back.
* `int_of_mem`: a text with a letter that belongs to no number is not read.
* `Json.toInt_error`: what `int` of a value may raise.
-/

namespace Python

/-- The exceptions that the modelled calls raise. A `UnicodeError`, a `binascii.Error` and a
`JSONDecodeError` are a `ValueError`. -/
inductive Exc
  | valueError
  | typeError
  | attributeError
  | overflowError
  | recursionError
  | osError
  deriving DecidableEq, Repr

/-! ## Encodings -/

/-- `str.encode()`. -/
def encode (text : List Char) : List UInt8 := text.flatMap String.utf8EncodeChar

/-- `bytes.decode()`. -/
def decode (bytes : List UInt8) : Except Exc (List Char) :=
  if Utf8.invalidWidths bytes = [] then .ok (Utf8.lossy bytes) else .error .valueError

/-- `str.encode("ascii")`. -/
def encodeAscii (text : List Char) : Except Exc (List UInt8) :=
  if Utf8.isAscii text then .ok (text.map Char.toUInt8) else .error .valueError

/-- `bytes.decode("latin1")`. -/
def decodeLatin1 (bytes : List UInt8) : List Char := bytes.map fun b => Char.ofNat b.toNat

theorem decodeLatin1_append (bytes more : List UInt8) :
    decodeLatin1 (bytes ++ more) = decodeLatin1 bytes ++ decodeLatin1 more := List.map_append

theorem decodeLatin1_ascii {text : List Char} (h : Utf8.isAscii text = true) :
    decodeLatin1 (text.map Char.toUInt8) = text := by
  rw [decodeLatin1, List.map_map]
  refine (List.map_congr_left fun c hc => ?_).trans (List.map_id _)
  rw [Function.comp_apply, Utf8.toNat_toUInt8 (Utf8.isAscii_iff.mp h c hc), Char.ofNat_toNat, id_eq]

theorem decode_encode (text : List Char) : decode (encode text) = .ok text := by
  rw [decode, encode, if_pos (Utf8.invalidWidths_encode text), Utf8.lossy_encode]

/-! ## Numbers -/

/-- The zeros of the decimal digits of Unicode 15. Behind each of them stand the other nine. -/
def zeros : List Nat :=
  [0x30, 0x660, 0x6F0, 0x7C0, 0x966, 0x9E6, 0xA66, 0xAE6, 0xB66, 0xBE6, 0xC66, 0xCE6, 0xD66, 0xDE6,
    0xE50, 0xED0, 0xF20, 0x1040, 0x1090, 0x17E0, 0x1810, 0x1946, 0x19D0, 0x1A80, 0x1A90, 0x1B50,
    0x1BB0, 0x1C40, 0x1C50, 0xA620, 0xA8D0, 0xA900, 0xA9D0, 0xA9F0, 0xAA50, 0xABF0, 0xFF10, 0x104A0,
    0x10D30, 0x11066, 0x110F0, 0x11136, 0x111D0, 0x112F0, 0x11450, 0x114D0, 0x11650, 0x116C0,
    0x11730, 0x118E0, 0x11950, 0x11C50, 0x11D50, 0x11DA0, 0x11F50, 0x16A60, 0x16AC0, 0x16B50,
    0x1D7CE, 0x1D7D8, 0x1D7E2, 0x1D7EC, 0x1D7F6, 0x1E140, 0x1E2F0, 0x1E4F0, 0x1E950, 0x1FBF0]

def decimal (c : Char) : Option Nat :=
  (zeros.find? fun start => start ≤ c.toNat && c.toNat < start + 10).map (c.toNat - ·)

/-- The digits of a number. A single underscore may stand between two of them. -/
def digits (afterDigit : Bool) : List Char → Option (List Nat)
  | [] => if afterDigit then some [] else none
  | c :: text =>
    if c = '_' then if afterDigit then digits false text else none
    else (decimal c).bind fun d => (digits true text).map (d :: ·)

/-- The sign of a number, and what stands behind it. -/
def sign : List Char → Int × List Char
  | '-' :: text => (-1, text)
  | '+' :: text => (1, text)
  | text => (1, text)

/-- `int(text)`. It refuses more than 4300 digits. -/
def int (text : List Char) : Except Exc Int :=
  let (unit, text) := sign (Text.trim Text.isWhiteSpace text)
  match digits false text with
  | some ds =>
    if ds.length ≤ 4300 then .ok (unit * (ds.foldl (fun n d => 10 * n + d) 0 : Nat))
    else .error .valueError
  | none => .error .valueError

section Int

variable {text : List Char} {c : Char} {n : Nat}

theorem decimal_of_isDigit (h : c.isDigit = true) : decimal c = some (c.toNat - 48) := by
  obtain ⟨hlow, hhigh⟩ := Text.isDigit_bounds h
  rw [decimal, zeros, List.find?_cons_of_pos]
  · rfl
  · rw [Bool.and_eq_true, decide_eq_true_eq, decide_eq_true_eq]
    omega

theorem digits_of_isDigit (h : ∀ c ∈ text, c.isDigit = true) :
    digits true text = some (text.map fun c => c.toNat - 48) := by
  induction text with
  | nil => rfl
  | cons c text ih =>
    obtain ⟨hc, htext⟩ := List.forall_mem_cons.mp h
    have hplain : c ≠ '_' := fun heq => absurd (heq ▸ hc) (by decide)
    rw [digits, if_neg hplain, decimal_of_isDigit hc, ih htext]
    rfl

theorem digits_cons_isDigit (h : c.isDigit = true) (afterDigit : Bool) :
    digits afterDigit (c :: text) = digits true (c :: text) := by
  have hplain : c ≠ '_' := fun heq => absurd (heq ▸ h) (by decide)
  rw [digits, digits, if_neg hplain, if_neg hplain]

theorem sign_eq_self (hminus : text.head? ≠ some '-') (hplus : text.head? ≠ some '+') :
    sign text = (1, text) := by
  unfold sign
  split
  · exact absurd rfl hminus
  · exact absurd rfl hplus
  · rfl

/-- Decimal digits are read back. -/
theorem int_toDigits (hn : (Nat.toDigits 10 n).length ≤ 4300) :
    int (Nat.toDigits 10 n) = .ok (n : Int) := by
  have hdigit := Text.isDigit_toDigits n
  have htrim : Text.trim Text.isWhiteSpace (Nat.toDigits 10 n) = Nat.toDigits 10 n :=
    Text.trim_eq_self fun c hc => Text.not_isWhiteSpace_of_isDigit (hdigit c hc)
  have hsign : sign (Nat.toDigits 10 n) = (1, Nat.toDigits 10 n) := by
    refine sign_eq_self (fun hhead => ?_) fun hhead => ?_
    · exact absurd (hdigit _ (List.mem_of_head? hhead)) (by decide)
    · exact absurd (hdigit _ (List.mem_of_head? hhead)) (by decide)
  have hdigits : digits false (Nat.toDigits 10 n) =
      some ((Nat.toDigits 10 n).map fun c => c.toNat - 48) := by
    rw [← digits_of_isDigit hdigit]
    cases hcases : Nat.toDigits 10 n with
    | nil => exact absurd hcases Nat.toDigits_ne_nil
    | cons c text => exact digits_cons_isDigit (hdigit c (hcases ▸ List.mem_cons_self)) false
  have hvalue : ((Nat.toDigits 10 n).map fun c => c.toNat - 48).foldl (fun n d => 10 * n + d) 0 = n := by
    rw [List.foldl_map]
    exact Nat.ofDigitChars_eq_foldl.symm.trans (Nat.ofDigitChars_ten_toDigits)
  simp only [int, htrim, hsign, hdigits, List.length_map, if_pos hn, hvalue, one_mul]

theorem digits_of_mem (hc : c ∈ text) (hunderscore : c ≠ '_') (hdecimal : decimal c = none)
    (afterDigit : Bool) : digits afterDigit text = none := by
  induction text generalizing afterDigit with
  | nil => cases hc
  | cons d text ih =>
    rw [digits]
    rcases List.mem_cons.mp hc with rfl | hc
    · rw [if_neg hunderscore, hdecimal, Option.bind_none]
    · split
      · split
        · exact ih hc false
        · rfl
      · rw [ih hc true]
        cases decimal d <;> rfl

theorem mem_sign (hc : c ∈ text) (hplus : c ≠ '+') (hminus : c ≠ '-') : c ∈ (sign text).2 := by
  unfold sign
  split
  · exact (List.mem_cons.mp hc).resolve_left hminus
  · exact (List.mem_cons.mp hc).resolve_left hplus
  · exact hc

/-- A text with a letter that belongs to no number is not read. -/
theorem int_of_mem (hc : c ∈ text) (hspace : Text.isWhiteSpace c = false) (hplus : c ≠ '+')
    (hminus : c ≠ '-') (hunderscore : c ≠ '_') (hdecimal : decimal c = none) :
    int text = .error .valueError := by
  have hmem := mem_sign (Text.mem_trim hc hspace) hplus hminus
  simp only [int, digits_of_mem hmem hunderscore hdecimal]

end Int

/-- The number has not more digits than are written. -/
def Printable (n : Int) : Prop := (Nat.toDigits 10 n.natAbs).length ≤ 4300

instance (n : Int) : Decidable (Printable n) := Nat.decLe _ _

/-- `str(n)`. -/
def str (n : Int) : Except Exc (List Char) :=
  if Printable n then .ok ((if n < 0 then ['-'] else []) ++ Nat.toDigits 10 n.natAbs)
  else .error .valueError

/-! ## Values -/

/-- A `float`. -/
inductive Float
  | finite (value : Rat)
  | infinite (negative : Bool)
  | nan

/-- `int` of a finite float drops what stands behind the point. -/
def truncate (x : Rat) : Int := if 0 ≤ x then x.floor else x.ceil

/-- The closest integer; of two, the even one. -/
def roundEven (x : Rat) : Int :=
  let n := x.floor
  if x - n < 1 / 2 ∨ x - n = 1 / 2 ∧ n % 2 = 0 then n else n + 1

/-- `f"{x:.0f}"` of a float that is not negative. -/
def fixedText (x : Rat) : String := toString (roundEven x)

/-- `str(x)` of a float from 1 to 10^15: the shortest decimal fraction that is closer to it
than half a unit in the last place. -/
def floatText (x : Rat) : String :=
  let half : Rat := (2 ^ Nat.log2 x.floor.toNat : Nat) / (2 ^ 53 : Nat)
  let scale (k : Nat) : Rat := (10 ^ k : Nat)
  let scaled (k : Nat) : Int := roundEven (x * scale k)
  let reads (k : Nat) : Bool := scaled k < (x + half) * scale k && (x - half) * scale k < scaled k
  let k := ((List.range' 1 16).find? reads).getD 17
  let n := (scaled k).toNat
  let digits := Nat.toDigits 10 (n % 10 ^ k)
  toString (n / 10 ^ k) ++ "." ++ String.ofList (List.replicate (k - digits.length) '0' ++ digits)

example : floatText (5224175567749775 / 2 ^ 50) = "4.64" := by decide +kernel

/-- What `json.loads` may return. The keys of a `dict` are distinct. -/
inductive Json
  | null
  | bool (b : Bool)
  | int (n : Int)
  | float (x : Float)
  | str (text : List Char)
  | list (items : List Json)
  | dict (items : List (List Char × Json))

/-- `int(value)`. -/
def Json.toInt : Json → Except Exc Int
  | .null => .error .typeError
  | .bool b => .ok (if b then 1 else 0)
  | .int n => .ok n
  | .float (.finite x) => .ok (truncate x)
  | .float (.infinite _) => .error .overflowError
  | .float .nan => .error .valueError
  | .str text => Python.int text
  | .list _ => .error .typeError
  | .dict _ => .error .typeError

/-- `hmac.compare_digest` of two texts. -/
def compareDigest (a b : List Char) : Except Exc Bool :=
  if Utf8.isAscii a && Utf8.isAscii b then .ok (a = b) else .error .typeError

theorem int_error {text : List Char} {e : Exc} (h : int text = .error e) : e = .valueError := by
  unfold int at h
  dsimp only at h
  split at h
  · split at h
    · cases h
    · exact (Except.error.inj h).symm
  · exact (Except.error.inj h).symm

/-- Only an infinite number leads to anything else than a `ValueError` or a `TypeError`. -/
theorem Json.toInt_error {value : Json} {e : Exc} (h : value.toInt = .error e) :
    e = .valueError ∨ e = .typeError ∨
      (e = .overflowError ∧ ∃ negative, value = .float (.infinite negative)) := by
  unfold Json.toInt at h
  split at h
  · exact .inr (.inl (Except.error.inj h).symm)
  · cases h
  · cases h
  · cases h
  · next negative => exact .inr (.inr ⟨(Except.error.inj h).symm, negative, rfl⟩)
  · exact .inl (Except.error.inj h).symm
  · exact .inl (int_error h)
  · exact .inr (.inl (Except.error.inj h).symm)
  · exact .inr (.inl (Except.error.inj h).symm)

theorem compareDigest_ascii {a b : List Char} (ha : Utf8.isAscii a = true)
    (hb : Utf8.isAscii b = true) : compareDigest a b = .ok (a = b) := by
  rw [compareDigest, ha, hb, Bool.and_self, if_pos rfl]

theorem compareDigest_error {a b : List Char} (h : ¬(Utf8.isAscii a = true ∧ Utf8.isAscii b = true)) :
    compareDigest a b = .error .typeError := by
  rw [compareDigest, if_neg fun hboth => h (Bool.and_eq_true_iff.mp hboth)]

end Python
