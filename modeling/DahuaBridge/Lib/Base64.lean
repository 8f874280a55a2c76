import DahuaBridge.Lib.Text

/-!
# Base64

Encoding in groups of three bytes, and the lenient decoding that skips letters outside the
alphabet: `b64encode`, `b64decode` and their variants for URLs, in Python's `base64`.

* `decode_encode`: what is encoded is decoded to itself.
* `urlDecode_pad`: the padding may be cut off and put back.
-/

namespace Base64

/-! ## Letters -/

/-- The letter for six bits. -/
def letter (v : Nat) : Char :=
  if v < 26 then Char.ofNat (65 + v)
  else if v < 52 then Char.ofNat (71 + v)
  else if v < 62 then Char.ofNat (v - 4)
  else if v = 62 then '+'
  else '/'

/-- The six bits of a letter of the alphabet. -/
def sextet (c : Char) : Option Nat :=
  if 'A' ≤ c ∧ c ≤ 'Z' then some (c.toNat - 65)
  else if 'a' ≤ c ∧ c ≤ 'z' then some (c.toNat - 71)
  else if '0' ≤ c ∧ c ≤ '9' then some (c.toNat + 4)
  else if c = '+' then some 62
  else if c = '/' then some 63
  else none

theorem letter_spec : ∀ v < 64, sextet (letter v) = some v ∧ letter v ≠ '=' ∧
    (letter v).toNat < 0x80 ∧ letter v ≠ '-' ∧ letter v ≠ '_' := by decide

/-! ## Encoding and decoding -/

def encode : List UInt8 → List Char
  | [] => []
  | [a] => [letter (a.toNat / 4), letter (a.toNat % 4 * 16), '=', '=']
  | [a, b] =>
    [letter (a.toNat / 4), letter (a.toNat % 4 * 16 + b.toNat / 16), letter (b.toNat % 16 * 4), '=']
  | a :: b :: c :: rest =>
    letter (a.toNat / 4) :: letter (a.toNat % 4 * 16 + b.toNat / 16) ::
      letter (b.toNat % 16 * 4 + c.toNat / 64) :: letter (c.toNat % 64) :: encode rest

/-- Decoding behind `quad` letters of a group and `pads` signs of padding. `left` are the bits
of the group that are not written. -/
def decodeFrom (quad left pads : Nat) : List Char → Option (List UInt8)
  | [] => if quad = 0 then some [] else none
  | c :: text =>
    if c = '=' then
      -- a group that is padded to its end is the last one
      if 2 ≤ quad ∧ 4 ≤ quad + (pads + 1) then some []
      else decodeFrom quad left (if 2 ≤ quad then pads + 1 else pads) text
    else
      match sextet c with
      | none => decodeFrom quad left pads text
      | some v =>
        match quad with
        | 0 => decodeFrom 1 v 0 text
        | 1 => (decodeFrom 2 (v % 16) 0 text).map (UInt8.ofNat (left * 4 + v / 16) :: ·)
        | 2 => (decodeFrom 3 (v % 4) 0 text).map (UInt8.ofNat (left * 16 + v / 4) :: ·)
        | _ => (decodeFrom 0 0 0 text).map (UInt8.ofNat (left * 64 + v) :: ·)

/-- Text that is not ASCII is refused. -/
def decode (text : List Char) : Option (List UInt8) :=
  if text.all (·.toNat < 0x80) then decodeFrom 0 0 0 text else none

section Decode

variable {v left pads : Nat} {text : List Char} {b : UInt8}

theorem ofNat_eq {n : Nat} (h : n = b.toNat) : UInt8.ofNat n = b := by rw [h, UInt8.ofNat_toNat]

theorem decodeFrom_first (hv : v < 64) :
    decodeFrom 0 left pads (letter v :: text) = decodeFrom 1 v 0 text := by
  obtain ⟨hsextet, hpad, -⟩ := letter_spec v hv
  rw [decodeFrom, if_neg hpad, hsextet]
  rfl

theorem decodeFrom_second (hv : v < 64) (hb : left * 4 + v / 16 = b.toNat) :
    decodeFrom 1 left pads (letter v :: text) = (decodeFrom 2 (v % 16) 0 text).map (b :: ·) := by
  obtain ⟨hsextet, hpad, -⟩ := letter_spec v hv
  rw [decodeFrom, if_neg hpad, hsextet, ← ofNat_eq hb]
  rfl

theorem decodeFrom_third (hv : v < 64) (hb : left * 16 + v / 4 = b.toNat) :
    decodeFrom 2 left pads (letter v :: text) = (decodeFrom 3 (v % 4) 0 text).map (b :: ·) := by
  obtain ⟨hsextet, hpad, -⟩ := letter_spec v hv
  rw [decodeFrom, if_neg hpad, hsextet, ← ofNat_eq hb]
  rfl

theorem decodeFrom_fourth (hv : v < 64) (hb : left * 64 + v = b.toNat) :
    decodeFrom 3 left pads (letter v :: text) = (decodeFrom 0 0 0 text).map (b :: ·) := by
  obtain ⟨hsextet, hpad, -⟩ := letter_spec v hv
  rw [decodeFrom, if_neg hpad, hsextet, ← ofNat_eq hb]
  rfl

theorem decodeFrom_encode (bytes : List UInt8) (left pads : Nat) :
    decodeFrom 0 left pads (encode bytes) = some bytes := by
  induction bytes using encode.induct generalizing left pads with
  | case1 => rfl
  | case2 a =>
    have ha := a.toNat_lt
    rw [encode, decodeFrom_first (by omega), decodeFrom_second (b := a) (by omega) (by omega)]
    rfl
  | case3 a b =>
    have ha := a.toNat_lt
    have hb := b.toNat_lt
    rw [encode, decodeFrom_first (by omega), decodeFrom_second (b := a) (by omega) (by omega),
      decodeFrom_third (b := b) (by omega) (by omega)]
    rfl
  | case4 a b c rest ih =>
    have ha := a.toNat_lt
    have hb := b.toNat_lt
    have hc := c.toNat_lt
    rw [encode, decodeFrom_first (by omega), decodeFrom_second (b := a) (by omega) (by omega),
      decodeFrom_third (b := b) (by omega) (by omega), decodeFrom_fourth (b := c) (by omega) (by omega),
      ih]
    rfl

end Decode

/-! ## Padding -/

/-- The letters of a group of an encoded text. -/
def IsLetter (c : Char) : Prop := ∃ v < 64, c = letter v

/-- An encoded text is a sequence of letters that is padded to groups of four. -/
theorem encode_shape (bytes : List UInt8) : ∃ letters pads, (∀ c ∈ letters, IsLetter c) ∧
    encode bytes = letters ++ List.replicate pads '=' ∧ pads < 4 ∧
    (letters.length + pads) % 4 = 0 := by
  induction bytes using encode.induct with
  | case1 => exact ⟨[], 0, fun c hc => absurd hc List.not_mem_nil, rfl, by decide, rfl⟩
  | case2 a =>
    have ha := a.toNat_lt
    refine ⟨[letter (a.toNat / 4), letter (a.toNat % 4 * 16)], 2, ?_, rfl, by decide,
      by simp only [List.length_cons, List.length_nil]⟩
    simp only [List.forall_mem_cons, List.not_mem_nil, false_implies, implies_true, and_true]
    exact ⟨⟨_, by omega, rfl⟩, ⟨_, by omega, rfl⟩⟩
  | case3 a b =>
    have ha := a.toNat_lt
    have hb := b.toNat_lt
    refine ⟨[letter (a.toNat / 4), letter (a.toNat % 4 * 16 + b.toNat / 16),
      letter (b.toNat % 16 * 4)], 1, ?_, rfl, by decide,
      by simp only [List.length_cons, List.length_nil]⟩
    simp only [List.forall_mem_cons, List.not_mem_nil, false_implies, implies_true, and_true]
    exact ⟨⟨_, by omega, rfl⟩, ⟨_, by omega, rfl⟩, ⟨_, by omega, rfl⟩⟩
  | case4 a b c rest ih =>
    have ha := a.toNat_lt
    have hb := b.toNat_lt
    have hc := c.toNat_lt
    obtain ⟨letters, pads, hletters, hencode, hpads, hgroups⟩ := ih
    refine ⟨letter (a.toNat / 4) :: letter (a.toNat % 4 * 16 + b.toNat / 16) ::
      letter (b.toNat % 16 * 4 + c.toNat / 64) :: letter (c.toNat % 64) :: letters, pads, ?_,
      by rw [encode, hencode]; rfl, hpads, ?_⟩
    · simp only [List.forall_mem_cons]
      exact ⟨⟨_, by omega, rfl⟩, ⟨_, by omega, rfl⟩, ⟨_, by omega, rfl⟩, ⟨_, by omega, rfl⟩, hletters⟩
    · simp only [List.length_cons]
      omega

/-- What is encoded is decoded to itself. -/
theorem decode_encode (bytes : List UInt8) : decode (encode bytes) = some bytes := by
  obtain ⟨letters, pads, hletters, hencode, -⟩ := encode_shape bytes
  have hascii : (encode bytes).all (·.toNat < 0x80) = true := by
    rw [List.all_eq_true, hencode]
    intro c hc
    rcases List.mem_append.mp hc with hc | hc
    · obtain ⟨v, hv, rfl⟩ := hletters c hc
      exact decide_eq_true (letter_spec v hv).2.2.1
    · rw [(List.mem_replicate.mp hc).2]
      decide
  rw [decode, if_pos hascii, decodeFrom_encode]

/-! ## In URLs -/

def toUrl (c : Char) : Char := if c = '+' then '-' else if c = '/' then '_' else c

def ofUrl (c : Char) : Char := if c = '-' then '+' else if c = '_' then '/' else c

/-- `urlsafe_b64encode`. -/
def urlEncode (bytes : List UInt8) : List Char := (encode bytes).map toUrl

/-- `urlsafe_b64decode`. -/
def urlDecode (text : List Char) : Option (List UInt8) := decode (text.map ofUrl)

/-- `rstrip("=")`. -/
def strip (text : List Char) : List Char := Text.trimEnd (· = '=') text

/-- `text + "=" * (-len(text) % 4)`. -/
def pad (text : List Char) : List Char :=
  text ++ List.replicate (-(text.length : Int) % 4).toNat '='

theorem toUrl_spec : ∀ v < 64, ofUrl (toUrl (letter v)) = letter v ∧ toUrl (letter v) ≠ '=' ∧
    toUrl (letter v) ≠ '.' := by
  decide

/-- What is left without the padding, and how much padding there was. -/
theorem strip_urlEncode (bytes : List UInt8) : ∃ (letters : List Char) (pads : Nat),
    (∀ c ∈ letters, IsLetter c) ∧
    urlEncode bytes = letters.map toUrl ++ List.replicate pads '=' ∧
    strip (urlEncode bytes) = letters.map toUrl ∧ pads < 4 ∧ (letters.length + pads) % 4 = 0 := by
  obtain ⟨letters, pads, hletters, hencode, hpads, hgroups⟩ := encode_shape bytes
  have hurl : urlEncode bytes = letters.map toUrl ++ List.replicate pads '=' := by
    rw [urlEncode, hencode, List.map_append, List.map_replicate]
    rfl
  refine ⟨letters, pads, hletters, hurl, ?_, hpads, hgroups⟩
  rw [hurl, strip, Text.trimEnd_append]
  · intro c hc
    obtain ⟨b, hb, rfl⟩ := List.mem_map.mp hc
    obtain ⟨v, hv, rfl⟩ := hletters b hb
    exact decide_eq_false (toUrl_spec v hv).2.1
  · exact fun c hc => decide_eq_true (List.mem_replicate.mp hc).2

/-- The padding may be cut off and put back. -/
theorem pad_strip_urlEncode (bytes : List UInt8) : pad (strip (urlEncode bytes)) = urlEncode bytes := by
  obtain ⟨letters, pads, -, hurl, hstrip, hpads, hgroups⟩ := strip_urlEncode bytes
  have hcount : (-((letters.map toUrl).length : Int) % 4).toNat = pads := by
    rw [List.length_map]
    omega
  rw [hstrip, pad, hcount, hurl]

theorem point_not_mem_strip (bytes : List UInt8) : '.' ∉ strip (urlEncode bytes) := by
  obtain ⟨letters, -, hletters, -, hstrip, -⟩ := strip_urlEncode bytes
  rw [hstrip, List.mem_map]
  rintro ⟨c, hc, heq⟩
  obtain ⟨v, hv, rfl⟩ := hletters c hc
  exact (toUrl_spec v hv).2.2 heq

theorem urlDecode_urlEncode (bytes : List UInt8) : urlDecode (urlEncode bytes) = some bytes := by
  obtain ⟨letters, pads, hletters, hencode, -⟩ := encode_shape bytes
  have hback : (urlEncode bytes).map ofUrl = encode bytes := by
    rw [urlEncode, List.map_map, hencode]
    refine (List.map_congr_left fun c hc => ?_).trans (List.map_id _)
    rcases List.mem_append.mp hc with hc | hc
    · obtain ⟨v, hv, rfl⟩ := hletters c hc
      exact (toUrl_spec v hv).1
    · rw [(List.mem_replicate.mp hc).2]
      rfl
  rw [urlDecode, hback, decode_encode]

/-- What is encoded without padding is decoded to itself. -/
theorem urlDecode_pad (bytes : List UInt8) : urlDecode (pad (strip (urlEncode bytes))) = some bytes := by
  rw [pad_strip_urlEncode, urlDecode_urlEncode]

end Base64
