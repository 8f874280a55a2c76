import DahuaBridge.Lib.Tokens
import DahuaBridge.Ptcp.Packet

/-!
# HTTP messages

`http_request_complete` and `http_response_complete` of `rust-engine/src/process.rs`:
a message is complete when its header has ended and as many bytes follow as its
`Content-Length` says.

The text of a header is `String::from_utf8_lossy` of its bytes, here as a list of
characters.

* `messageComplete_append`: a complete message stays complete.
* `headerEnd_of_messageComplete`: it has a header that ends in it.
-/

namespace DahuaBridge

/-! ## Bytes and lines -/

/-- `u8::to_ascii_lowercase`. -/
def asciiLower (b : UInt8) : UInt8 := if 65 ≤ b.toNat ∧ b.toNat ≤ 90 then b + 32 else b

/-- `[u8]::eq_ignore_ascii_case`. -/
def eqIgnoreAsciiCase (x y : Bytes) : Bool := x.map asciiLower == y.map asciiLower

/-- `String::into_bytes`. -/
def encode (text : List Char) : Bytes := text.flatMap String.utf8EncodeChar

/-- `data.windows(4).position(|window| window == b"\r\n\r\n")`. -/
def headerEnd (data : Bytes) : Option Nat :=
  Tokens.position ((asBytes "\r\n\r\n").map fun b a => a == b) data

/-- The end of a line that `str::lines` does not return. -/
def stripCr (line : List Char) : List Char :=
  if line.getLast? = some '\r' then line.dropLast else line

/-- `str::lines`: what follows the last line feed is a line if there is any. -/
def lines (text : List Char) : List (List Char) :=
  let pieces := text.splitOnP (· = '\n')
  match pieces.getLast? with
  | some last => pieces.dropLast.map stripCr ++ if last.isEmpty then [] else [last]
  | none => []

/-- The value of decimal digits, and no value for anything else. -/
def digits (text : List Char) : Option Nat :=
  text.foldl
    (fun value c => if c.isDigit then value.map (· * 10 + (c.toNat - 48)) else none) (some 0)

/-- `str::parse::<usize>`. -/
def parseUsize (text : List Char) : Option Nat :=
  let text := if text.head? = some '+' then text.tail else text
  if text.isEmpty then none else (digits text).filter (· < 2 ^ 64)

/-! ## Completeness -/

/-- `headers.lines().find_map(..)`: the first `Content-Length` that can be read. -/
def contentLength (headers : List Char) : Option Nat :=
  (lines headers).findSome? fun line => do
    let (name, value) ← Text.splitOnce (· = ':') line
    if name.map Char.toLower = "content-length".toList then
      parseUsize (Text.trim Text.isWhiteSpace value)
    else none

/-- The test that requests and responses share. The sum is one of `usize`, so it
wraps. -/
def messageComplete (data : Bytes) : Bool :=
  match headerEnd data with
  | none => false
  | some headerEnd =>
    match contentLength (Utf8.lossy (data.take headerEnd)) with
    | some length => (headerEnd + 4 + length) % 2 ^ 64 ≤ data.length
    | none => true

def httpRequestComplete (data : Bytes) : Bool := messageComplete data

def httpResponseComplete (data : Bytes) : Bool := messageComplete data

@[simp] theorem encode_append (text rest : List Char) :
    encode (text ++ rest) = encode text ++ encode rest := List.flatMap_append

/-- ASCII characters are encoded as they are. -/
theorem encode_ascii {text : List Char} (h : ∀ c ∈ text, c.toNat < 0x80) :
    encode text = text.map Char.toUInt8 := by
  induction text with
  | nil => rfl
  | cons c text ih =>
    obtain ⟨hc, htext⟩ := List.forall_mem_cons.mp h
    have hsize : c.utf8Size = 1 := by
      rw [Char.utf8Size_eq_one_iff, UInt32.le_iff_toNat_le]
      exact Nat.le_of_lt_succ hc
    rw [encode, List.flatMap_cons, String.utf8EncodeChar_eq_singleton hsize, List.singleton_append]
    exact congrArg (c.toUInt8 :: ·) (ih htext)

section

variable {data : Bytes} {i : Nat}

theorem headerEnd_add_four_le (h : headerEnd data = some i) : i + 4 ≤ data.length :=
  Tokens.position_add_length_le (List.cons_ne_nil _ _) h

theorem headerEnd_append (more : Bytes) (h : headerEnd data = some i) :
    headerEnd (data ++ more) = some i :=
  Tokens.position_append (List.cons_ne_nil _ _) more h

/-- A complete message has a header that ends in it. -/
theorem headerEnd_of_messageComplete (h : messageComplete data = true) :
    ∃ i, headerEnd data = some i := by
  rw [messageComplete] at h
  split at h
  · cases h
  · next i hi => exact ⟨i, hi⟩

/-- A complete message stays complete, whatever follows. -/
theorem messageComplete_append (more : Bytes) (h : messageComplete data = true) :
    messageComplete (data ++ more) = true := by
  obtain ⟨i, hi⟩ := headerEnd_of_messageComplete h
  have hle := headerEnd_add_four_le hi
  simp only [messageComplete, hi] at h
  simp only [messageComplete, headerEnd_append more hi,
    List.take_append_of_le_length (Nat.le_of_add_right_le hle)]
  cases hlength : contentLength (Utf8.lossy (data.take i)) with
  | none => rfl
  | some length =>
    rw [hlength] at h
    exact decide_eq_true (Nat.le_trans (of_decide_eq_true h) (List.sublist_append_left ..).length_le)

end

example : messageComplete (asBytes "HTTP/1.1 200 OK\r\nContent-Length: 5\r\n\r\n1234") = false := by
  decide +kernel

example : messageComplete (asBytes "HTTP/1.1 200 OK\r\nContent-Length: 5\r\n\r\n12345") = true := by
  decide +kernel

end DahuaBridge
