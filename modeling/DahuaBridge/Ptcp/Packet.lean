import DahuaBridge.Lib.Utf8

/-!
# PTCP packets

The wire format of `rust-engine/src/ptcp.rs`: `PTCPPayload`, `PTCPBody`,
`PTCPPacket` with their `parse`, `serialize` and `len`.

A `u32` is a `BitVec 32` and a `Vec<u8>` is a list of bytes. The parsers assert
and index; `none` stands for a panic, so `parse d = some p` says that the code
returns `p` on `d`.
-/

namespace DahuaBridge

abbrev U32 := BitVec 32

abbrev Bytes := List UInt8

/-- `u32::from_be_bytes`. -/
def fromBeBytes (b0 b1 b2 b3 : UInt8) : U32 :=
  b0.toBitVec ++ b1.toBitVec ++ b2.toBitVec ++ b3.toBitVec

/-- `u32::to_be_bytes`. -/
def toBeBytes (v : U32) : Bytes :=
  [⟨v.extractLsb' 24 8⟩, ⟨v.extractLsb' 16 8⟩, ⟨v.extractLsb' 8 8⟩, ⟨v.extractLsb' 0 8⟩]

/-- The `u32` read from `data[i], .., data[i + 3]`; an index past the end panics. -/
def u32At (data : Bytes) (i : Nat) : Option U32 := do
  let b0 ← data[i]?
  let b1 ← data[i + 1]?
  let b2 ← data[i + 2]?
  let b3 ← data[i + 3]?
  some (fromBeBytes b0 b1 b2 b3)

/-- `value as u32` for a length. -/
def lengthU32 (n : Nat) : U32 := SeqNum.wrap 32 n

structure PTCPPayload where
  realm : U32
  data : Bytes
  deriving DecidableEq, Repr

inductive PTCPBody where
  | sync
  | command (data : Bytes)
  | payload (payload : PTCPPayload)
  | bind (realm port : U32)
  | status (realm : U32) (status : String)
  | heartbeat
  | empty
  deriving DecidableEq, Repr

structure PTCPPacket where
  sent : U32
  recv : U32
  pid : U32
  lmid : U32
  rmid : U32
  body : PTCPBody
  deriving DecidableEq, Repr

/-! ## Payloads -/

def PTCPPayload.parse (data : Bytes) : Option PTCPPayload := do
  guard (12 ≤ data.length)
  guard (data[0]? = some 0x10)
  let header ← u32At data 0
  let length := header &&& 0xFFFF
  let realm ← u32At data 4
  let padding ← u32At data 8
  let data := data.drop 12
  guard (padding = 0)
  guard (length = lengthU32 data.length)
  some { realm, data }

def PTCPPayload.serialize (payload : PTCPPayload) : Bytes :=
  let header := 0x10000000 ||| lengthU32 payload.data.length
  toBeBytes header ++ toBeBytes payload.realm ++ toBeBytes 0 ++ payload.data

/-! ## Bodies -/

/-- `String::from_utf8_lossy(bytes).to_string()`. -/
def fromUtf8Lossy (bytes : Bytes) : String := String.ofList (Utf8.lossy bytes)

/-- `status.as_bytes()`. -/
def asBytes (s : String) : Bytes := s.toList.flatMap String.utf8EncodeChar

def PTCPBody.parse (data : Bytes) : Option PTCPBody :=
  match data with
  | [] => some .empty
  | tag :: _ => do
    guard (4 ≤ data.length)
    if tag = 0x00 then
      some .sync
    else if tag = 0x10 then
      .payload <$> PTCPPayload.parse data
    else if tag = 0x11 then do
      let realm ← u32At data 4
      let port ← u32At data 12
      some (.bind realm port)
    else if tag = 0x12 then do
      let realm ← u32At data 4
      -- the slice `data[12..]`
      guard (12 ≤ data.length)
      some (.status realm (fromUtf8Lossy (data.drop 12)))
    else if tag = 0x13 then
      some .heartbeat
    else
      some (.command data)

/-- `b"\x00\x03\x01\x00"`. -/
def syncBytes : Bytes := [0x00, 0x03, 0x01, 0x00]

def PTCPBody.serialize : PTCPBody → Bytes
  | sync => syncBytes
  | command data => data
  | payload p => p.serialize
  | bind realm port =>
    [0x11, 0, 0, 0] ++ toBeBytes realm ++ [0, 0, 0, 0] ++ toBeBytes port ++ [0x7F, 0, 0, 1]
  | status realm text => [0x12, 0, 0, 0] ++ toBeBytes realm ++ [0, 0, 0, 0] ++ asBytes text
  | heartbeat => [0x13, 0, 0, 0, 0, 0, 0, 0, 0, 0, 0, 0]
  | empty => []

def PTCPBody.len : PTCPBody → Nat
  | sync => 4
  | command data => data.length
  | payload p => p.data.length + 12
  | bind _ _ => 20
  | status _ text => text.utf8ByteSize + 12
  | heartbeat => 12
  | empty => 0

/-- `matches!(body, PTCPBody::Payload(_))`. -/
def PTCPBody.isPayload : PTCPBody → Bool
  | payload _ => true
  | _ => false

/-! ## Packets -/

/-- `b"PTCP"`. -/
def magic : Bytes := [0x50, 0x54, 0x43, 0x50]

def PTCPPacket.parse (data : Bytes) : Option PTCPPacket := do
  guard (24 ≤ data.length)
  guard (data.take 4 = magic)
  let sent ← u32At data 4
  let recv ← u32At data 8
  let pid ← u32At data 12
  let lmid ← u32At data 16
  let rmid ← u32At data 20
  let body ← PTCPBody.parse (data.drop 24)
  some { sent, recv, pid, lmid, rmid, body }

def PTCPPacket.serialize (packet : PTCPPacket) : Bytes :=
  magic ++ toBeBytes packet.sent ++ toBeBytes packet.recv ++ toBeBytes packet.pid ++
    toBeBytes packet.lmid ++ toBeBytes packet.rmid ++ packet.body.serialize

/-- `body.len()` of a packet. -/
def PTCPPacket.bodyLen (packet : PTCPPacket) : Nat := packet.body.len

/-! ## Lengths -/

@[simp] theorem length_toBeBytes (v : U32) : (toBeBytes v).length = 4 := rfl

theorem utf8ByteSize_ofList (cs : List Char) :
    (String.ofList cs).utf8ByteSize = Tiling.total Char.utf8Size cs := by
  rw [String.utf8ByteSize_ofList]
  induction cs with
  | nil => rfl
  | cons c cs ih => simp [ih, Nat.add_comm]

@[simp] theorem length_asBytes (s : String) : (asBytes s).length = s.utf8ByteSize := by
  conv_rhs => rw [← String.ofList_toList (s := s), utf8ByteSize_ofList]
  simp [asBytes, Tiling.total, List.length_flatMap]

/-- `len` counts the bytes that `serialize` writes, for every body. -/
@[simp] theorem PTCPBody.length_serialize (body : PTCPBody) : body.serialize.length = body.len := by
  cases body <;> simp [serialize, len, PTCPPayload.serialize, syncBytes] <;> omega

theorem PTCPPacket.length_serialize (packet : PTCPPacket) :
    packet.serialize.length = 24 + packet.body.len := by
  simp [serialize, magic]
  omega

end DahuaBridge
