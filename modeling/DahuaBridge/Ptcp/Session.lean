import Mathlib.Data.List.AList
import Mathlib.Data.List.MinMax
import DahuaBridge.Ptcp.Packet

/-!
# The PTCP session

`PTCPSession` of `rust-engine/src/ptcp.rs`: the send window, the reorder buffer
and the gap policy. Every operation returns the session after it.

The clock is explicit: an operation takes the instant `now` at which it runs.
Log output is left out. The method `recv` is `recvPacket` here, because the
session has a field `recv`.
-/

namespace DahuaBridge

/-! ## Time -/

/-- Nanoseconds since some fixed instant. -/
abbrev Instant := Nat

/-- Nanoseconds. -/
abbrev Duration := Nat

def Duration.fromMillis (n : Nat) : Duration := n * 1000000

/-- `started.elapsed()` at `now`. It is zero for a later `started`. -/
def Instant.elapsed (started now : Instant) : Duration := now - started

/-! ## Session state -/

structure TrackedPacket where
  packet : PTCPPacket
  lastSent : Instant
  retries : UInt8
  deriving DecidableEq

/-- `HashMap<u32, PTCPPacket>`: each key has one packet. -/
abbrev Pending := AList fun _ : U32 => PTCPPacket

structure PTCPSession where
  sent : U32
  recv : U32
  count : U32
  id : U32
  rmid : U32
  pending : Pending
  gapPackets : Nat
  gapSince : Option Instant
  lastProgress : Instant
  sentWindow : List TrackedPacket
  allowGapSkip : Bool

def GAP_PACKET_LIMIT : Nat := 32
def RETRANSMIT_AFTER : Duration := Duration.fromMillis 600
def MAX_RETRANSMITS : UInt8 := 50
def MAX_SENT_WINDOW : Nat := 2048

/-- `gap_timeout`, for the number in `P2P_VIDEO_GAP_TIMEOUT_MS` if there is one. -/
def gapTimeout (millis : Option Nat) : Duration :=
  Duration.fromMillis ((millis.filter (250 ≤ ·)).getD 2000)

/-- `(value.wrapping_sub(reference) as i32) > 0`. -/
def sequenceAfter (value reference : U32) : Bool := decide (SeqNum.After value reference)

namespace PTCPSession

def fromState (now : Instant) (sent recv count id rmid : U32) : PTCPSession where
  sent := sent
  recv := recv
  count := count
  id := id
  rmid := rmid
  pending := ∅
  gapPackets := 0
  gapSince := none
  lastProgress := now
  sentWindow := []
  allowGapSkip := true

def new (now : Instant) : PTCPSession := fromState now 0 0 0 0 0

def setAllowGapSkip (s : PTCPSession) (allow : Bool) : PTCPSession := { s with allowGapSkip := allow }

/-! ## Sending -/

/-- The packet that `send` builds. -/
def outgoing (s : PTCPSession) (body : PTCPBody) : PTCPPacket where
  sent := s.sent
  recv := s.recv
  pid := match body with
    | .sync => 0x0002FFFF
    | _ => 0x0000FFFF - s.count
  lmid := s.id
  rmid := s.rmid
  body := body

/-- The window after a packet with a non-empty body joins it. -/
def track (window : List TrackedPacket) (now : Instant) (packet : PTCPPacket) :
    List TrackedPacket :=
  let window := if MAX_SENT_WINDOW ≤ window.length then window.drop 1 else window
  window ++ [{ packet, lastSent := now, retries := 0 }]

def send (s : PTCPSession) (now : Instant) (body : PTCPBody) : PTCPPacket × PTCPSession :=
  let packet := s.outgoing body
  (packet, { s with
    sent := s.sent + lengthU32 body.len
    id := s.id + 1
    count := s.count + match body with
      | .sync => 0
      | .empty => 0
      | _ => 1
    sentWindow := if 0 < body.len then track s.sentWindow now packet else s.sentWindow })

/-! ## Acknowledgements and retransmission -/

/-- The offset just past a packet's body. -/
def endOf (packet : PTCPPacket) : U32 := packet.sent + lengthU32 packet.body.len

/-- Pops the tracked packets at the front that `remoteRecv` covers. -/
def acknowledgeSent (s : PTCPSession) (remoteRecv : U32) : PTCPSession :=
  { s with
    sentWindow := s.sentWindow.dropWhile fun tracked =>
      endOf tracked.packet = remoteRecv || sequenceAfter remoteRecv (endOf tracked.packet) }

/-- A tracked packet that `due_retransmissions` sends again at `now`. -/
def isDue (now : Instant) (tracked : TrackedPacket) : Bool :=
  tracked.retries < MAX_RETRANSMITS && RETRANSMIT_AFTER ≤ tracked.lastSent.elapsed now

def dueRetransmissions (s : PTCPSession) (now : Instant) : List PTCPPacket × PTCPSession :=
  ((s.sentWindow.filter (isDue now)).map TrackedPacket.packet,
    { s with
      sentWindow := s.sentWindow.map fun tracked =>
        if isDue now tracked then
          { tracked with lastSent := now, retries := tracked.retries + 1 }
        else tracked })

def hasRetransmissionStall (s : PTCPSession) (now : Instant) : Bool :=
  s.sentWindow.any fun tracked =>
    MAX_RETRANSMITS ≤ tracked.retries && Duration.fromMillis 15000 ≤ s.lastProgress.elapsed now

/-! ## Receiving -/

/-- The loop of `drain_contiguous`: what it takes out, the receive offset and
the buffer after it. The fuel bounds the number of rounds. -/
def drainLoop : Nat → Pending → U32 → List PTCPPacket × U32 × Pending
  | 0, pending, recv => ([], recv, pending)
  | fuel + 1, pending, recv =>
    match pending.lookup recv with
    | none => ([], recv, pending)
    | some packet =>
      let (ready, recv, pending) :=
        drainLoop fuel (pending.erase recv) (recv + lengthU32 packet.body.len)
      (packet :: ready, recv, pending)

def drainContiguous (s : PTCPSession) (now : Instant) : List PTCPPacket × PTCPSession :=
  -- each round removes one entry, so the size of the buffer is enough fuel
  let (ready, recv, pending) := drainLoop s.pending.entries.length s.pending s.recv
  (ready, { s with
    recv := recv
    pending := pending
    lastProgress := if ready.isEmpty then s.lastProgress else now
    gapPackets := if pending.entries.isEmpty then 0 else 1
    gapSince := if pending.entries.isEmpty then none else s.gapSince })

/-- The buffered start closest ahead of the receive offset. -/
def nextStart (s : PTCPSession) : Option U32 :=
  (s.pending.keys.filter (sequenceAfter · s.recv)).argmin fun start => (start - s.recv).toNat

/-- `packet.pid & 0xFF00_0000 == 0x0100_0000`. -/
def isRecoveryCommand (packet : PTCPPacket) : Bool := packet.pid &&& 0xFF000000 = 0x01000000

/-- The gap has lasted for the timeout. -/
def gapExpired (s : PTCPSession) (timeout : Duration) (now : Instant) : Bool :=
  match s.gapSince with
  | some started => timeout ≤ started.elapsed now
  | none => false

/-- Puts a packet from beyond a gap into the buffer. -/
def bufferAhead (s : PTCPSession) (now : Instant) (packet : PTCPPacket) : PTCPSession :=
  { s with
    pending := s.pending.insert packet.sent packet
    gapPackets := s.gapPackets + 1
    gapSince := s.gapSince <|> some now }

/-- The condition under which `recv` skips the gap after buffering `packet`. -/
def skipsGap (s : PTCPSession) (timeout : Duration) (now : Instant) (packet : PTCPPacket) : Bool :=
  let videoPending := s.pending.entries.any fun entry => entry.2.body.isPayload
  let safeToSkip := !packet.body.isPayload && !videoPending
  let expired := s.gapExpired timeout now
  s.allowGapSkip && (safeToSkip || expired) &&
    (isRecoveryCommand packet || GAP_PACKET_LIMIT ≤ s.gapPackets || expired)

/-- `PTCPSession::recv`. -/
def recvPacket (timeout : Duration) (s : PTCPSession) (now : Instant) (packet : PTCPPacket) :
    List PTCPPacket × PTCPSession :=
  let s := { s with rmid := packet.lmid }.acknowledgeSent packet.recv
  if packet.body.len = 0 then
    ([], s)
  else if packet.sent ≠ s.recv ∧ !sequenceAfter packet.sent s.recv then
    -- stale: it starts before the receive offset
    ([], s)
  else if !sequenceAfter (endOf packet) s.recv then
    ([], s)
  else if packet.sent = s.recv then
    { s with pending := s.pending.insert packet.sent packet }.drainContiguous now
  else if packet.sent ∈ s.pending then
    ([], s)
  else
    let s := s.bufferAhead now packet
    if s.skipsGap timeout now packet then
      match s.nextStart with
      | none => ([], s)
      | some nextStart => { s with recv := nextStart }.drainContiguous now
    else
      ([], s)

end PTCPSession

end DahuaBridge
