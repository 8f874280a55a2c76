import DahuaBridge.Ptcp.Session

/-!
# The Python side of the PTCP handshake

`PTCP` and the PTCP counters of `UDP` in `app/vendor/dh_p2p/helpers.py`, and the
five values that `launch_engine` in `app/vendor/dh_p2p/main.py` passes on.

Python integers are unbounded; `none` stands for an exception. The socket, the
addresses and the text protocol of `UDP` are left out.
-/

namespace DahuaBridge

/-! ## Packets -/

structure PTCP where
  rlid : Nat
  llid : Nat
  /-- `0x0000FFFF - count`, which Python lets go negative. -/
  pid : Int
  lmid : Nat
  rmid : Nat
  body : Bytes

/-- `pack("!L", v)`, which raises outside the range of a `u32`. -/
def packL (v : Int) : Option Bytes :=
  if 0 ≤ v ∧ v < 2 ^ 32 then some (toBeBytes (BitVec.ofInt 32 v)) else none

/-- `PTCP.__bytes__`. -/
def PTCP.bytes (ptcp : PTCP) : Option Bytes := do
  let rlid ← packL ptcp.rlid
  let llid ← packL ptcp.llid
  let pid ← packL ptcp.pid
  let lmid ← packL ptcp.lmid
  let rmid ← packL ptcp.rmid
  some (magic ++ rlid ++ llid ++ pid ++ lmid ++ rmid ++ ptcp.body)

def PTCP.parse (data : Bytes) : Option PTCP := do
  guard (24 ≤ data.length)
  let rlid ← u32At data 4
  let llid ← u32At data 8
  let pid ← u32At data 12
  let lmid ← u32At data 16
  let rmid ← u32At data 20
  guard (data.take 4 = magic)
  some {
    rlid := rlid.toNat
    llid := llid.toNat
    pid := pid.toNat
    lmid := lmid.toNat
    rmid := rmid.toNat
    body := data.drop 24 }

/-! ## Counters -/

structure UDP where
  ptcpSent : Nat := 0
  ptcpRecv : Nat := 0
  ptcpCount : Nat := 0
  ptcpId : Nat := 0
  rmid : Nat := 0
  deriving DecidableEq

namespace UDP

/-- The packet that `request_ptcp` builds. -/
def outgoing (udp : UDP) (body : Bytes) : PTCP where
  rlid := udp.ptcpSent
  llid := udp.ptcpRecv
  pid := if body = syncBytes then 0x0002FFFF else 0x0000FFFF - udp.ptcpCount
  lmid := udp.ptcpId
  rmid := udp.rmid
  body := body

/-- `request_ptcp`: the datagram sent, and the counters after it. -/
def requestPtcp (udp : UDP) (body : Bytes) : Option (Bytes × UDP) := do
  let datagram ← (udp.outgoing body).bytes
  some (datagram, { udp with
    ptcpSent := udp.ptcpSent + body.length
    ptcpId := udp.ptcpId + 1
    ptcpCount := if 0 < body.length ∧ body ≠ syncBytes then udp.ptcpCount + 1 else udp.ptcpCount })

/-- The loop of `read_ptcp` over the datagrams as they come in: up to `tries` of
them are read for one that starts with the PTCP magic. -/
def nextPtcp : Nat → List Bytes → Option Bytes
  | 0, _ => none
  | _ + 1, [] => none
  | tries + 1, data :: incoming =>
    if 4 ≤ data.length ∧ data.take 4 = magic then some data else nextPtcp tries incoming

/-- `read_ptcp`: the packet read, and the counters after it. -/
def readPtcp (udp : UDP) (incoming : List Bytes) : Option (PTCP × UDP) := do
  let data ← nextPtcp 20 incoming
  let res ← PTCP.parse data
  some (res, { udp with ptcpRecv := udp.ptcpRecv + res.body.length, rmid := res.lmid })

end UDP

/-! ## Handing over -/

/-- A decimal command-line argument read as a `u32`. -/
def u32Arg (n : Nat) : Option U32 := if n < 2 ^ 32 then some (SeqNum.wrap 32 n) else none

/-- The session that the engine starts from the arguments of `launch_engine`. -/
def launchEngine (now : Instant) (udp : UDP) : Option PTCPSession := do
  let sent ← u32Arg udp.ptcpSent
  let recv ← u32Arg udp.ptcpRecv
  let count ← u32Arg udp.ptcpCount
  let id ← u32Arg udp.ptcpId
  let rmid ← u32Arg udp.rmid
  some (PTCPSession.fromState now sent recv count id rmid)

end DahuaBridge
