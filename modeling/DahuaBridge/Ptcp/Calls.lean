import DahuaBridge.Lib.Run
import DahuaBridge.Ptcp.Conservation

/-!
# Calls of a session in any order

A run of a session is a list of calls of its public methods, with arbitrary packets,
bodies and instants. Nothing is assumed of the peer.

* `sent_packets_tile`: the numbers of every packet that `send` returns, from the calls
  before it.
* `Consistent`: the receive offset, the reorder buffer and the bookkeeping of the gap
  agree. `recv_consistent` takes it through the cases of `recvPacket_spec`.
* `receiver_consistent`: every session that is reached is consistent, and what `recv`
  returns from it is contiguous.
-/

namespace DahuaBridge

open Tiling PTCPSession

/-! ## Calls -/

/-- A call of a public method, with the instant at which it runs. -/
inductive Call where
  | send (now : Instant) (body : PTCPBody)
  | recv (now : Instant) (packet : PTCPPacket)
  | dueRetransmissions (now : Instant)
  | hasRetransmissionStall (now : Instant)
  | setAllowGapSkip (allow : Bool)

namespace Call

/-- The session after a call. -/
def perform (timeout : Duration) (s : PTCPSession) : Call → PTCPSession
  | send now body => (s.send now body).2
  | recv now packet => (s.recvPacket timeout now packet).2
  | dueRetransmissions now => (s.dueRetransmissions now).2
  -- takes `&self`
  | hasRetransmissionStall _ => s
  | setAllowGapSkip allow => s.setAllowGapSkip allow

def step (timeout : Duration) (s : PTCPSession) (call : Call) : Option PTCPSession :=
  some (call.perform timeout s)

/-- The body that the call sends. -/
def sentBody : Call → Option PTCPBody
  | send _ body => some body
  | _ => none

/-- The packet that the call receives. -/
def received : Call → Option PTCPPacket
  | recv _ packet => some packet
  | _ => none

end Call

/-- The bodies that the calls send, in order. -/
def sentBodies (calls : List Call) : List PTCPBody := calls.filterMap Call.sentBody

/-- The packets that the calls receive, in order. -/
def receivedPackets (calls : List Call) : List PTCPPacket := calls.filterMap Call.received

/-! ## The numbers of the sent packets -/

/-- The number of bytes that `serialize` writes. -/
def serializedLength (body : PTCPBody) : Nat := body.serialize.length

/-- `count` goes up with the body. -/
def isCounted : PTCPBody → Bool
  | .sync => false
  | .empty => false
  | _ => true

/-- The counters of a session after some calls, from the ones that it started with. -/
structure Numbered (start : PTCPSession) (calls : List Call) (s : PTCPSession) : Prop where
  sent : s.sent = start.sent + lengthU32 (total serializedLength (sentBodies calls))
  id : s.id = start.id + lengthU32 (sentBodies calls).length
  count : s.count = start.count + lengthU32 ((sentBodies calls).countP isCounted)
  rmid : s.rmid = ((receivedPackets calls).getLast?.map PTCPPacket.lmid).getD start.rmid

section Numbers

variable {start s : PTCPSession} {calls : List Call} {timeout : Duration}

theorem numbered_start : Numbered start [] start where
  sent := (BitVec.add_zero _).symm
  id := (BitVec.add_zero _).symm
  count := (BitVec.add_zero _).symm
  rmid := rfl

/-- A call that neither sends nor receives leaves the numbers as they are. -/
theorem Numbered.of_same (h : Numbered start calls s) {s' : PTCPSession} {call : Call}
    (hbody : call.sentBody = none) (hpacket : call.received = none) (hsent : s'.sent = s.sent)
    (hid : s'.id = s.id) (hcount : s'.count = s.count) (hrmid : s'.rmid = s.rmid) :
    Numbered start (calls ++ [call]) s' := by
  have hbodies : sentBodies (calls ++ [call]) = sentBodies calls := by
    simp [sentBodies, hbody]
  have hpackets : receivedPackets (calls ++ [call]) = receivedPackets calls := by
    simp [receivedPackets, hpacket]
  constructor
  · rw [hbodies, hsent, h.sent]
  · rw [hbodies, hid, h.id]
  · rw [hbodies, hcount, h.count]
  · rw [hpackets, hrmid, h.rmid]

theorem Numbered.send (h : Numbered start calls s) (now : Instant) (body : PTCPBody) :
    Numbered start (calls ++ [.send now body]) (s.send now body).2 := by
  have hbodies : sentBodies (calls ++ [.send now body]) = sentBodies calls ++ [body] := by
    simp [sentBodies, Call.sentBody]
  have hpackets : receivedPackets (calls ++ [.send now body]) = receivedPackets calls := by
    simp [receivedPackets, Call.received]
  constructor
  · -- the code counts with `len`, the wire with `serialize`
    have hlen : serializedLength body = body.len := body.length_serialize
    show s.sent + lengthU32 body.len = _
    rw [hbodies, total_append, total_cons, total_nil, hlen, h.sent, BitVec.add_assoc]
    exact congrArg (start.sent + ·) (SeqNum.wrap_add _ _).symm
  · show s.id + 1 = _
    rw [hbodies, List.length_append, h.id, BitVec.add_assoc]
    exact congrArg (start.id + ·) (SeqNum.wrap_add _ _).symm
  · have hcounted : (s.send now body).2.count =
        s.count + lengthU32 ([body].countP isCounted) := by
      cases body <;> rfl
    rw [hcounted, hbodies, List.countP_append, h.count, BitVec.add_assoc]
    exact congrArg (start.count + ·) (SeqNum.wrap_add _ _).symm
  · rw [hpackets]
    exact h.rmid

theorem Numbered.recv (h : Numbered start calls s) {now : Instant} {packet : PTCPPacket}
    {ready : List PTCPPacket} {s' : PTCPSession}
    (hrecv : s.recvPacket timeout now packet = (ready, s')) :
    Numbered start (calls ++ [.recv now packet]) s' := by
  have hsame := recvPacket_sameSender hrecv
  have hbodies : sentBodies (calls ++ [.recv now packet]) = sentBodies calls := by
    simp [sentBodies, Call.sentBody]
  have hpackets : receivedPackets (calls ++ [.recv now packet]) =
      receivedPackets calls ++ [packet] := by
    simp [receivedPackets, Call.received]
  constructor
  · rw [hbodies, hsame.sent, h.sent]
  · rw [hbodies, hsame.id, h.id]
  · rw [hbodies, hsame.count, h.count]
  · rw [hpackets, hsame.rmid, List.getLast?_append]
    rfl

/-- Every call keeps the account of the numbers. -/
theorem Numbered.perform (h : Numbered start calls s) (call : Call) :
    Numbered start (calls ++ [call]) (call.perform timeout s) := by
  cases call with
  | send now body => exact h.send now body
  | recv now packet => exact h.recv (Prod.eta (s.recvPacket timeout now packet)).symm
  | dueRetransmissions now => exact h.of_same rfl rfl rfl rfl rfl rfl
  | hasRetransmissionStall now => exact h.of_same rfl rfl rfl rfl rfl rfl
  | setAllowGapSkip allow => exact h.of_same rfl rfl rfl rfl rfl rfl

theorem numbered_of_run (h : Run.run (Call.step timeout) calls start = some s) :
    Numbered start calls s := by
  refine Run.run_induction (I := Numbered start) numbered_start ?_ h
  intro past call t t' _ ht hstep
  obtain rfl : call.perform timeout t = t' := Option.some.inj hstep
  exact ht.perform call

/-- Only `send` moves the counters of the sending side. -/
theorem perform_of_not_send {call : Call} (h : call.sentBody = none) :
    (call.perform timeout s).sent = s.sent ∧ (call.perform timeout s).count = s.count ∧
      (call.perform timeout s).id = s.id := by
  cases call with
  | send now body => cases h
  | recv now packet =>
    have hsame := recvPacket_sameSender (Prod.eta (s.recvPacket timeout now packet)).symm
    exact ⟨hsame.sent, hsame.count, hsame.id⟩
  | dueRetransmissions now => exact ⟨rfl, rfl, rfl⟩
  | hasRetransmissionStall now => exact ⟨rfl, rfl, rfl⟩
  | setAllowGapSkip allow => exact ⟨rfl, rfl, rfl⟩

end Numbers

/-- After any calls, the next packet that `send` returns carries on the byte stream, the
message ids and the packet ids of the packets before it, and acknowledges what was received.
With `k` bodies sent before, it is packet number `k`. -/
theorem sent_packets_tile {timeout : Duration} {now₀ : Instant} {sent recv count id rmid : U32}
    {calls : List Call} {s : PTCPSession}
    (h : Run.run (Call.step timeout) calls (.fromState now₀ sent recv count id rmid) = some s) :
    (∀ now body, ∃ packet, (s.send now body).1 = packet ∧ packet.body = body ∧
      packet.lmid = id + lengthU32 (sentBodies calls).length ∧
      packet.sent = sent + lengthU32 (total serializedLength (sentBodies calls)) ∧
      packet.pid = (if body = .sync then 0x0002FFFF
        else 0x0000FFFF - (count + lengthU32 ((sentBodies calls).countP isCounted))) ∧
      packet.recv = s.recv ∧
      packet.rmid = ((receivedPackets calls).getLast?.map PTCPPacket.lmid).getD rmid) ∧
    ∀ call : Call, call.sentBody = none →
      (call.perform timeout s).sent = s.sent ∧ (call.perform timeout s).count = s.count ∧
        (call.perform timeout s).id = s.id := by
  have hnumbers := numbered_of_run h
  refine ⟨fun now body => ⟨_, rfl, rfl, hnumbers.id, hnumbers.sent, ?_, rfl, hnumbers.rmid⟩,
    fun call => perform_of_not_send⟩
  have hcount : s.count = count + lengthU32 ((sentBodies calls).countP isCounted) :=
    hnumbers.count
  rw [← hcount]
  cases body <;> rfl

/-- A handshake message, a command that is received, and two replies. -/
theorem sent_packets_tile_handshake :
    ∃ s packet, Run.run (Call.step 0) [.send 0 .sync, .recv 5 ⟨7, 4, 0, 41, 0, .command [1, 2]⟩,
        .send 9 .heartbeat] (.fromState 0 0xFFFFFFFE 7 3 9 1) = some s ∧
      (s.send 10 (.bind 6 554)).1 = packet ∧ packet.lmid = 11 ∧ packet.sent = 14 ∧
      packet.pid = 0x0000FFFB ∧ packet.rmid = 41 := by
  have hrun : Run.run (Call.step 0) [.send 0 .sync, .recv 5 ⟨7, 4, 0, 41, 0, .command [1, 2]⟩,
      .send 9 .heartbeat] (.fromState 0 0xFFFFFFFE 7 3 9 1) = some _ := rfl
  obtain ⟨packet, hpacket, _, hlmid, hsent, hpid, _, hrmid⟩ :=
    (sent_packets_tile hrun).1 10 (.bind 6 554)
  exact ⟨_, packet, hrun, hpacket, hlmid, hsent, hpid, hrmid⟩

/-! ## The receiving side -/

/-- The receive offset, the buffer and the bookkeeping of the gap agree. -/
structure Consistent (s : PTCPSession) : Prop where
  keyed : Keyed s.pending
  nonEmpty : ∀ key packet, s.pending.lookup key = some packet → 0 < packet.body.len
  unbuffered : s.recv ∉ s.pending
  gapPackets : s.pending.entries = [] ↔ s.gapPackets = 0
  gapSince : s.pending.entries = [] ↔ s.gapSince = none

section Receiving

variable {s s' : PTCPSession} {timeout : Duration} {now : Instant} {packet : PTCPPacket}
  {ready : List PTCPPacket}

theorem consistent_fromState (now : Instant) (sent recv count id rmid : U32) :
    Consistent (.fromState now sent recv count id rmid) where
  keyed key packet h := by cases h
  nonEmpty key packet h := by cases h
  unbuffered := AList.notMem_empty recv
  gapPackets := iff_of_true rfl rfl
  gapSince := iff_of_true rfl rfl

theorem Consistent.of_same (h : Consistent s) (hsame : s.SameReceiver s') : Consistent s' where
  keyed := hsame.pending ▸ h.keyed
  nonEmpty := hsame.pending ▸ h.nonEmpty
  unbuffered := by
    rw [hsame.recv, hsame.pending]
    exact h.unbuffered
  gapPackets := by
    rw [hsame.pending, hsame.gapPackets]
    exact h.gapPackets
  gapSince := by
    rw [hsame.pending, hsame.gapSince]
    exact h.gapSince

theorem entries_insert_ne_nil (pending : Pending) (key : U32) (packet : PTCPPacket) :
    (pending.insert key packet).entries ≠ [] := List.cons_ne_nil _ _

theorem lookup_insert_pos {pending : Pending} (hpos : 0 < packet.body.len)
    (h : ∀ key p, pending.lookup key = some p → 0 < p.body.len) :
    ∀ key p, (pending.insert packet.sent packet).lookup key = some p → 0 < p.body.len := by
  intro key p hlookup
  by_cases hkey : key = packet.sent
  · rw [hkey, AList.lookup_insert] at hlookup
    exact Option.some.inj hlookup ▸ hpos
  · rw [AList.lookup_insert_ne hkey] at hlookup
    exact h key p hlookup

/-- A packet from beyond the gap joins the buffer. -/
theorem Consistent.bufferAhead (h : Consistent s) (hahead : s.IsAhead packet) :
    Consistent (s.bufferAhead now packet) where
  keyed := h.keyed.insert packet
  nonEmpty := lookup_insert_pos hahead.1 h.nonEmpty
  unbuffered hmem := by
    rcases (AList.mem_insert _).mp hmem with heq | hmem
    · exact hahead.2.1 heq.symm
    · exact h.unbuffered hmem
  gapPackets := iff_of_false (entries_insert_ne_nil _ _ _) (Nat.succ_ne_zero _)
  gapSince := by
    refine iff_of_false (entries_insert_ne_nil _ _ _) ?_
    show (s.gapSince <|> some now) ≠ none
    cases s.gapSince <;> exact Option.some_ne_none _

/-- What the drain leaves in the buffer was there before, and is not at the offset. -/
theorem PTCPSession.Drains.left {pending pending' : Pending} {recv recv' : U32}
    (h : Drains pending recv ready recv' pending') :
    recv' ∉ pending' ∧ ∀ key p, pending'.lookup key = some p → pending.lookup key = some p := by
  induction h with
  | done hnone => exact ⟨AList.lookup_eq_none.mp hnone, fun _ _ h => h⟩
  | @next pending _ recv _ _ _ _ _ ih =>
    refine ⟨ih.1, fun key p hp => ?_⟩
    have herased := ih.2 key p hp
    by_cases hkey : key = recv
    · rw [hkey, AList.lookup_erase] at herased
      cases herased
    · rwa [AList.lookup_erase_ne hkey] at herased

/-- A drain restores the agreement, if the start of the gap is known where packets are left. -/
theorem Consistent.of_drained (hdrained : s.Drained ready s') (hkeyed : Keyed s.pending)
    (hpos : ∀ key p, s.pending.lookup key = some p → 0 < p.body.len)
    (hsince : s'.pending.entries ≠ [] → s.gapSince ≠ none) : Consistent s' := by
  obtain ⟨hunbuffered, hleft⟩ := hdrained.drains.left
  refine ⟨(hdrained.drains.tiles hkeyed).2.2, fun key p hp => hpos key p (hleft key p hp),
    hunbuffered, ?_, ?_⟩
  · rw [hdrained.gapPackets]
    by_cases hempty : s'.pending.entries = []
    · simp [hempty]
    · simp [hempty]
  · rw [hdrained.gapSince]
    by_cases hempty : s'.pending.entries = []
    · simp [hempty]
    · simp [hempty, hsince hempty]

/-- With nothing in the buffer, the packet at the offset is all that there is to drain. -/
theorem drains_single {pending pending' : Pending} {recv' : U32} (hempty : pending.entries = [])
    (h : Drains (pending.insert packet.sent packet) packet.sent ready recv' pending') :
    pending'.entries = [] := by
  have hready := h.length_pos (AList.lookup_insert _)
  have hheld := congrArg Multiset.card h.held
  have hentries : (pending.insert packet.sent packet).entries = [⟨packet.sent, packet⟩] := by
    rw [AList.entries_insert, hempty]
    rfl
  rw [heldPackets, hentries, Multiset.card_add] at hheld
  have hcard : 1 = ready.length + pending'.entries.length := by
    simpa [heldPackets] using hheld
  exact List.length_eq_zero_iff.mp (by omega)

/-- One call of `recv`, with any packet: the session stays consistent, and what is returned
is contiguous, up to the new receive offset. -/
theorem recv_consistent (h : Consistent s)
    (hrecv : s.recvPacket timeout now packet = (ready, s')) :
    Consistent s' ∧ (ready ≠ [] → ∃ start, Tiles PTCPPacket.sent PTCPPacket.bodyLen start ready ∧
      s'.recv = start + SeqNum.wrap 32 (total PTCPPacket.bodyLen ready)) := by
  rcases recvPacket_spec hrecv with ⟨_, rfl, hsame⟩ | ⟨hahead, _, rfl, hsame⟩ |
    ⟨hnext, hdrained⟩ | ⟨hahead, _, start, _, hdrained⟩
  · exact ⟨h.of_same hsame, fun hne => absurd rfl hne⟩
  · exact ⟨(h.bufferAhead hahead).of_same hsame, fun hne => absurd rfl hne⟩
  · -- delivered from the receive offset
    have hkeyed : Keyed (s.buffered packet) := h.keyed.insert packet
    obtain ⟨htiles, hoffset, _⟩ := hdrained.drains.tiles hkeyed
    refine ⟨.of_drained hdrained hkeyed (lookup_insert_pos hnext.1 h.nonEmpty) ?_,
      fun _ => ⟨_, htiles, hoffset⟩⟩
    intro hleft hnone
    have hdrains : Drains (s.pending.insert packet.sent packet) packet.sent ready s'.recv
        s'.pending := by
      have hdrains : Drains (s.buffered packet) s.recv ready s'.recv s'.pending := hdrained.drains
      rwa [← hnext.2.1] at hdrains
    exact hleft (drains_single (h.gapSince.mpr hnone) hdrains)
  · -- delivered from beyond the gap
    have hahead' : Consistent (s.bufferAhead now packet) := h.bufferAhead hahead
    obtain ⟨htiles, hoffset, _⟩ := hdrained.drains.tiles hahead'.keyed
    refine ⟨.of_drained hdrained hahead'.keyed hahead'.nonEmpty fun _ hnone => ?_,
      fun _ => ⟨_, htiles, hoffset⟩⟩
    exact entries_insert_ne_nil _ _ _ (hahead'.gapSince.mpr hnone)

/-- In strict mode what is returned starts at the receive offset. -/
theorem head_of_strict (h : Consistent s) (hstrict : s.allowGapSkip = false)
    (hrecv : s.recvPacket timeout now packet = (ready, s')) : ∀ p ∈ ready.head?, p.sent = s.recv := by
  intro p hp
  rcases recvPacket_strict hstrict hrecv with ⟨_, rfl, _⟩ | ⟨_, rfl, _⟩ | ⟨_, hdrains⟩
  · cases hp
  · cases hp
  · obtain ⟨htiles, _⟩ := hdrains.tiles (h.keyed.insert packet)
    obtain ⟨rest, rfl⟩ := List.head?_eq_some_iff.mp hp
    exact htiles.1

theorem Consistent.perform (h : Consistent s) (call : Call) : Consistent (call.perform timeout s) := by
  cases call with
  | send now body => exact h.of_same ⟨rfl, rfl, rfl, rfl⟩
  | recv now packet => exact (recv_consistent h (Prod.eta (s.recvPacket timeout now packet)).symm).1
  | dueRetransmissions now => exact h.of_same ⟨rfl, rfl, rfl, rfl⟩
  | hasRetransmissionStall now => exact h
  | setAllowGapSkip allow => exact h.of_same ⟨rfl, rfl, rfl, rfl⟩

end Receiving

/-- After any calls the receiving side is consistent, and whatever packet comes next, a
list that `recv` returns is contiguous, ends at the new receive offset and, in strict mode,
starts at the old one. -/
theorem receiver_consistent {timeout : Duration} {now₀ : Instant} {sent recv count id rmid : U32}
    {calls : List Call} {s : PTCPSession}
    (h : Run.run (Call.step timeout) calls (.fromState now₀ sent recv count id rmid) = some s) :
    Consistent s ∧ ∀ now packet ready s', s.recvPacket timeout now packet = (ready, s') →
      Consistent s' ∧ (ready.IsChain fun p q => q.sent = endOf p) ∧
      (∀ p ∈ ready.getLast?, endOf p = s'.recv) ∧
      (s.allowGapSkip = false → ∀ p ∈ ready.head?, p.sent = s.recv) := by
  have hconsistent : Consistent s := by
    refine Run.run_invariant (consistent_fromState now₀ sent recv count id rmid) ?_ h
    intro call t t' ht hstep
    exact Option.some.inj hstep ▸ ht.perform call
  refine ⟨hconsistent, fun now packet ready s' hrecv => ?_⟩
  obtain ⟨hconsistent', htiles⟩ := recv_consistent hconsistent hrecv
  refine ⟨hconsistent', ?_, fun p hp => ?_, fun hstrict => head_of_strict hconsistent hstrict hrecv⟩
  · by_cases hempty : ready = []
    · exact hempty ▸ .nil
    · obtain ⟨start, htiles, _⟩ := htiles hempty
      exact htiles.isChain
  · have hne : ready ≠ [] := fun hempty => by
      rw [hempty] at hp
      cases hp
    obtain ⟨start, htiles, hoffset⟩ := htiles hne
    rw [hoffset]
    exact htiles.getLast hp

/-- A packet from beyond a gap, and then the one that fills it. -/
theorem receiver_consistent_gap :
    ∃ s ready s', Run.run (Call.step 0) [.setAllowGapSkip false,
        .recv 5 ⟨2, 0, 0, 41, 0, .command [3, 4]⟩] (.fromState 0 0 0 0 0 0) = some s ∧
      s.recvPacket 0 9 ⟨0, 0, 0, 40, 0, .command [1, 2]⟩ = (ready, s') ∧ ready.length = 2 ∧
      Consistent s' ∧ ready.IsChain fun p q => q.sent = endOf p := by
  have hrun : Run.run (Call.step 0) [.setAllowGapSkip false,
      .recv 5 ⟨2, 0, 0, 41, 0, .command [3, 4]⟩] (.fromState 0 0 0 0 0 0) = some _ := rfl
  obtain ⟨hconsistent, hchain, _⟩ := (receiver_consistent hrun).2 9
    ⟨0, 0, 0, 40, 0, .command [1, 2]⟩ _ _ rfl
  exact ⟨_, _, _, hrun, rfl, rfl, hconsistent, hchain⟩

end DahuaBridge
