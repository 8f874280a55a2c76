import DahuaBridge.Handshake.Udp
import DahuaBridge.Lib.Run
import DahuaBridge.Ptcp.Conservation
import DahuaBridge.Ptcp.Reassembly

/-!
# Handing the session over

A handshake run drives the Python counters and a strict Rust session that starts
from zero with the same sends and the same datagrams.

* `Mirrors`: the two agree on `sent`, `count`, `id` and `rmid`, and the Python
  `recv` counts the bytes of every datagram read.
* `handoff_agrees_iff`: the engine starts with the state of the Rust session
  exactly when the non-empty packets read are the pieces of one contiguous prefix
  of the peer's stream, each read once, in any order.
-/

namespace DahuaBridge

open Tiling PTCPSession

/-! ## Runs -/

/-- The body that has these bytes, as `send` takes it. -/
def PTCPBody.ofBytes (bytes : Bytes) : PTCPBody :=
  if bytes = [] then .empty else if bytes = syncBytes then .sync else .command bytes

inductive HandshakeEvent where
  /-- `request_ptcp(body)`. -/
  | request (now : Instant) (body : Bytes)
  /-- `read_ptcp()`, with the datagrams that come in during the call. -/
  | read (timeout : Duration) (now : Instant) (incoming : List Bytes)

/-- The packet in a well-formed datagram: it parses, and it is written back as it was. -/
def wellFormed (data : Bytes) : Option PTCPPacket := do
  let packet ← PTCPPacket.parse data
  guard (packet.serialize = data)
  some packet

/-- The packet that a handshake event reads. -/
def HandshakeEvent.packet : HandshakeEvent → Option PTCPPacket
  | .request _ _ => none
  | .read _ _ incoming => (UDP.nextPtcp 20 incoming).bind wellFormed

/-- All packets read, in order. -/
def packetsRead (events : List HandshakeEvent) : List PTCPPacket :=
  events.filterMap HandshakeEvent.packet

def HandshakeEvent.step : HandshakeEvent → UDP × PTCPSession → Option (UDP × PTCPSession)
  | .request now body, (udp, s) => do
    let (_, udp) ← udp.requestPtcp body
    some (udp, (s.send now (PTCPBody.ofBytes body)).2)
  | .read timeout now incoming, (udp, s) => do
    let (_, udp) ← udp.readPtcp incoming
    let packet ← (UDP.nextPtcp 20 incoming).bind wellFormed
    some (udp, (s.recvPacket timeout now packet).2)

/-- A whole handshake; it fails when Python raises or a datagram is not well formed. -/
def runHandshake (events : List HandshakeEvent) (state : UDP × PTCPSession) :
    Option (UDP × PTCPSession) :=
  Run.run (fun state event => HandshakeEvent.step event state) events state

/-- What the engine takes over. -/
structure SameState (engine s : PTCPSession) : Prop where
  sent : engine.sent = s.sent
  recv : engine.recv = s.recv
  count : engine.count = s.count
  id : engine.id = s.id
  rmid : engine.rmid = s.rmid

/-! ## The two counters side by side -/

theorem PTCPBody.serialize_ofBytes (bytes : Bytes) : (ofBytes bytes).serialize = bytes := by
  unfold ofBytes
  split
  · next h => rw [h]; rfl
  split
  · next h => rw [h]; rfl
  · rfl

theorem PTCPBody.len_ofBytes (bytes : Bytes) : (ofBytes bytes).len = bytes.length := by
  rw [← PTCPBody.length_serialize, serialize_ofBytes]

/-- After `received`, the Rust session has the Python counters, but for `recv`. -/
structure Mirrors (received : List PTCPPacket) (udp : UDP) (s : PTCPSession) : Prop where
  sent : s.sent = SeqNum.wrap 32 udp.ptcpSent
  count : s.count = SeqNum.wrap 32 udp.ptcpCount
  id : s.id = SeqNum.wrap 32 udp.ptcpId
  rmid : s.rmid = SeqNum.wrap 32 udp.rmid
  rmid_lt : udp.rmid < 2 ^ 32
  recv : udp.ptcpRecv = total PTCPPacket.bodyLen received

theorem PTCP.parse_eq {data : Bytes} {res : PTCP} {packet : PTCPPacket}
    (hres : PTCP.parse data = some res) (hpacket : PTCPPacket.parse data = some packet) :
    res.body = data.drop 24 ∧ res.lmid = packet.lmid.toNat := by
  simp only [PTCP.parse, Option.bind_eq_bind, Option.bind_eq_some_iff] at hres
  simp only [PTCPPacket.parse, Option.bind_eq_bind, Option.bind_eq_some_iff] at hpacket
  obtain ⟨_, _, _, _, _, _, _, _, lmid, hlmid, _, _, _, _, hres⟩ := hres
  obtain ⟨_, _, _, _, _, _, _, _, _, _, lmid', hlmid', _, _, _, _, hpacket⟩ := hpacket
  obtain rfl := Option.some.inj hres
  obtain rfl := Option.some.inj hpacket
  rw [hlmid] at hlmid'
  exact ⟨rfl, congrArg BitVec.toNat (Option.some.inj hlmid')⟩

theorem wellFormed_eq_some {data : Bytes} {packet : PTCPPacket} (h : wellFormed data = some packet) :
    PTCPPacket.parse data = some packet ∧ packet.bodyLen = (data.drop 24).length := by
  simp only [wellFormed, Option.bind_eq_bind, Option.bind_eq_some_iff] at h
  obtain ⟨packet', hparse, _, hguard, h⟩ := h
  obtain rfl := Option.some.inj h
  have hserialize : packet'.serialize = data := by simpa using hguard
  refine ⟨hparse, ?_⟩
  have hlength := packet'.length_serialize
  rw [hserialize] at hlength
  rw [List.length_drop, PTCPPacket.bodyLen, hlength, Nat.add_sub_cancel_left]

/-- What a read does to both sides. -/
theorem HandshakeEvent.step_read {timeout : Duration} {now : Instant} {incoming : List Bytes}
    {udp udp' : UDP} {s s' : PTCPSession}
    (h : (HandshakeEvent.read timeout now incoming).step (udp, s) = some (udp', s')) :
    ∃ packet, (HandshakeEvent.read timeout now incoming).packet = some packet ∧
      udp' = { udp with
        ptcpRecv := udp.ptcpRecv + packet.bodyLen
        rmid := packet.lmid.toNat } ∧
      s' = (s.recvPacket timeout now packet).2 := by
  simp only [step, UDP.readPtcp, Option.bind_eq_bind, Option.bind_eq_some_iff] at h
  obtain ⟨⟨res, udp₁⟩, ⟨data, hdata, res', hres, h₁⟩, packet, hpacket, h⟩ := h
  obtain ⟨data', hdata', hwell⟩ := hpacket
  obtain rfl : data' = data := Option.some.inj (hdata'.symm.trans hdata)
  obtain ⟨hparse, hlength⟩ := wellFormed_eq_some hwell
  obtain ⟨hbody, hlmid⟩ := PTCP.parse_eq hres hparse
  simp only [Option.some.injEq, Prod.mk.injEq] at h₁ h
  refine ⟨packet, ?_, ?_, h.2.symm⟩
  · simp only [HandshakeEvent.packet, hdata, Option.bind_some, hwell]
  · rw [← h.1, ← h₁.2, hbody, hlmid, hlength]

theorem Mirrors.step {received : List PTCPPacket} {event : HandshakeEvent} {udp udp' : UDP}
    {s s' : PTCPSession} (h : Mirrors received udp s)
    (hstep : event.step (udp, s) = some (udp', s')) :
    Mirrors (received ++ event.packet.toList) udp' s' := by
  cases event with
  | request now body =>
    simp only [HandshakeEvent.step, UDP.requestPtcp, Option.bind_eq_bind,
      Option.bind_eq_some_iff] at hstep
    obtain ⟨⟨_, udp₁⟩, ⟨_, _, h₁⟩, hstep⟩ := hstep
    simp only [Option.some.injEq, Prod.mk.injEq] at h₁ hstep
    obtain ⟨rfl, rfl⟩ := hstep
    obtain ⟨_, rfl⟩ := h₁
    refine ⟨?_, ?_, ?_, h.rmid, h.rmid_lt, ?_⟩
    · simp only [PTCPSession.send, PTCPBody.len_ofBytes, SeqNum.wrap_add, h.sent]
      rfl
    · -- `count` skips empty bodies and the sync body on both sides
      simp only [PTCPSession.send, h.count, PTCPBody.ofBytes]
      by_cases hnil : body = []
      · simp [hnil]
      by_cases hsync : body = syncBytes
      · simp [hsync, syncBytes]
      · have hpos : 0 < body.length := List.length_pos_iff.mpr hnil
        simp only [hnil, hsync, if_false, hpos, ne_eq, not_false_eq_true, and_self, if_true,
          SeqNum.wrap_add]
        rfl
    · simp only [PTCPSession.send, h.id, SeqNum.wrap_add]
      rfl
    · rw [HandshakeEvent.packet, Option.toList_none, List.append_nil]
      exact h.recv
  | read timeout now incoming =>
    obtain ⟨packet, hpacket, rfl, rfl⟩ := HandshakeEvent.step_read hstep
    have hsame := recvPacket_sameSender (Prod.eta (s.recvPacket timeout now packet)).symm
    rw [hpacket, Option.toList_some]
    refine ⟨hsame.sent.trans h.sent, hsame.count.trans h.count, hsame.id.trans h.id, ?_,
      packet.lmid.isLt, ?_⟩
    · rw [hsame.rmid, SeqNum.wrap_toNat]
    · simp only [total_append, total_cons, total_nil, h.recv, Nat.add_zero]

/-! ## The receive offset -/

theorem packetsRead_concat (events : List HandshakeEvent) (event : HandshakeEvent) :
    packetsRead (events ++ [event]) = packetsRead events ++ event.packet.toList := by
  rw [packetsRead, List.filterMap_append, List.filterMap_cons, List.filterMap_nil]
  cases event.packet with
  | none => rfl
  | some packet => rfl

/-- The rule for invariants of a handshake, which may depend on what was read. -/
theorem runHandshake_induction {I : List PTCPPacket → UDP → PTCPSession → Prop}
    (hstep : ∀ received event udp s udp' s', I received udp s →
      HandshakeEvent.step event (udp, s) = some (udp', s') →
      I (received ++ event.packet.toList) udp' s')
    {events : List HandshakeEvent} {udp udp' : UDP} {s s' : PTCPSession} (h : I [] udp s)
    (hrun : runHandshake events (udp, s) = some (udp', s')) : I (packetsRead events) udp' s' := by
  let J (past : List HandshakeEvent) (state : UDP × PTCPSession) : Prop :=
    I (packetsRead past) state.1 state.2
  have hinit : J [] (udp, s) := h
  refine Run.run_induction (I := J) hinit ?_ hrun
  intro past event state state' _ hpast hevent
  simp only [J, packetsRead_concat]
  exact hstep (packetsRead past) event state.1 state.2 state'.1 state'.2 hpast hevent

/-- A step sends, which leaves the receiving side alone, or receives its packet. -/
theorem HandshakeEvent.step_session {event : HandshakeEvent} {udp udp' : UDP} {s s' : PTCPSession}
    (h : event.step (udp, s) = some (udp', s')) :
    (event.packet = none ∧ s'.recv = s.recv ∧ s'.pending = s.pending ∧
      s'.allowGapSkip = s.allowGapSkip) ∨
    ∃ timeout now packet ready, event.packet = some packet ∧
      s.recvPacket timeout now packet = (ready, s') := by
  cases event with
  | request now body =>
    simp only [step, Option.bind_eq_bind, Option.bind_eq_some_iff, Option.some.injEq,
      Prod.mk.injEq] at h
    obtain ⟨_, _, _, rfl⟩ := h
    exact .inl ⟨rfl, rfl, rfl, rfl⟩
  | read timeout now incoming =>
    obtain ⟨packet, hpacket, _, rfl⟩ := step_read h
    exact .inr ⟨timeout, now, packet, _, hpacket, rfl⟩

theorem Conserved.step {received : List PTCPPacket} {event : HandshakeEvent} {udp udp' : UDP}
    {s s' : PTCPSession} (h : ∃ delivered, Conserved 0 received delivered s)
    (hstep : event.step (udp, s) = some (udp', s')) :
    ∃ delivered, Conserved 0 (received ++ event.packet.toList) delivered s' := by
  obtain ⟨delivered, h⟩ := h
  rcases HandshakeEvent.step_session hstep with
    ⟨hpacket, hrecv, hpending, hstrict⟩ | ⟨timeout, now, packet, ready, hpacket, hrecv⟩
  · rw [hpacket, Option.toList_none, List.append_nil]
    exact ⟨delivered, h.of_same hrecv hpending hstrict⟩
  · rw [hpacket, Option.toList_some]
    exact ⟨delivered ++ ready, h.receive hrecv⟩

/-- When all packets read belong to a stream `Q`, the session holds exactly those. -/
def Collects (Q received : List PTCPPacket) (s : PTCPSession) : Prop :=
  (∀ p ∈ received, 0 < p.bodyLen → p ∈ Q) →
    s.allowGapSkip = false ∧
      ∃ n, Assembles 0 Q (fun i => ∃ p ∈ received, Q[i]? = some p) n s.recv s.pending

theorem collects_start {Q : List PTCPPacket} {s : PTCPSession} (hstrict : s.allowGapSkip = false)
    (hrecv : s.recv = 0) (hpending : s.pending = ∅) : Collects Q [] s :=
  fun _ => ⟨hstrict, 0, (assembles_start hrecv hpending).congr fun i => by simp⟩

theorem Collects.step {Q received : List PTCPPacket} {event : HandshakeEvent} {udp udp' : UDP}
    {s s' : PTCPSession} (hQ : Stream 0 Q) (hsmall : total PTCPPacket.bodyLen Q < 2 ^ 16)
    (h : Collects Q received s) (hstep : event.step (udp, s) = some (udp', s')) :
    Collects Q (received ++ event.packet.toList) s' := by
  intro hmem
  obtain ⟨hs, n, hassembles⟩ := h fun p hp => hmem p (List.mem_append_left _ hp)
  rcases HandshakeEvent.step_session hstep with
    ⟨hpacket, hrecv, hpending, hstrict⟩ | ⟨timeout, now, packet, ready, hpacket, hrecv⟩
  · rw [hpacket, Option.toList_none, List.append_nil, hrecv, hpending]
    exact ⟨hstrict.trans hs, n, hassembles⟩
  rw [hpacket, Option.toList_some] at hmem ⊢
  refine ⟨(recvPacket_sameSender hrecv).allowGapSkip.trans hs, ?_⟩
  rcases Nat.eq_zero_or_pos packet.bodyLen with hempty | hpos
  · -- an empty packet is not in the stream, and changes nothing
    obtain ⟨_, hrecv', hpending'⟩ := recvPacket_empty hs hempty hrecv
    rw [hrecv', hpending']
    refine ⟨n, hassembles.congr fun i => ⟨?_, ?_⟩⟩
    · rintro ⟨p, hp, hget⟩
      rcases List.mem_append.mp hp with hp | hp
      · exact ⟨p, hp, hget⟩
      · rw [List.mem_singleton.mp hp] at hget
        exact absurd hempty (Nat.ne_of_gt (hQ.pos packet (List.mem_of_getElem? hget)))
    · rintro ⟨p, hp, hget⟩
      exact ⟨p, List.mem_append_left _ hp, hget⟩
  · obtain ⟨i, hget⟩ := List.mem_iff_getElem?.mp
      (hmem packet (List.mem_append_right _ (List.mem_singleton_self _)) hpos)
    have hbound : ∀ j, startOf Q j < 2 ^ 16 := fun j =>
      Nat.lt_of_le_of_lt offset_le_total hsmall
    have hwindow : InWindow Q n i := by
      have := hbound i
      have := hbound n
      simp only [InWindow, HALF_WINDOW]
      omega
    obtain ⟨n', _, _, hassembles'⟩ := hassembles.receive hQ hs hget hwindow hrecv
    refine ⟨n', hassembles'.congr fun j => ⟨?_, ?_⟩⟩
    · rintro ⟨p, hp, hgetj⟩
      rcases List.mem_append.mp hp with hp | hp
      · exact .inl ⟨p, hp, hgetj⟩
      · -- two places of the stream never hold the same packet
        rw [List.mem_singleton.mp hp] at hgetj
        have hi := (List.getElem?_eq_some_iff.mp hget).1
        have hj := (List.getElem?_eq_some_iff.mp hgetj).1
        have := hbound i
        have := hbound j
        exact .inr (hQ.key_inj hj (Nat.le_of_lt hi) (by omega) (by omega)
          ((hQ.sent_eq hgetj).symm.trans (hQ.sent_eq hget)))
    · rintro (⟨p, hp, hgetj⟩ | rfl)
      · exact ⟨p, List.mem_append_left _ hp, hgetj⟩
      · exact ⟨packet, List.mem_append_right _ (List.mem_singleton_self _), hget⟩

/-! ## The state handed over -/

/-- The counters have stayed small. -/
structure UDP.Small (udp : UDP) : Prop where
  ptcpSent : udp.ptcpSent < 2 ^ 16
  ptcpRecv : udp.ptcpRecv < 2 ^ 16
  ptcpCount : udp.ptcpCount < 2 ^ 16
  ptcpId : udp.ptcpId < 2 ^ 16

theorem u32Arg_eq {n : Nat} (h : n < 2 ^ 32) : u32Arg n = some (SeqNum.wrap 32 n) := if_pos h

/-- Of the five values only `recv` can differ from the Rust session's. -/
theorem Mirrors.launchEngine {received : List PTCPPacket} {udp : UDP} {s : PTCPSession}
    (h : Mirrors received udp s) (hsmall : udp.Small) (now : Instant) :
    ∃ engine, launchEngine now udp = some engine ∧
      (SameState engine s ↔ SeqNum.wrap 32 udp.ptcpRecv = s.recv) := by
  refine ⟨fromState now (SeqNum.wrap 32 udp.ptcpSent) (SeqNum.wrap 32 udp.ptcpRecv)
    (SeqNum.wrap 32 udp.ptcpCount) (SeqNum.wrap 32 udp.ptcpId) (SeqNum.wrap 32 udp.rmid), ?_, ?_⟩
  · rw [DahuaBridge.launchEngine, u32Arg_eq (Nat.lt_trans hsmall.ptcpSent (by decide)),
      u32Arg_eq (Nat.lt_trans hsmall.ptcpRecv (by decide)),
      u32Arg_eq (Nat.lt_trans hsmall.ptcpCount (by decide)),
      u32Arg_eq (Nat.lt_trans hsmall.ptcpId (by decide)), u32Arg_eq h.rmid_lt]
    rfl
  · exact ⟨fun hsame => hsame.recv,
      fun hrecv => ⟨h.sent.symm, hrecv, h.count.symm, h.id.symm, h.rmid.symm⟩⟩

/-- The engine takes over the state of the strict Rust session exactly when the
non-empty packets read are, in some order, consecutive pieces of the peer's
stream from its start, each read once. -/
theorem handoff_agrees_iff {events : List HandshakeEvent} {udp : UDP} {s : PTCPSession}
    (start now : Instant)
    (hrun : runHandshake events ({}, (PTCPSession.new start).setAllowGapSkip false) =
      some (udp, s))
    (hsmall : udp.Small) :
    ∃ engine, launchEngine now udp = some engine ∧
      (SameState engine s ↔
        ∃ Q : List PTCPPacket, Tiles PTCPPacket.sent PTCPPacket.bodyLen 0 Q ∧
          Q.Perm (nonEmpty (packetsRead events))) := by
  have hmirrors : Mirrors (packetsRead events) udp s :=
    runHandshake_induction (fun _ _ _ _ _ _ h hstep => h.step hstep)
      (⟨rfl, rfl, rfl, rfl, by decide, rfl⟩ : Mirrors [] _ _) hrun
  obtain ⟨engine, hengine, hiff⟩ := hmirrors.launchEngine hsmall now
  refine ⟨engine, hengine, hiff.trans ?_⟩
  have hrecv := hsmall.ptcpRecv
  rw [hmirrors.recv] at hrecv ⊢
  constructor
  · intro heq
    obtain ⟨delivered, hconserved⟩ : ∃ delivered, Conserved 0 (packetsRead events) delivered s :=
      runHandshake_induction (I := fun received _ s => ∃ delivered, Conserved 0 received delivered s)
        (fun _ _ _ _ _ _ h hstep => Conserved.step h hstep)
        ⟨[], conserved_start rfl rfl rfl⟩ hrun
    have hle := hconserved.total_le
    rw [hconserved.recv_eq, Nat.zero_add] at heq
    have htotal := SeqNum.wrap_inj (by omega) (by omega) heq
    exact ⟨delivered, hconserved.tiles, hconserved.perm_of_total_eq htotal.symm⟩
  · rintro ⟨Q, htiles, hperm⟩
    have hpos : ∀ p ∈ Q, 0 < p.bodyLen := fun p hp => by
      simpa using List.of_mem_filter (hperm.mem_iff.mp hp)
    have htotal : total PTCPPacket.bodyLen Q = total PTCPPacket.bodyLen (packetsRead events) :=
      (total_perm hperm).trans (total_filter_pos _)
    have hQ : Stream 0 Q := ⟨htiles, hpos, fun p hp => by
      have hle : p.bodyLen ≤ total PTCPPacket.bodyLen Q := le_total hp
      omega⟩
    have hcollects : Collects Q (packetsRead events) s :=
      runHandshake_induction (I := fun received _ s => Collects Q received s)
        (fun _ _ _ _ _ _ h hstep => h.step hQ (by omega) hstep)
        (collects_start rfl rfl rfl : Collects Q [] _) hrun
    obtain ⟨_, n, hassembles⟩ := hcollects fun p hp hlen =>
      hperm.mem_iff.mpr (List.mem_filter.mpr ⟨hp, by simpa using hlen⟩)
    have hn : n = Q.length := by
      by_contra hne
      have hlt : n < Q.length := Nat.lt_of_le_of_ne hassembles.frontier.le hne
      have hmem : Q[n] ∈ packetsRead events :=
        List.mem_of_mem_filter (hperm.mem_iff.mp (List.getElem_mem hlt))
      exact hassembles.frontier.stops hlt ⟨Q[n], hmem, List.getElem?_eq_getElem hlt⟩
    rw [hassembles.recv_eq, keyOf, hn, startOf, offset_length, htotal, Nat.zero_add]

/-- The peer's answer to the sync request. -/
def syncAnswer : PTCPPacket := ⟨0, 4, 0x0002FFFF, 0, 0, .sync⟩

/-- A command of the peer that follows it. -/
def nextCommand : PTCPPacket := ⟨4, 4, 0x0000FFFF, 1, 0, .command [0x17, 0, 0, 0, 1]⟩

/-- Both sides before the handshake. -/
def freshPair : UDP × PTCPSession := ({}, (PTCPSession.new 0).setAllowGapSkip false)

/-- The sync request, and two answers that come in swapped. -/
def swappedHandshake : List HandshakeEvent :=
  [.request 0 syncBytes, .read 0 0 [nextCommand.serialize], .read 0 0 [[0xFF], syncAnswer.serialize]]

theorem handoff_agrees_iff_swapped :
    ∃ udp s engine, runHandshake swappedHandshake freshPair = some (udp, s) ∧
      launchEngine 0 udp = some engine ∧ SameState engine s := by
  have hsome : (runHandshake swappedHandshake freshPair).isSome := by decide
  obtain ⟨⟨udp, s⟩, hrun⟩ := Option.isSome_iff_exists.mp hsome
  have hudp : udp = ⟨4, 9, 0, 1, 0⟩ := by
    have := congrArg (Option.map Prod.fst) hrun
    exact (Option.some.inj (this.symm.trans (by decide)))
  obtain ⟨engine, hengine, hiff⟩ := handoff_agrees_iff 0 0 hrun
    (by subst hudp; exact ⟨by decide, by decide, by decide, by decide⟩)
  exact ⟨udp, s, engine, hrun, hengine,
    hiff.mpr ⟨[syncAnswer, nextCommand], by decide, by decide⟩⟩

/-- The sync request, and its answer twice. -/
def repeatedHandshake : List HandshakeEvent :=
  [.request 0 syncBytes, .read 0 0 [syncAnswer.serialize], .read 0 0 [syncAnswer.serialize]]

/-- Python counts the duplicate, so the engine starts at 8 where the stream is at 4. -/
theorem repeatedHandshake_disagrees :
    ¬ ∀ events udp s engine, runHandshake events freshPair = some (udp, s) →
      udp.Small → launchEngine 0 udp = some engine → SameState engine s := by
  intro h
  have hsome : (runHandshake repeatedHandshake freshPair).isSome := by decide
  obtain ⟨⟨udp, s⟩, hrun⟩ := Option.isSome_iff_exists.mp hsome
  have hudp : udp = ⟨4, 8, 0, 1, 0⟩ := by
    have := congrArg (Option.map Prod.fst) hrun
    exact (Option.some.inj (this.symm.trans (by decide)))
  have hrecv : s.recv = 4 := by
    have := congrArg (Option.map fun state => state.2.recv) hrun
    exact (Option.some.inj (this.symm.trans (by decide)))
  subst hudp
  have hsame := h repeatedHandshake _ s _ hrun ⟨by decide, by decide, by decide, by decide⟩ rfl
  have : (8 : U32) = s.recv := hsame.recv
  rw [hrecv] at this
  exact absurd this (by decide)

end DahuaBridge
