import DahuaBridge.Handshake.Script
import DahuaBridge.Engine.Session

/-!
# One session for the peer

The script speaks PTCP on a socket first, the engine goes on with it. The peer sees one
sender all the same: every packet starts where the one before has stopped.

* `OneSession`: the packets of one sender, with its offsets, its ids and its counter.
* `UDP.Sending`, `PTCPSession.Sending`: the counters of either side go with the packets sent.
* `Setup.setup_hands_over`: the packets of the script and then those of the engine are one session.
-/

namespace DahuaBridge

open Tiling

/-! ## The packets of one sender -/

/-- The packet adds to the counter that goes into `pid`. -/
def PTCPPacket.counts (packet : PTCPPacket) : Bool :=
  match packet.body with
  | .sync | .empty => false
  | _ => true

/-- The packet goes on where the packets before it have stopped. -/
structure PTCPPacket.Continues (before : List PTCPPacket) (packet : PTCPPacket) : Prop where
  sent : packet.sent = SeqNum.wrap 32 (total PTCPPacket.bodyLen before)
  lmid : packet.lmid = SeqNum.wrap 32 before.length
  pid : packet.pid = if packet.body = .sync then 0x0002FFFF
    else 0x0000FFFF - SeqNum.wrap 32 (before.countP PTCPPacket.counts)

inductive OneSession : List PTCPPacket → Prop
  | nil : OneSession []
  | concat {before : List PTCPPacket} {packet : PTCPPacket} : OneSession before →
      packet.Continues before → OneSession (before ++ [packet])

/-! ## The script -/

/-- What was sent on the socket so far. -/
structure UDP.Sending (before : List PTCPPacket) (udp : UDP) : Prop where
  session : OneSession before
  ptcpSent : udp.ptcpSent = total PTCPPacket.bodyLen before
  ptcpId : udp.ptcpId = before.length
  ptcpCount : udp.ptcpCount = before.countP PTCPPacket.counts

theorem packL_eq_some {v : Int} {data : Bytes} (h : packL v = some data) :
    0 ≤ v ∧ data = toBeBytes (BitVec.ofInt 32 v) := by
  unfold packL at h
  split at h
  · next hrange => exact ⟨hrange.1, (Option.some.inj h).symm⟩
  · cases h

theorem packL_natCast {n : Nat} {data : Bytes} (h : packL n = some data) :
    data = toBeBytes (SeqNum.wrap 32 n) :=
  (packL_eq_some h).2.trans (congrArg toBeBytes (BitVec.ofInt_natCast 32 n))

theorem ofInt_pid (count : Nat) :
    BitVec.ofInt 32 (0x0000FFFF - count) = 0x0000FFFF - SeqNum.wrap 32 count := by
  rw [BitVec.eq_sub_iff_add_eq, SeqNum.wrap, ← BitVec.ofInt_natCast, ← BitVec.ofInt_add,
    Int.sub_add_cancel]
  rfl

/-- The packet of `request_ptcp`, as the engine would write it. -/
def UDP.packet (udp : UDP) (body : Bytes) : PTCPPacket where
  sent := SeqNum.wrap 32 udp.ptcpSent
  recv := SeqNum.wrap 32 udp.ptcpRecv
  pid := if body = syncBytes then 0x0002FFFF else 0x0000FFFF - SeqNum.wrap 32 udp.ptcpCount
  lmid := SeqNum.wrap 32 udp.ptcpId
  rmid := SeqNum.wrap 32 udp.rmid
  body := PTCPBody.ofBytes body

theorem UDP.bytes_outgoing {udp : UDP} {body datagram : Bytes}
    (h : (udp.outgoing body).bytes = some datagram) : datagram = (udp.packet body).serialize := by
  unfold PTCP.bytes at h
  simp only [Option.bind_eq_bind, Option.bind_eq_some_iff] at h
  obtain ⟨rlid, hrlid, llid, hllid, pid, hpid, lmid, hlmid, rmid, hrmid, h⟩ := h
  have hpid' : pid = toBeBytes (udp.packet body).pid := by
    rw [(packL_eq_some hpid).2]
    unfold UDP.outgoing UDP.packet
    split
    · rfl
    · exact congrArg toBeBytes (ofInt_pid udp.ptcpCount)
  rw [← Option.some.inj h, packL_natCast hrlid, packL_natCast hllid, hpid', packL_natCast hlmid,
    packL_natCast hrmid]
  exact congrArg (_ ++ ·) (PTCPBody.serialize_ofBytes body).symm

theorem PTCPBody.ofBytes_eq_sync (body : Bytes) :
    PTCPBody.ofBytes body = .sync ↔ body = syncBytes := by
  unfold PTCPBody.ofBytes
  by_cases hnil : body = []
  · rw [if_pos hnil, hnil]
    exact iff_of_false PTCPBody.noConfusion (by decide)
  · rw [if_neg hnil]
    by_cases hsync : body = syncBytes
    · exact iff_of_true (if_pos hsync) hsync
    · rw [if_neg hsync]
      exact iff_of_false PTCPBody.noConfusion hsync

theorem UDP.counts_packet (udp : UDP) (body : Bytes) :
    (udp.packet body).counts = decide (0 < body.length ∧ body ≠ syncBytes) := by
  unfold PTCPPacket.counts UDP.packet PTCPBody.ofBytes
  by_cases hnil : body = []
  · simp [hnil]
  · by_cases hsync : body = syncBytes
    · simp [hsync, syncBytes]
    · simp [hnil, hsync, List.length_pos_iff]

theorem UDP.Sending.continues {before : List PTCPPacket} {udp : UDP} (h : udp.Sending before)
    (body : Bytes) : (udp.packet body).Continues before where
  sent := congrArg (SeqNum.wrap 32) h.ptcpSent
  lmid := congrArg (SeqNum.wrap 32) h.ptcpId
  pid := by
    rw [← h.ptcpCount]
    exact if_congr (PTCPBody.ofBytes_eq_sync body).symm rfl rfl

theorem UDP.Sending.request {before : List PTCPPacket} {udp udp' : UDP} {body datagram : Bytes}
    (h : udp.Sending before) (hsent : udp.requestPtcp body = some (datagram, udp')) :
    datagram = (udp.packet body).serialize ∧ udp'.Sending (before ++ [udp.packet body]) := by
  unfold UDP.requestPtcp at hsent
  obtain ⟨_, hbytes, hsent⟩ := Option.bind_eq_some_iff.mp hsent
  cases hsent
  refine ⟨bytes_outgoing hbytes, h.session.concat (h.continues body), ?_, ?_, ?_⟩
  · rw [total_append, total_cons, total_nil, ← h.ptcpSent]
    exact congrArg (udp.ptcpSent + ·) (PTCPBody.len_ofBytes body).symm
  · rw [List.length_append, ← h.ptcpId]
    rfl
  · rw [List.countP_append, List.countP_singleton, ← h.ptcpCount, UDP.counts_packet]
    by_cases hcounted : 0 < body.length ∧ body ≠ syncBytes
    · simp only [hcounted, decide_true, if_true, ne_eq, not_false_eq_true, and_self]
    · rw [decide_eq_false hcounted]
      exact if_neg hcounted

/-- The datagrams of a socket are the packets of one session. -/
def Remote.Sending (remote : Remote) (before : List PTCPPacket) : Prop :=
  remote.datagrams = before.map PTCPPacket.serialize ∧ remote.udp.Sending before

theorem Remote.Sending.request {remote remote' : Remote} {before : List PTCPPacket} {body : Bytes}
    (h : remote.Sending before) (hsent : remote.requestPtcp body = some remote') :
    remote'.Sending (before ++ [remote.udp.packet body]) := by
  unfold Remote.requestPtcp at hsent
  obtain ⟨⟨datagram, udp⟩, hudp, rfl⟩ := Option.map_eq_some_iff.mp hsent
  obtain ⟨rfl, hsending⟩ := h.2.request hudp
  refine ⟨?_, hsending⟩
  rw [List.map_append, ← h.1]
  rfl

theorem Remote.Sending.read {remote remote' : Remote} {before : List PTCPPacket} {data body : Bytes}
    (h : remote.Sending before) (hread : remote.readPtcp data = some (remote', body)) :
    remote'.Sending before := by
  unfold Remote.readPtcp UDP.readPtcp at hread
  obtain ⟨_, hudp, hres⟩ := Option.map_eq_some_iff.mp hread
  obtain ⟨_, _, hudp⟩ := Option.bind_eq_some_iff.mp hudp
  obtain ⟨res, _, hudp⟩ := Option.bind_eq_some_iff.mp hudp
  cases hudp
  cases hres
  exact ⟨h.1, h.2.session, h.2.ptcpSent, h.2.ptcpId, h.2.ptcpCount⟩

/-! ## The engine -/

/-- What was sent in the session so far. -/
structure PTCPSession.Sending (before : List PTCPPacket) (s : PTCPSession) : Prop where
  session : OneSession before
  sent : s.sent = SeqNum.wrap 32 (total PTCPPacket.bodyLen before)
  id : s.id = SeqNum.wrap 32 before.length
  count : s.count = SeqNum.wrap 32 (before.countP PTCPPacket.counts)

namespace PTCPSession

variable {before : List PTCPPacket} {s s' : PTCPSession}

/-- The sender's counters are all that matters. -/
theorem Sending.of_same (h : s.Sending before) (hsent : s'.sent = s.sent) (hid : s'.id = s.id)
    (hcount : s'.count = s.count) : s'.Sending before :=
  ⟨h.session, hsent.trans h.sent, hid.trans h.id, hcount.trans h.count⟩

theorem Sending.send (h : s.Sending before) (now : Instant) (body : PTCPBody) :
    (s.send now body).2.Sending (before ++ [(s.send now body).1]) := by
  have hcontinues : (s.send now body).1.Continues before := by
    refine ⟨h.sent, h.id, ?_⟩
    rw [← h.count]
    cases body <;> rfl
  refine ⟨h.session.concat hcontinues, ?_, ?_, ?_⟩
  · rw [total_append, total_cons, total_nil, SeqNum.wrap_add, ← h.sent]
    rfl
  · rw [List.length_append, SeqNum.wrap_add, ← h.id]
    rfl
  · rw [List.countP_append, List.countP_singleton, SeqNum.wrap_add, ← h.count]
    cases body <;> rfl

/-- Only `send` makes a new packet, and no other call touches the sender's counters. -/
theorem Sending.perform {timeout : Duration} (h : s.Sending before) (call : Call) :
    (call.perform timeout s).Sending (before ++ (call.outgoing s).toList) := by
  cases call with
  | send now body => exact h.send now body
  | recv now packet =>
    have hsame := recvPacket_sameSender (Prod.eta (s.recvPacket timeout now packet)).symm
    exact (List.append_nil before).symm ▸ h.of_same hsame.sent hsame.id hsame.count
  | _ => exact (List.append_nil before).symm ▸ h.of_same rfl rfl rfl

end PTCPSession

theorem Engine.sending_step {config : Config} {before : List PTCPPacket} {event : Event}
    {e e' : Engine} (h : e.session.Sending (before ++ e.sent))
    (hstep : step config e event = some e') : e'.session.Sending (before ++ e'.sent) := by
  obtain ⟨hsession, hsent, -⟩ := step_effect hstep
  rw [hsession, hsent, ← List.append_assoc]
  cases e.callOf event with
  | none => exact (List.append_nil (before ++ e.sent)).symm ▸ h
  | some call => exact h.perform call

/-! ## Handing over -/

/-- The engine goes on with the counters of the script. -/
theorem UDP.Sending.launchEngine {before : List PTCPPacket} {udp : UDP} {now : Instant}
    {session : PTCPSession} (h : udp.Sending before)
    (hlaunch : DahuaBridge.launchEngine now udp = some session) : session.Sending before := by
  unfold DahuaBridge.launchEngine at hlaunch
  simp only [Option.bind_eq_bind, Option.bind_eq_some_iff] at hlaunch
  obtain ⟨sent, hsent, recv, -, count, hcount, id, hid, rmid, -, hlaunch⟩ := hlaunch
  have hwrap {n : Nat} {v : U32} (h : u32Arg n = some v) : v = SeqNum.wrap 32 n := by
    unfold u32Arg at h
    split at h
    · exact (Option.some.inj h).symm
    · cases h
  rw [← Option.some.inj hlaunch]
  refine ⟨h.session, ?_, ?_, ?_⟩
  · rw [← h.ptcpSent]
    exact hwrap hsent
  · rw [← h.ptcpId]
    exact hwrap hid
  · rw [← h.ptcpCount]
    exact hwrap hcount

namespace Setup

variable {config : SetupConfig} {s s' : Setup} {via : Via}

/-- Both sockets have sent packets of a session, each of its own. -/
def Sends (s : Setup) : Prop := ∀ via, ∃ before, (s.remote via).Sending before

theorem sends_start (config : SetupConfig) : (start config).Sends := by
  have hnew : Remote.Sending {} [] := ⟨rfl, .nil, rfl, rfl, rfl⟩
  unfold start
  split
  · exact fun via => ⟨[], by cases via <;> exact hnew⟩
  · exact fun via => ⟨[], by cases via <;> exact hnew⟩

theorem Sends.setRemote (h : s.Sends) {remote : Remote} (hremote : ∃ before, remote.Sending before) :
    (s.setRemote via remote).Sends := by
  intro other
  cases via with
  | relay =>
    cases other with
    | relay => exact hremote
    | device => exact h .device
  | device =>
    cases other with
    | relay => exact h .relay
    | device => exact hremote

theorem sends_step {event : SetupEvent} (h : s.Sends) (hstep : s.step config event = some s') :
    s'.Sends := by
  refine step_keeps (I := Sends) ?_ ?_ ?_ h hstep
  · intro s s' hrelay hdevice h via
    have hsame : s'.remote via = s.remote via := by
      cases via with
      | relay => exact hrelay
      | device => exact hdevice
    rw [hsame]
    exact h via
  · intro s via body remote hsent h
    obtain ⟨before, hsending⟩ := h via
    exact h.setRemote ⟨_, hsending.request hsent⟩
  · intro s via data remote body hread h
    obtain ⟨before, hsending⟩ := h via
    exact h.setRemote ⟨before, hsending.read hread⟩

/-- The engine goes on with a socket of the script. The datagrams that the script has sent on it
and the packets that the engine sends afterwards are the packets of one sender. -/
theorem setup_hands_over {events : List SetupEvent} {now : Instant} {session : PTCPSession}
    {engineConfig : Engine.Config} {steps : List Engine.Event} {e : Engine}
    (hrun : Run.run (step config) events (start config) = some s)
    (hlaunch : launchEngine now (s.remote via).udp = some session)
    (hengine : Run.run (Engine.step engineConfig) steps (Engine.start session) = some e) :
    ∃ packets, (s.remote via).datagrams = packets.map PTCPPacket.serialize ∧
      OneSession (packets ++ e.sent) := by
  have hsends : s.Sends :=
    Run.run_invariant (I := Sends) (sends_start config) (fun _ _ _ h hstep => sends_step h hstep) hrun
  obtain ⟨packets, hdatagrams, hsending⟩ := hsends via
  have hstart : (Engine.start session).session.Sending (packets ++ []) :=
    (List.append_nil packets).symm ▸ hsending.launchEngine hlaunch
  have hsent : e.session.Sending (packets ++ e.sent) :=
    Run.run_invariant (I := fun e => e.session.Sending (packets ++ e.sent)) hstart
      (fun _ _ _ h hstep => Engine.sending_step h hstep) hengine
  exact ⟨packets, hdatagrams, hsent.session⟩

/-- The setup of a camera that is reached directly, and the first heartbeat of its engine. -/
theorem setup_hands_over_direct :
    ∃ s session e packets,
      Run.run (step directConfig) directSetup (start directConfig) = some s ∧
      launchEngine 0 s.device.udp = some session ∧
      Run.run (Engine.step ⟨554, gapTimeout none⟩) [.heartbeat, .dhWriterRecv, .dhWriterSend 0]
        (Engine.start session) = some e ∧
      s.device.datagrams = packets.map PTCPPacket.serialize ∧ OneSession (packets ++ e.sent) := by
  have hsome : ((Run.run (step directConfig) directSetup (start directConfig)).bind fun s =>
      (launchEngine 0 s.device.udp).bind fun session =>
        Run.run (Engine.step ⟨554, gapTimeout none⟩) [.heartbeat, .dhWriterRecv, .dhWriterSend 0]
          (Engine.start session)).isSome := by decide +kernel
  obtain ⟨e, he⟩ := Option.isSome_iff_exists.mp hsome
  obtain ⟨s, hrun, he⟩ := Option.bind_eq_some_iff.mp he
  obtain ⟨session, hlaunch, hengine⟩ := Option.bind_eq_some_iff.mp he
  obtain ⟨packets, hdatagrams, hsession⟩ :=
    @setup_hands_over directConfig s .device _ 0 session _ _ e hrun hlaunch hengine
  exact ⟨s, session, e, packets, hrun, hlaunch, hengine, hdatagrams, hsession⟩

end Setup

end DahuaBridge
