import DahuaBridge.Ptcp.Receiver
import DahuaBridge.Ptcp.Reassembly

/-!
# What stays in the buffer

A drain moves the receive offset by whole packets and takes out only what starts exactly
at the offset. If the packets of a sender overlap, a drain may jump over the start of a
buffered packet. Nothing takes that packet out again.

* `Drains.keys_ahead`: a drain that jumps over no start leaves what is ahead.
* `JumpsOver.left_behind`: one that does leaves a packet behind.
* `pending_ahead`: both, for every run.
-/

namespace DahuaBridge

open Tiling PTCPSession

/-- The drain from `start` takes out a packet that ends beyond the start of another one in
the buffer. -/
inductive JumpsOver : Pending → U32 → Prop
  | here {pending : Pending} {start key : U32} {packet : PTCPPacket} :
      pending.lookup start = some packet → key ∈ pending → 0 < (key - start).toNat →
      (key - start).toNat < packet.body.len → JumpsOver pending start
  | later {pending : Pending} {start : U32} {packet : PTCPPacket} :
      pending.lookup start = some packet →
      JumpsOver (pending.erase start) (start + lengthU32 packet.body.len) → JumpsOver pending start

/-- All packets of the buffer are ahead of the receive offset. -/
def PendingAhead (s : PTCPSession) : Prop := ∀ key ∈ s.pending, sequenceAfter key s.recv = true

/-- The bodies in the buffer are no longer than a datagram allows. -/
def BodiesBounded (pending : Pending) : Prop :=
  ∀ key packet, pending.lookup key = some packet → packet.body.len ≤ MAX_BODY

/-- Whatever drain the call starts, it jumps over no start of a buffered packet. -/
def JumpsOverNone (timeout : Duration) (r : Receiver) (d : Delivery) : Prop :=
  (r.session.IsNext d.1 → ¬ JumpsOver (r.session.buffered d.1) r.session.recv) ∧
  (r.session.SkipsOn timeout d.2 d.1 → ∀ start,
    (r.session.bufferAhead d.2 d.1).nextStart = some start →
      ¬ JumpsOver (r.session.buffered d.1) start)

section Offsets

variable {key start recv : U32} {len : Nat}

theorem sequenceAfter_iff : sequenceAfter key recv = true ↔
    0 < (key - recv).toNat ∧ (key - recv).toNat < 2 ^ 31 := by
  rw [sequenceAfter, decide_eq_true_iff, SeqNum.after_iff]
  omega

theorem eq_of_toNat_sub (h : (key - start).toNat = 0) : key = start := by bv_omega

theorem toNat_sub_comm (h : 0 < (start - key).toNat) :
    (key - start).toNat = 2 ^ 32 - (start - key).toNat := by bv_omega

theorem toNat_lengthU32 (h : len ≤ MAX_BODY) : (lengthU32 len).toNat = len := by
  simp only [lengthU32, SeqNum.wrap, BitVec.toNat_ofNat]
  exact Nat.mod_eq_of_lt (Nat.lt_of_le_of_lt h (by decide))

/-- A start at least `len` ahead is by `len` less ahead after a step of `len`. -/
theorem toNat_sub_add (h : len ≤ MAX_BODY) (hle : len ≤ (key - start).toNat) :
    (key - (start + lengthU32 len)).toNat = (key - start).toNat - len := by
  have hlen := toNat_lengthU32 h
  rw [← BitVec.sub_sub, BitVec.toNat_sub_of_le (by rw [BitVec.le_def, hlen]; exact hle), hlen]

/-- An offset beyond a start is by `len` more beyond it after a step of `len`. -/
theorem toNat_add_sub (h : len ≤ MAX_BODY) (hlt : (start - key).toNat + len < 2 ^ 32) :
    (start + lengthU32 len - key).toNat = (start - key).toNat + len := by
  have hlen := toNat_lengthU32 h
  have hsplit : start + lengthU32 len - key = (start - key) + lengthU32 len := by
    rw [BitVec.sub_eq_add_neg, BitVec.sub_eq_add_neg, BitVec.add_assoc, BitVec.add_assoc,
      BitVec.add_comm (lengthU32 len)]
  rw [hsplit, BitVec.toNat_add, hlen, Nat.mod_eq_of_lt hlt]

/-- How far a step of `len` goes beyond a start that it jumps over. -/
theorem toNat_sub_of_inside (h : len ≤ MAX_BODY) (hlt : (key - start).toNat < len) :
    (start + lengthU32 len - key).toNat = len - (key - start).toNat := by
  have hlen := toNat_lengthU32 h
  have hsplit : start + lengthU32 len - key = lengthU32 len - (key - start) := by bv_omega
  rw [hsplit, BitVec.toNat_sub_of_le (by rw [BitVec.le_def, hlen]; exact Nat.le_of_lt hlt), hlen]

end Offsets

section Drain

variable {pending pending' : Pending} {recv recv' key : U32} {ready : List PTCPPacket}

theorem BodiesBounded.erase (h : BodiesBounded pending) : BodiesBounded (pending.erase key) := by
  intro key' packet hlookup
  by_cases hkey : key' = key
  · rw [hkey, AList.lookup_erase] at hlookup
    cases hlookup
  · rw [AList.lookup_erase_ne hkey] at hlookup
    exact h key' packet hlookup

theorem PTCPSession.Drains.bodiesBounded (h : Drains pending recv ready recv' pending')
    (hbodies : BodiesBounded pending) : BodiesBounded pending' := by
  induction h with
  | done _ => exact hbodies
  | next _ _ ih => exact ih hbodies.erase

/-- A drain that jumps over no start leaves behind what is ahead of the offset. -/
theorem PTCPSession.Drains.keys_ahead (h : Drains pending recv ready recv' pending')
    (hbodies : BodiesBounded pending) (hkeys : ∀ key ∈ pending, (key - recv).toNat < 2 ^ 31)
    (hover : ¬ JumpsOver pending recv) : ∀ key ∈ pending', sequenceAfter key recv' = true := by
  induction h with
  | @done pending recv hnone =>
    intro key hkey
    refine sequenceAfter_iff.mpr ⟨Nat.pos_of_ne_zero fun hzero => ?_, hkeys key hkey⟩
    obtain rfl := eq_of_toNat_sub hzero
    exact absurd hkey (AList.lookup_eq_none.mp hnone)
  | @next pending pending' recv recv' packet ready hlookup _ ih =>
    refine ih hbodies.erase (fun key hkey => ?_) fun hlater => hover (.later hlookup hlater)
    obtain ⟨hne, hkey⟩ := AList.mem_erase.mp hkey
    have hlen : packet.body.len ≤ (key - recv).toNat := by
      by_contra hlt
      have hpos : 0 < (key - recv).toNat := Nat.pos_of_ne_zero fun hzero => hne (eq_of_toNat_sub hzero)
      exact hover (.here hlookup hkey hpos (Nat.not_le.mp hlt))
    rw [toNat_sub_add (hbodies recv packet hlookup) hlen]
    exact Nat.lt_of_le_of_lt (Nat.sub_le _ _) (hkeys key hkey)

/-- A start that the offset has passed stays in the buffer, unless the drain goes on for half
a window. -/
theorem PTCPSession.Drains.left_behind (h : Drains pending recv ready recv' pending')
    (hbodies : BodiesBounded pending) (hkey : key ∈ pending) (hpassed : 0 < (recv - key).toNat)
    (hshort : (recv - key).toNat + total PTCPPacket.bodyLen ready < 2 ^ 31) :
    ∃ key ∈ pending', sequenceAfter key recv' = false := by
  induction h with
  | @done pending recv _ =>
    refine ⟨key, hkey, Bool.eq_false_iff.mpr fun hafter => ?_⟩
    obtain ⟨_, hlt⟩ := sequenceAfter_iff.mp hafter
    rw [toNat_sub_comm hpassed] at hlt
    rw [total_nil] at hshort
    omega
  | @next pending pending' recv recv' packet ready hlookup _ ih =>
    have hlen := hbodies recv packet hlookup
    rw [total_cons] at hshort
    have hstep : (recv + lengthU32 packet.body.len - key).toNat = (recv - key).toNat + packet.bodyLen :=
      toNat_add_sub hlen (by simp only [PTCPPacket.bodyLen] at hshort; omega)
    have hne : key ≠ recv := fun heq => by
      rw [heq, BitVec.sub_self] at hpassed
      exact absurd hpassed (Nat.lt_irrefl 0)
    refine ih hbodies.erase (AList.mem_erase.mpr ⟨hne, hkey⟩) ?_ ?_ <;> rw [hstep] <;> omega

/-- A drain that jumps over a start leaves a packet behind. -/
theorem JumpsOver.left_behind (h : JumpsOver pending recv)
    (hdrains : Drains pending recv ready recv' pending') (hbodies : BodiesBounded pending)
    (hshort : total PTCPPacket.bodyLen ready < 2 ^ 31) :
    ∃ key ∈ pending', sequenceAfter key recv' = false := by
  induction h generalizing ready with
  | @here pending start key packet hlookup hkey hpos hlt =>
    cases hdrains with
    | done hnone =>
      rw [hlookup] at hnone
      cases hnone
    | next hlookup' hrest =>
      obtain rfl := Option.some.inj (hlookup.symm.trans hlookup')
      have hne : key ≠ start := fun heq => by
        rw [heq, BitVec.sub_self] at hpos
        exact absurd hpos (Nat.lt_irrefl 0)
      have hpassed := toNat_sub_of_inside (hbodies start packet hlookup) hlt
      rw [total_cons] at hshort
      refine hrest.left_behind hbodies.erase (AList.mem_erase.mpr ⟨hne, hkey⟩) ?_ ?_ <;>
        rw [hpassed]
      · exact Nat.sub_pos_of_lt hlt
      · exact Nat.lt_of_le_of_lt (Nat.add_le_add_right (Nat.sub_le _ _) _) hshort
  | @later pending start packet hlookup _ ih =>
    cases hdrains with
    | done hnone =>
      rw [hlookup] at hnone
      cases hnone
    | next hlookup' hrest =>
      obtain rfl := Option.some.inj (hlookup.symm.trans hlookup')
      refine ih hrest hbodies.erase ?_
      rw [total_cons] at hshort
      exact Nat.lt_of_le_of_lt (Nat.le_add_left _ _) hshort

/-- A drain takes out each packet once. -/
theorem PTCPSession.Drains.total_le (h : Drains pending recv ready recv' pending')
    (hbodies : BodiesBounded pending) :
    total PTCPPacket.bodyLen ready ≤ pending.entries.length * MAX_BODY := by
  induction h with
  | done _ => exact Nat.zero_le _
  | @next pending _ recv _ packet ready hlookup _ ih =>
    have hlen : packet.bodyLen ≤ MAX_BODY := hbodies recv packet hlookup
    calc total PTCPPacket.bodyLen (packet :: ready)
        = packet.bodyLen + total PTCPPacket.bodyLen ready := total_cons _ _
      _ ≤ MAX_BODY + (pending.erase recv).entries.length * MAX_BODY :=
        Nat.add_le_add hlen (ih hbodies.erase)
      _ = ((pending.erase recv).entries.length + 1) * MAX_BODY := by rw [Nat.succ_mul, Nat.add_comm]
      _ ≤ pending.entries.length * MAX_BODY := Nat.mul_le_mul_right _ (length_erase_lt hlookup)

end Drain

/-! ## One call -/

section Step

variable {timeout : Duration} {r : Receiver} {d : Delivery} {ready : List PTCPPacket}
  {s : PTCPSession}

theorem BodiesBounded.buffered {s : PTCPSession} {packet : PTCPPacket}
    (h : BodiesBounded s.pending) (hlen : packet.body.len ≤ MAX_BODY) :
    BodiesBounded (s.buffered packet) := by
  intro key q hlookup
  by_cases hkey : key = packet.sent
  · rw [hkey, PTCPSession.buffered, AList.lookup_insert] at hlookup
    exact Option.some.inj hlookup ▸ hlen
  · rw [PTCPSession.buffered, AList.lookup_insert_ne hkey] at hlookup
    exact h key q hlookup

theorem BodiesBounded.step (h : BodiesBounded r.session.pending) (hlen : d.1.body.len ≤ MAX_BODY)
    (hrecv : r.session.recvPacket timeout d.2 d.1 = (ready, s)) : BodiesBounded s.pending := by
  rcases recvPacket_cases hrecv with ⟨_, _, _, hpending⟩ | ⟨_, _, _, hpending⟩ | ⟨_, hdrains⟩ |
    ⟨_, _, _, _, hdrains⟩
  · rwa [hpending]
  · rw [hpending]
    exact h.buffered hlen
  · exact hdrains.bodiesBounded (h.buffered hlen)
  · exact hdrains.bodiesBounded (h.buffered hlen)

/-- The buffer of a call that finds its packet beyond a gap is ahead of the offset. -/
theorem PendingAhead.buffered (h : PendingAhead r.session) (hahead : r.session.IsAhead d.1) :
    ∀ key ∈ r.session.buffered d.1, sequenceAfter key r.session.recv = true := by
  intro key hkey
  rcases (AList.mem_insert _).mp hkey with rfl | hold
  · exact hahead.2.2.1
  · exact h key hold

theorem toNat_sub_of_closest {key start recv : U32}
    (hclosest : (start - recv).toNat ≤ (key - recv).toNat) :
    (key - start).toNat ≤ (key - recv).toNat := by bv_omega

/-- A call that jumps over no start leaves the buffer ahead of the offset. -/
theorem PendingAhead.step (h : PendingAhead r.session) (hbodies : BodiesBounded r.session.pending)
    (hlen : d.1.body.len ≤ MAX_BODY) (hover : JumpsOverNone timeout r d)
    (hrecv : r.session.recvPacket timeout d.2 d.1 = (ready, s)) : PendingAhead s := by
  unfold PendingAhead
  rcases recvPacket_cases hrecv with ⟨_, _, hsame, hpending⟩ | ⟨hahead, _, hsame, hpending⟩ |
    ⟨hnext, hdrains⟩ | ⟨hahead, hskip, start, hstart, hdrains⟩
  · rw [hsame, hpending]
    exact h
  · rw [hsame, hpending]
    exact h.buffered hahead
  · refine hdrains.keys_ahead (hbodies.buffered hlen) (fun key hkey => ?_) (hover.1 hnext)
    rcases (AList.mem_insert _).mp hkey with rfl | hold
    · rw [hnext.2.1, BitVec.sub_self]
      decide
    · exact (sequenceAfter_iff.mp (h key hold)).2
  · refine hdrains.keys_ahead (hbodies.buffered hlen) (fun key hkey => ?_)
      (hover.2 ⟨hahead, hskip⟩ start hstart)
    have hafter := h.buffered hahead key hkey
    exact Nat.lt_of_le_of_lt (toNat_sub_of_closest ((nextStart_eq_some hstart).2.2 key hkey hafter))
      (sequenceAfter_iff.mp hafter).2

/-- Fewer than `2 ^ 15` packets are in the buffer, so that a drain stays within half a window. -/
def FewBuffered (r : Receiver) (_ : Delivery) : Prop := r.session.pending.entries.length < 2 ^ 15

theorem length_buffered_le {s : PTCPSession} {packet : PTCPPacket} :
    (s.buffered packet).entries.length ≤ s.pending.entries.length + 1 := by
  show (s.pending.entries.kerase packet.sent).length + 1 ≤ _
  exact Nat.succ_le_succ (List.kerase_sublist _ _).length_le

/-- A call that leaves the buffer ahead of the offset has jumped over no start. -/
theorem jumpsOverNone_of_pendingAhead (hbodies : BodiesBounded r.session.pending)
    (hlen : d.1.body.len ≤ MAX_BODY) (hfew : FewBuffered r d)
    (hrecv : r.session.recvPacket timeout d.2 d.1 = (ready, s)) (h : PendingAhead s) :
    JumpsOverNone timeout r d := by
  have hbounded := hbodies.buffered hlen
  have hnone {start : U32}
      (hdrains : Drains (r.session.buffered d.1) start ready s.recv s.pending) :
      ¬ JumpsOver (r.session.buffered d.1) start := by
    intro hover
    have hshort : total PTCPPacket.bodyLen ready < 2 ^ 31 := by
      calc total PTCPPacket.bodyLen ready
          ≤ (r.session.buffered d.1).entries.length * MAX_BODY := hdrains.total_le hbounded
        _ ≤ 2 ^ 15 * MAX_BODY := Nat.mul_le_mul_right _ (Nat.le_trans length_buffered_le hfew)
        _ < 2 ^ 31 := by decide
    obtain ⟨key, hkey, hbehind⟩ := hover.left_behind hdrains hbounded hshort
    exact absurd ((h key hkey).symm.trans hbehind) (by decide)
  rcases recvPacket_spec hrecv with ⟨hignores, _⟩ | ⟨hahead, hstay, _⟩ | ⟨hnext, hdrained⟩ |
    ⟨hahead, hskip, start, hstart, hdrained⟩
  · exact ⟨fun hnext => absurd hnext (not_isNext_of_ignores hignores),
      fun hskips => absurd hskips.1 (not_isAhead_of_ignores hignores)⟩
  · exact ⟨fun hnext => absurd hnext.2.1 hahead.2.1,
      fun hskips => absurd (hskips.2.symm.trans hstay) (by decide)⟩
  · exact ⟨fun _ => hnone hdrained.drains, fun hskips => absurd hnext.2.1 hskips.1.2.1⟩
  · refine ⟨fun hnext => absurd hnext.2.1 hahead.2.1, fun _ start' hstart' => ?_⟩
    obtain rfl := Option.some.inj (hstart.symm.trans hstart')
    exact hnone hdrained.drains

end Step

/-! ## Every run -/

/-- Over every sequence of packets whatsoever, in either mode: if no drain jumps over the
start of a buffered packet, then what is buffered stays ahead of the receive offset. With
fewer than `2 ^ 15` packets in the buffer this is the only way to stay ahead. -/
theorem pending_ahead (timeout : Duration) (now : Instant) (sent recv count id rmid : U32)
    (allow : Bool) {deliveries : List Delivery} {r : Receiver}
    (hlen : ∀ d ∈ deliveries, d.1.body.len ≤ MAX_BODY)
    (hrun : Run.run (Receiver.step timeout) deliveries
      (.start ((fromState now sent recv count id rmid).setAllowGapSkip allow) now) = some r) :
    (Run.Along (Receiver.step timeout) (JumpsOverNone timeout) deliveries
      (.start ((fromState now sent recv count id rmid).setAllowGapSkip allow) now) →
        PendingAhead r.session) ∧
    (Run.Along (Receiver.step timeout) FewBuffered deliveries
      (.start ((fromState now sent recv count id rmid).setAllowGapSkip allow) now) →
        ((∀ past t, past <+: deliveries → Run.run (Receiver.step timeout) past
          (.start ((fromState now sent recv count id rmid).setAllowGapSkip allow) now) = some t →
            PendingAhead t.session) ↔
        Run.Along (Receiver.step timeout) (JumpsOverNone timeout) deliveries
          (.start ((fromState now sent recv count id rmid).setAllowGapSkip allow) now))) := by
  generalize hstart : (fromState now sent recv count id rmid).setAllowGapSkip allow = s₀ at hrun ⊢
  have hpending : s₀.pending = ∅ := hstart ▸ rfl
  have hempty : PendingAhead s₀ := fun key hkey => by
    rw [hpending] at hkey
    cases hkey
  have hbounded : BodiesBounded s₀.pending := fun key packet hlookup => by
    rw [hpending] at hlookup
    cases hlookup
  have hbodies : Run.Along (Receiver.step timeout) (fun _ d => d.1.body.len ≤ MAX_BODY) deliveries
      (.start s₀ now) := Run.along_of_forall hlen
  constructor
  · intro hover
    refine (Run.run_invariant_along
      (I := fun r => BodiesBounded r.session.pending ∧ PendingAhead r.session)
      ⟨hbounded, hempty⟩ ?_ (hbodies.and hover) hrun).2
    rintro d r r' ⟨hlen, hover⟩ ⟨hbounded, h⟩ hstep
    obtain ⟨ready, s, hrecv, rfl⟩ := Receiver.step_eq_some hstep
    exact ⟨hbounded.step hlen hrecv, h.step hbounded hlen hover hrecv⟩
  · intro hfew
    refine Run.reached_iff_along (I := fun r => BodiesBounded r.session.pending)
      (G := fun r => PendingAhead r.session) ?_ hbounded hempty (hbodies.and hfew) hrun
    rintro d r r' ⟨hlen, hfew⟩ hbounded h hstep
    obtain ⟨ready, s, hrecv, rfl⟩ := Receiver.step_eq_some hstep
    refine ⟨hbounded.step hlen hrecv, fun h' => ?_, fun hover => ?_⟩
    · exact jumpsOverNone_of_pendingAhead hbounded hlen hfew hrecv h'
    · exact h.step hbounded hlen hover hrecv

def commandAt (sent : U32) : PTCPPacket := ⟨sent, 0, 0, 0, 0, .command [10, 0, 0, 0]⟩

/-- A drain of one packet, with no start inside it, jumps over nothing. -/
theorem not_jumpsOver_of_alone {pending : Pending} {start : U32} {packet : PTCPPacket}
    (hlookup : pending.lookup start = some packet)
    (hinside : ∀ key ∈ pending, (key - start).toNat = 0 ∨ packet.body.len ≤ (key - start).toNat)
    (hend : (pending.erase start).lookup (start + lengthU32 packet.body.len) = none) :
    ¬ JumpsOver pending start := by
  intro hjumps
  cases hjumps with
  | here hlookup' hkey hpos hlt =>
    obtain rfl := Option.some.inj (hlookup.symm.trans hlookup')
    rcases hinside _ hkey with hzero | hle
    · exact absurd hpos (hzero ▸ Nat.lt_irrefl 0)
    · exact absurd hlt (Nat.not_lt.mpr hle)
  | later hlookup' hlater =>
    obtain rfl := Option.some.inj (hlookup.symm.trans hlookup')
    cases hlater with
    | here hnext _ _ _ => exact Option.some_ne_none _ (hnext.symm.trans hend)
    | later hnext _ => exact Option.some_ne_none _ (hnext.symm.trans hend)

/-- The buffer with both of them. -/
def bothCommands : Pending := ((∅ : Pending).insert 8 (commandAt 8)).insert 0 (commandAt 0)

/-- A packet beyond a gap, and one that fills half of it: the second one is drained, and the
first one stays ahead. -/
theorem pending_ahead_gap : ∃ r,
    Run.run (Receiver.step (gapTimeout none)) [(commandAt 8, 7), (commandAt 0, 8)]
      (.start ((fromState 0 0 0 0 0 0).setAllowGapSkip true) 0) = some r ∧
    r.delivered = [commandAt 0] ∧ r.session.pending.entries.length = 1 ∧
    PendingAhead r.session := by
  have hahead := @pending_ahead (gapTimeout none) 0 0 0 0 0 0 true
    [(commandAt 8, 7), (commandAt 0, 8)] _ (by decide) rfl
  refine ⟨_, rfl, rfl, by decide, hahead.1 ⟨⟨?_, ?_⟩, fun t ht => ?_⟩⟩
  · exact fun hnext => absurd hnext.2.1 (by decide)
  · exact fun hskips => absurd hskips.2 (by decide)
  · have hview : (Receiver.step (gapTimeout none)
        (.start ((fromState 0 0 0 0 0 0).setAllowGapSkip true) 0) (commandAt 8, 7)).map (fun t =>
          (t.session.recv, (t.session.buffered (commandAt 0)).entries)) =
        some (0, bothCommands.entries) := by decide +kernel
    rw [ht, Option.map_some, Option.some.injEq, Prod.mk.injEq] at hview
    obtain ⟨hrecv, hbuffered⟩ := hview
    refine ⟨⟨fun _ => ?_, fun hskips => absurd hrecv.symm hskips.1.2.1⟩, fun _ _ => trivial⟩
    rw [hrecv, AList.ext hbuffered]
    refine @not_jumpsOver_of_alone _ _ (commandAt 0) rfl (fun key hkey => ?_) rfl
    rcases (AList.mem_insert _).mp hkey with rfl | hkey
    · exact .inl rfl
    rcases (AList.mem_insert _).mp hkey with rfl | hkey
    · exact .inr (by decide)
    · exact absurd hkey (AList.notMem_empty key)

/-- Segmented otherwise, the bytes before the gap go beyond its end. -/
theorem pending_ahead_overlap : ¬ ∀ (deliveries : List Delivery) (r : Receiver),
    (∀ d ∈ deliveries, d.1.body.len ≤ MAX_BODY) →
    Run.run (Receiver.step (gapTimeout none)) deliveries
      (.start ((fromState 0 0 0 0 0 0).setAllowGapSkip true) 0) = some r →
    PendingAhead r.session := by
  intro h
  have hahead := h [(commandAt 10, 7), (⟨0, 0, 0, 0, 0, .payload ⟨7, [0x24, 0, 0, 0]⟩⟩, 8)] _
    (by decide) rfl
  exact absurd (hahead 10 (by decide)) (by decide)

end DahuaBridge
