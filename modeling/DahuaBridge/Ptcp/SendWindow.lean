import DahuaBridge.Lib.Cutoff
import DahuaBridge.Ptcp.Calls
import DahuaBridge.Ptcp.Reassembly

/-!
# The send window

What an observer who sees every call knows about each non-empty packet that `send`
returned: when it was transmitted, and which acknowledgements came after it. No code reads
these notes. The send window is compared with them.

* `Sender`: a session with the notes, `Sender.awaiting` the packets that the window should
  hold.
* `Tracked`: the invariant. The window is `awaiting`, each packet with the instant of its
  last transmission and the number of its repetitions.
* `send_window_exact`: the window and the retransmissions of every run, in which an
  acknowledgement is never beyond what was sent and never half a window behind it.
-/

namespace DahuaBridge

open PTCPSession Cutoff

/-! ## Notes on what was sent -/

/-- A non-empty packet that `send` returned, and what has happened to it since. -/
structure Dispatch where
  packet : PTCPPacket
  /-- The unwrapped offset of its end. -/
  endOffset : Nat
  /-- When `send` returned it. -/
  firstSent : Instant
  /-- When `due_retransmissions` returned it. -/
  repeated : List Instant := []
  /-- The unwrapped acknowledgements that were received after it was sent. -/
  acks : List Int := []

namespace Dispatch

/-- The last transmission. -/
def lastSent (d : Dispatch) : Instant := d.repeated.getLast?.getD d.firstSent

/-- Its end is above every acknowledgement since. -/
def unacknowledged (d : Dispatch) : Bool := d.acks.all fun ack => ack < d.endOffset

/-- It has been repeated less than `MAX_RETRANSMITS` times, and not since `RETRANSMIT_AFTER`. -/
def mayRepeat (now : Instant) (d : Dispatch) : Bool :=
  d.repeated.length < MAX_RETRANSMITS.toNat && d.lastSent + RETRANSMIT_AFTER ≤ now

def acknowledge (ack : Int) (d : Dispatch) : Dispatch := { d with acks := d.acks ++ [ack] }

def again (now : Instant) (d : Dispatch) : Dispatch := { d with repeated := d.repeated ++ [now] }

end Dispatch

/-- Notes that the packets `due` were transmitted again. Of equal packets it is the one that
was sent last. -/
def noteDue (now : Instant) (due : List PTCPPacket) : List Dispatch → List Dispatch
  | [] => []
  | d :: later =>
    (if d.packet ∈ due ∧ ∀ d' ∈ later, d'.packet ≠ d.packet then d.again now else d) ::
      noteDue now due later

structure Sender where
  session : PTCPSession
  /-- The unwrapped value of `sent`. -/
  sentOffset : Nat
  /-- The non-empty packets that were sent, in order. -/
  dispatches : List Dispatch := []

namespace Sender

def start (s : PTCPSession) : Sender where
  session := s
  sentOffset := s.sent.toNat

/-- The unwrapped value of the `recv` field of a packet: behind `sent` by the wrapped
distance. -/
def ackOffset (x : Sender) (packet : PTCPPacket) : Int :=
  x.sentOffset - (x.session.sent - packet.recv).toNat

/-- The packets that the window should hold. -/
def awaiting (x : Sender) : List Dispatch :=
  (x.dispatches.filter Dispatch.unacknowledged).rtake MAX_SENT_WINDOW

def step (timeout : Duration) (x : Sender) (call : Call) : Option Sender :=
  let session := call.perform timeout x.session
  match call with
  | .send now body =>
    let sentOffset := x.sentOffset + body.len
    let sent : Dispatch :=
      { packet := (x.session.send now body).1, endOffset := sentOffset, firstSent := now }
    some { session, sentOffset,
           dispatches := x.dispatches ++ if 0 < body.len then [sent] else [] }
  | .recv _ packet =>
    some { x with session, dispatches := x.dispatches.map (.acknowledge (x.ackOffset packet)) }
  | .dueRetransmissions now =>
    let due := (x.session.dueRetransmissions now).1
    some { x with session, dispatches := noteDue now due x.dispatches }
  | _ => some { x with session }

/-- A body fits into a datagram. An acknowledgement is not beyond what was sent, and less
than half a window behind it. -/
def Admits (x : Sender) : Call → Prop
  | .send _ body => body.len ≤ MAX_BODY
  | .recv _ packet => (x.session.sent - packet.recv).toNat < 2 ^ 31
  | _ => True

instance (x : Sender) (call : Call) : Decidable (x.Admits call) := by
  cases call <;> unfold Admits <;> infer_instance

end Sender

/-! ## The invariant -/

/-- How the window keeps a packet. -/
def Dispatch.tracked (d : Dispatch) : TrackedPacket where
  packet := d.packet
  lastSent := d.lastSent
  retries := UInt8.ofNat d.repeated.length

/-- One packet was sent before another: it ends before, and has seen every acknowledgement
that the other has. -/
def Dispatch.Before (d d' : Dispatch) : Prop := d.endOffset < d'.endOffset ∧ d'.acks ⊆ d.acks

/-- The repetitions of a packet: at most `MAX_RETRANSMITS`, at least `RETRANSMIT_AFTER` apart. -/
structure Dispatch.Paced (d : Dispatch) : Prop where
  limit : d.repeated.length ≤ MAX_RETRANSMITS.toNat
  apart : (d.firstSent :: d.repeated).IsChain fun t t' => t + RETRANSMIT_AFTER ≤ t'

/-- The window of a session, in terms of what was seen from outside. -/
structure Tracked (x : Sender) : Prop where
  sent_eq : x.session.sent = SeqNum.wrap 32 x.sentOffset
  ends : ∀ d ∈ x.dispatches, endOf d.packet = SeqNum.wrap 32 d.endOffset
  /-- The packets behind one of them fill the bytes behind it. -/
  spaced : ∀ i d, x.dispatches[i]? = some d → d.endOffset ≤ x.sentOffset ∧
    x.sentOffset ≤ d.endOffset + (x.dispatches.length - 1 - i) * MAX_BODY
  ordered : x.dispatches.Pairwise Dispatch.Before
  window : x.session.sentWindow = x.awaiting.map Dispatch.tracked
  paced : ∀ d ∈ x.dispatches, d.Paced

section Window

variable {x : Sender} {d : Dispatch} {now : Instant}

theorem hasCutoff_unacknowledged {l : List Dispatch} (h : l.Pairwise Dispatch.Before) :
    HasCutoff Dispatch.unacknowledged l := by
  refine h.imp fun {d d'} hbefore hpass => ?_
  simp only [Dispatch.unacknowledged, List.all_eq_true, decide_eq_true_eq] at hpass ⊢
  intro ack hack
  have hlt := hpass ack (hbefore.2 hack)
  have hend := hbefore.1
  exact hlt.trans (Int.ofNat_lt.mpr hend)

theorem Tracked.awaiting_suffix (h : Tracked x) : x.awaiting <:+ x.dispatches :=
  (rtake_suffix _ _).trans (hasCutoff_unacknowledged h.ordered).filter_suffix

theorem length_awaiting_le (x : Sender) : x.awaiting.length ≤ MAX_SENT_WINDOW := length_rtake_le _ _

theorem unacknowledged_of_mem_awaiting (h : d ∈ x.awaiting) : d.unacknowledged = true :=
  List.of_mem_filter ((rtake_suffix _ _).subset h)

/-- What is in the window ends less than half a window behind what was sent. -/
theorem Tracked.near (h : Tracked x) (hd : d ∈ x.awaiting) :
    d.endOffset ≤ x.sentOffset ∧ x.sentOffset - d.endOffset < 2 ^ 31 := by
  obtain ⟨front, hsplit⟩ := h.awaiting_suffix
  obtain ⟨j, hj, hget⟩ := List.mem_iff_getElem.mp hd
  have hindex : x.dispatches[front.length + j]? = some d := by
    rw [← hsplit, List.getElem?_append_right (Nat.le_add_right _ _), Nat.add_sub_cancel_left,
      List.getElem?_eq_getElem hj, hget]
  obtain ⟨hle, hspace⟩ := h.spaced _ _ hindex
  refine ⟨hle, ?_⟩
  have hbehind : x.dispatches.length - 1 - (front.length + j) ≤ 2047 := by
    have hlength := congrArg List.length hsplit
    have hwindow : x.awaiting.length ≤ 2048 := length_awaiting_le x
    rw [List.length_append] at hlength
    omega
  have hbytes := Nat.mul_le_mul_right MAX_BODY hbehind
  have hsmall : 2047 * MAX_BODY < 2 ^ 31 := by decide
  omega

/-- Packets in the window end at different counters. -/
theorem Tracked.nodup (h : Tracked x) : (x.awaiting.map Dispatch.packet).Nodup := by
  have hordered : x.awaiting.Pairwise Dispatch.Before := h.ordered.sublist h.awaiting_suffix.sublist
  refine List.pairwise_map.mpr (hordered.imp_of_mem fun {d d'} hd hd' hbefore heq => ?_)
  have hend := congrArg endOf heq
  rw [h.ends d (h.awaiting_suffix.subset hd), h.ends d' (h.awaiting_suffix.subset hd')] at hend
  have hnear := h.near hd
  have hnear' := h.near hd'
  have hlt := hbefore.1
  have := SeqNum.wrap_inj (by omega) (by omega) hend
  omega

/-! ### Acknowledgements -/

/-- The code's test on wrapped counters is the order of the unwrapped offsets. -/
theorem Tracked.covers_iff (h : Tracked x) (hd : d ∈ x.awaiting) {packet : PTCPPacket}
    (hack : (x.session.sent - packet.recv).toNat < 2 ^ 31) :
    (endOf d.packet = packet.recv || sequenceAfter packet.recv (endOf d.packet)) =
      !decide (x.ackOffset packet < d.endOffset) := by
  obtain ⟨hle, hnear⟩ := h.near hd
  generalize hbehind : (x.session.sent - packet.recv).toNat = behind at hack
  -- both counters, from the end of what was sent
  have hend : endOf d.packet = SeqNum.wrap 32 x.sentOffset -
      SeqNum.wrap 32 (x.sentOffset - d.endOffset) := by
    have hsplit : SeqNum.wrap 32 x.sentOffset =
        SeqNum.wrap 32 d.endOffset + SeqNum.wrap 32 (x.sentOffset - d.endOffset) := by
      rw [← SeqNum.wrap_add, Nat.add_sub_cancel' hle]
    rw [h.ends d (h.awaiting_suffix.subset hd), hsplit, BitVec.add_sub_cancel]
  have hrecv : packet.recv = SeqNum.wrap 32 x.sentOffset - SeqNum.wrap 32 behind := by
    rw [← hbehind, SeqNum.wrap_toNat, ← h.sent_eq]
    bv_omega
  have hdiff : packet.recv - endOf d.packet =
      SeqNum.wrap 32 (x.sentOffset - d.endOffset) - SeqNum.wrap 32 behind := by
    rw [hend, hrecv]
    generalize SeqNum.wrap 32 x.sentOffset = sent
    generalize SeqNum.wrap 32 behind = a
    generalize SeqNum.wrap 32 (x.sentOffset - d.endOffset) = b
    bv_omega
  have hafter : sequenceAfter packet.recv (endOf d.packet) = true ↔
      behind < x.sentOffset - d.endOffset := by
    rw [sequenceAfter, decide_eq_true_iff, SeqNum.After, hdiff]
    exact SeqNum.after_wrap_iff (by omega) (by omega)
  have hequal : endOf d.packet = packet.recv ↔ behind = x.sentOffset - d.endOffset := by
    constructor
    · intro heq
      rw [heq, BitVec.sub_self] at hdiff
      have hsame : SeqNum.wrap 32 behind = SeqNum.wrap 32 (x.sentOffset - d.endOffset) := by
        generalize SeqNum.wrap 32 behind = a at hdiff ⊢
        generalize SeqNum.wrap 32 (x.sentOffset - d.endOffset) = b at hdiff ⊢
        bv_omega
      exact SeqNum.wrap_inj (by omega) (by omega) hsame
    · intro heq
      rw [hend, hrecv, heq]
  have hoffset : x.ackOffset packet < d.endOffset ↔ x.sentOffset - d.endOffset < behind := by
    rw [Sender.ackOffset, hbehind]
    omega
  rw [Bool.eq_iff_iff, Bool.or_eq_true, decide_eq_true_iff, hafter, hequal, Bool.not_eq_true',
    decide_eq_false_iff_not, hoffset]
  omega

/-- An acknowledgement that is seen by every packet. -/
theorem Tracked.acknowledge (h : Tracked x) {packet : PTCPPacket}
    (hack : (x.session.sent - packet.recv).toNat < 2 ^ 31) {session : PTCPSession}
    (hsame : x.session.SameSender session packet) :
    Tracked { x with session,
                     dispatches := x.dispatches.map (.acknowledge (x.ackOffset packet)) } := by
  generalize hoffset : x.ackOffset packet = ack
  -- the packets that it does not cover
  have hunacknowledged (d : Dispatch) : (d.acknowledge ack).unacknowledged =
      (decide (ack < d.endOffset) && d.unacknowledged) := by
    show (d.acks ++ [ack]).all (fun a => decide (a < d.endOffset)) = _
    rw [List.all_append, Bool.and_comm, List.all_cons, List.all_nil, Bool.and_true]
    rfl
  have hcutoff : HasCutoff (fun d : Dispatch => ack < d.endOffset) x.dispatches := by
    refine h.ordered.imp fun {d d'} hbefore hpass => ?_
    have hlt := hbefore.1
    simp only [decide_eq_true_eq] at hpass ⊢
    exact hpass.trans (Int.ofNat_lt.mpr hlt)
  have hawaiting : ((x.dispatches.map (.acknowledge ack)).filter
      Dispatch.unacknowledged).rtake MAX_SENT_WINDOW =
      (x.awaiting.filter fun d => ack < d.endOffset).map (.acknowledge ack) := by
    have hfilter : (x.dispatches.map (.acknowledge ack)).filter Dispatch.unacknowledged =
        ((x.dispatches.filter Dispatch.unacknowledged).filter fun d => ack < d.endOffset).map
          (.acknowledge ack) := by
      rw [List.filter_map, List.filter_filter]
      congr 1
      exact List.filter_congr fun d _ => hunacknowledged d
    have hsuffix := (hasCutoff_unacknowledged h.ordered).filter_suffix
    rw [hfilter, rtake_map, (hcutoff.suffix hsuffix).rtake_filter]
    rfl
  have hacknowledged : ∀ d ∈ x.dispatches.map (.acknowledge ack), ∃ d₀ ∈ x.dispatches,
      d₀.acknowledge ack = d := fun d hd => List.mem_map.mp hd
  constructor
  · exact hsame.sent.trans h.sent_eq
  · intro d hd
    obtain ⟨d₀, hd₀, rfl⟩ := hacknowledged d hd
    exact h.ends d₀ hd₀
  · intro i d hd
    rw [List.getElem?_map] at hd
    obtain ⟨d₀, hd₀, rfl⟩ := Option.map_eq_some_iff.mp hd
    rw [List.length_map]
    exact h.spaced i d₀ hd₀
  · refine List.pairwise_map.mpr (h.ordered.imp fun {d d'} hbefore => ⟨hbefore.1, ?_⟩)
    exact List.append_subset.mpr ⟨List.Subset.trans hbefore.2 (List.subset_append_left _ _),
      List.subset_append_right _ _⟩
  · have hwindow : session.sentWindow = (x.awaiting.map Dispatch.tracked).dropWhile
        fun tracked => endOf tracked.packet = packet.recv ||
          sequenceAfter packet.recv (endOf tracked.packet) := by
      rw [hsame.sentWindow, ← h.window]
      rfl
    have hdrop : x.awaiting.dropWhile (fun d => endOf d.packet = packet.recv ||
        sequenceAfter packet.recv (endOf d.packet)) = x.awaiting.filter fun d => ack < d.endOffset :=
      (hcutoff.suffix h.awaiting_suffix).dropWhile_eq_filter fun d hd => hoffset ▸ h.covers_iff hd hack
    show session.sentWindow = (List.rtake _ _).map Dispatch.tracked
    rw [hwindow, hawaiting, List.map_map, List.dropWhile_map]
    exact congrArg (List.map Dispatch.tracked) hdrop
  · intro d hd
    obtain ⟨d₀, hd₀, rfl⟩ := hacknowledged d hd
    exact ⟨(h.paced d₀ hd₀).limit, (h.paced d₀ hd₀).apart⟩

/-! ### Sending -/

/-- A packet with a body is the last of the window. -/
theorem Tracked.send (h : Tracked x) (now : Instant) {body : PTCPBody} (hpos : 0 < body.len)
    (hbody : body.len ≤ MAX_BODY) :
    Tracked { session := (x.session.send now body).2, sentOffset := x.sentOffset + body.len,
              dispatches := x.dispatches ++ [{ packet := (x.session.send now body).1,
                                               endOffset := x.sentOffset + body.len,
                                               firstSent := now }] } := by
  have hsent : x.session.sent + lengthU32 body.len = SeqNum.wrap 32 (x.sentOffset + body.len) := by
    rw [h.sent_eq, SeqNum.wrap_add]
    rfl
  constructor
  · exact hsent
  · intro d hd
    rcases List.mem_append.mp hd with hd | hd
    · exact h.ends d hd
    · obtain rfl := List.mem_singleton.mp hd
      exact hsent
  · intro i d hd
    rw [List.length_append, List.length_singleton]
    by_cases hi : i < x.dispatches.length
    · rw [List.getElem?_append_left hi] at hd
      obtain ⟨hle, hspace⟩ := h.spaced i d hd
      have hbehind : x.dispatches.length + 1 - 1 - i = (x.dispatches.length - 1 - i) + 1 := by omega
      refine ⟨Nat.le_trans hle (Nat.le_add_right _ _), ?_⟩
      rw [hbehind, Nat.succ_mul, ← Nat.add_assoc]
      exact Nat.add_le_add hspace hbody
    · rw [List.getElem?_append_right (Nat.not_lt.mp hi)] at hd
      obtain rfl := List.mem_singleton.mp (List.mem_of_getElem? hd)
      exact ⟨Nat.le_refl _, Nat.le_add_right _ _⟩
  · refine List.pairwise_append.mpr ⟨h.ordered, List.pairwise_singleton _ _, fun d hd d' hd' => ?_⟩
    obtain rfl := List.mem_singleton.mp hd'
    obtain ⟨i, hi⟩ := List.mem_iff_getElem?.mp hd
    have hle := (h.spaced i d hi).1
    exact ⟨Nat.lt_of_le_of_lt hle (Nat.lt_add_of_pos_right hpos), List.nil_subset _⟩
  · have htrack : (x.session.send now body).2.sentWindow =
        track x.session.sentWindow now (x.session.send now body).1 := if_pos hpos
    show (x.session.send now body).2.sentWindow =
      ((List.filter _ (x.dispatches ++ [_])).rtake MAX_SENT_WINDOW).map Dispatch.tracked
    rw [htrack, track, h.window, List.filter_append, List.filter_cons_of_pos rfl, List.filter_nil,
      rtake_concat (by decide), List.map_append, List.length_map]
    show _ = (if MAX_SENT_WINDOW ≤ x.awaiting.length then x.awaiting.drop 1 else x.awaiting).map
      Dispatch.tracked ++ _
    split
    · rw [List.map_drop]
      rfl
    · rfl
  · intro d hd
    rcases List.mem_append.mp hd with hd | hd
    · exact h.paced d hd
    · obtain rfl := List.mem_singleton.mp hd
      exact ⟨Nat.zero_le _, .singleton _⟩

/-- A packet without a body is not tracked. -/
theorem Tracked.send_empty (h : Tracked x) (now : Instant) {body : PTCPBody}
    (hempty : ¬0 < body.len) :
    Tracked { x with session := (x.session.send now body).2,
                     sentOffset := x.sentOffset + body.len } := by
  have hzero : body.len = 0 := Nat.eq_zero_of_not_pos hempty
  have hsent : (x.session.send now body).2.sent = x.session.sent := by
    show x.session.sent + lengthU32 body.len = x.session.sent
    rw [hzero]
    exact BitVec.add_zero _
  have hwindow : (x.session.send now body).2.sentWindow = x.session.sentWindow := if_neg hempty
  rw [hzero]
  exact ⟨hsent.trans h.sent_eq, h.ends, h.spaced, h.ordered, hwindow.trans h.window, h.paced⟩

/-! ### Retransmission -/

theorem lastSent_again (d : Dispatch) (now : Instant) : (d.again now).lastSent = now := by
  simp [Dispatch.lastSent, Dispatch.again]

theorem tracked_again (d : Dispatch) (now : Instant) : (d.again now).tracked =
    { d.tracked with lastSent := now, retries := d.tracked.retries + 1 } := by
  have hretries : UInt8.ofNat (d.again now).repeated.length =
      UInt8.ofNat d.repeated.length + 1 := by
    simp [Dispatch.again]
  rw [Dispatch.tracked, lastSent_again, hretries]
  rfl

/-- The retry counter does not wrap. -/
theorem Dispatch.Paced.retries_toNat (h : d.Paced) : d.tracked.retries.toNat = d.repeated.length := by
  have hlimit : d.repeated.length ≤ 50 := h.limit
  show d.repeated.length % 256 = d.repeated.length
  exact Nat.mod_eq_of_lt (Nat.lt_of_le_of_lt hlimit (by decide))

theorem Dispatch.Paced.isDue_eq (h : d.Paced) : isDue now d.tracked = d.mayRepeat now := by
  have hretries : d.tracked.retries < MAX_RETRANSMITS ↔
      d.repeated.length < MAX_RETRANSMITS.toNat := by
    rw [UInt8.lt_iff_toNat_lt, h.retries_toNat]
  have helapsed : RETRANSMIT_AFTER ≤ d.lastSent.elapsed now ↔ d.lastSent + RETRANSMIT_AFTER ≤ now := by
    have hsub {wait last now : Nat} (hpos : 0 < wait) : wait ≤ now - last ↔ last + wait ≤ now := by
      omega
    exact hsub (by decide)
  exact congrArg₂ (· && ·) (decide_eq_decide.mpr hretries) (decide_eq_decide.mpr helapsed)

theorem Dispatch.Paced.again (h : d.Paced) (hmay : d.mayRepeat now = true) : (d.again now).Paced := by
  obtain ⟨hlimit, hlast⟩ := Bool.and_eq_true_iff.mp hmay
  rw [decide_eq_true_iff] at hlimit hlast
  refine ⟨?_, ?_⟩
  · rw [Dispatch.again, List.length_append]
    exact hlimit
  · show ((d.firstSent :: d.repeated) ++ [now]).IsChain _
    refine h.apart.append (.singleton _) fun t ht t' ht' => ?_
    obtain rfl : now = t' := Option.some.inj ht'
    have hlastSent : d.lastSent = t := by
      rw [List.getLast?_cons] at ht
      exact Option.some.inj ht
    exact hlastSent ▸ hlast

/-- If the packets are of a part at the end, where no two are equal, then the notes are
about that part. -/
theorem noteDue_append {due : List PTCPPacket} {front last : List Dispatch}
    (hdue : ∀ p ∈ due, ∃ d ∈ last, d.packet = p) (hnodup : (last.map Dispatch.packet).Nodup) :
    noteDue now due (front ++ last) =
      front ++ last.map fun d => if d.packet ∈ due then d.again now else d := by
  induction front with
  | nil =>
    clear hdue
    induction last with
    | nil => rfl
    | cons d last ih =>
      obtain ⟨hd, hnodup⟩ := List.nodup_cons.mp hnodup
      have hlater : ∀ d' ∈ last, d'.packet ≠ d.packet := fun d' hd' heq =>
        hd (List.mem_map.mpr ⟨d', hd', heq⟩)
      have ih := ih hnodup
      rw [List.nil_append] at ih ⊢
      have hiff : (d.packet ∈ due ∧ ∀ d' ∈ last, d'.packet ≠ d.packet) ↔ d.packet ∈ due :=
        and_iff_left hlater
      rw [noteDue, ih, List.map_cons]
      simp only [hiff, List.nil_append]
  | cons d front ih =>
    have hlater : ¬(d.packet ∈ due ∧ ∀ d' ∈ front ++ last, d'.packet ≠ d.packet) := by
      rintro ⟨hmem, hnone⟩
      obtain ⟨d', hd', heq⟩ := hdue d.packet hmem
      exact hnone d' (List.mem_append_right _ hd') heq
    rw [List.cons_append, noteDue, if_neg hlater, ih]
    rfl

/-- `due_retransmissions` returns the packets of the window that may be repeated. -/
theorem Tracked.due_eq (h : Tracked x) (now : Instant) :
    (x.session.dueRetransmissions now).1 =
      (x.awaiting.filter (Dispatch.mayRepeat now)).map Dispatch.packet := by
  show (x.session.sentWindow.filter (isDue now)).map TrackedPacket.packet = _
  rw [h.window, List.filter_map, List.map_map]
  have hfilter : x.awaiting.filter (isDue now ∘ Dispatch.tracked) =
      x.awaiting.filter (Dispatch.mayRepeat now) :=
    List.filter_congr fun d hd => (h.paced d (h.awaiting_suffix.subset hd)).isDue_eq
  rw [hfilter]
  rfl

/-- The notes on a packet of the window after `due_retransmissions`. -/
def Dispatch.afterDue (now : Instant) (d : Dispatch) : Dispatch :=
  if d.mayRepeat now then d.again now else d

/-- What the observer knows of a packet besides its transmissions. -/
def Dispatch.plain (d : Dispatch) : PTCPPacket × Nat × List Int := (d.packet, d.endOffset, d.acks)

theorem plain_afterDue (now : Instant) (d : Dispatch) : (d.afterDue now).plain = d.plain := by
  unfold Dispatch.afterDue
  split <;> rfl

theorem Dispatch.Paced.afterDue (h : d.Paced) (now : Instant) : (d.afterDue now).Paced := by
  unfold Dispatch.afterDue
  split
  · next hmay => exact h.again hmay
  · exact h

theorem Dispatch.Paced.tracked_afterDue (h : d.Paced) (now : Instant) : (d.afterDue now).tracked =
    if isDue now d.tracked then
      { d.tracked with lastSent := now, retries := d.tracked.retries + 1 }
    else d.tracked := by
  rw [h.isDue_eq, Dispatch.afterDue]
  split
  · exact tracked_again d now
  · rfl

/-- The notes that are made on a call of `due_retransmissions` are about the window. -/
theorem Tracked.noteDue_eq (h : Tracked x) (now : Instant) {front : List Dispatch}
    (hsplit : front ++ x.awaiting = x.dispatches) :
    noteDue now (x.session.dueRetransmissions now).1 x.dispatches =
      front ++ x.awaiting.map (.afterDue now) := by
  have hdue : ∀ p ∈ (x.session.dueRetransmissions now).1, ∃ d ∈ x.awaiting, d.packet = p := by
    intro p hp
    rw [h.due_eq] at hp
    obtain ⟨d, hd, rfl⟩ := List.mem_map.mp hp
    exact ⟨d, List.mem_of_mem_filter hd, rfl⟩
  rw [← hsplit, noteDue_append hdue h.nodup]
  refine congrArg (front ++ ·) (List.map_congr_left fun d hd => ?_)
  have hiff : d.packet ∈ (x.session.dueRetransmissions now).1 ↔ d.mayRepeat now = true := by
    rw [h.due_eq]
    constructor
    · intro hmem
      obtain ⟨d', hd', heq⟩ := List.mem_map.mp hmem
      obtain ⟨hd', hmay⟩ := List.mem_filter.mp hd'
      exact List.inj_on_of_nodup_map h.nodup hd' hd heq ▸ hmay
    · intro hmay
      exact List.mem_map.mpr ⟨d, List.mem_filter.mpr ⟨hd, hmay⟩, rfl⟩
  unfold Dispatch.afterDue
  exact if_congr hiff rfl rfl

theorem unacknowledged_afterDue (now : Instant) (d : Dispatch) :
    (d.afterDue now).unacknowledged = d.unacknowledged := by
  unfold Dispatch.afterDue
  split <;> rfl

/-- The same packets are in the window after `due_retransmissions`. -/
theorem awaiting_afterDue (now : Instant) {front : List Dispatch}
    (hsplit : front ++ x.awaiting = x.dispatches) :
    ((front ++ x.awaiting.map (Dispatch.afterDue now)).filter Dispatch.unacknowledged).rtake
      MAX_SENT_WINDOW = x.awaiting.map (Dispatch.afterDue now) := by
  have hall : ∀ d ∈ x.awaiting.map (Dispatch.afterDue now), d.unacknowledged = true := by
    intro d hd
    obtain ⟨d₀, hd₀, rfl⟩ := List.mem_map.mp hd
    exact (unacknowledged_afterDue now d₀).trans (unacknowledged_of_mem_awaiting hd₀)
  have hold : (front.filter Dispatch.unacknowledged ++ x.awaiting).rtake MAX_SENT_WINDOW =
      x.awaiting := by
    have hself : x.awaiting.filter Dispatch.unacknowledged = x.awaiting :=
      List.filter_eq_self.mpr fun d => unacknowledged_of_mem_awaiting
    conv_lhs => rw [← hself, ← List.filter_append, hsplit]
    rfl
  rw [List.filter_append, List.filter_eq_self.mpr hall]
  exact rtake_append_of_length hold (List.length_map _)

theorem Tracked.retransmit (h : Tracked x) (now : Instant) :
    Tracked { x with session := (x.session.dueRetransmissions now).2,
                     dispatches := noteDue now (x.session.dueRetransmissions now).1 x.dispatches } := by
  obtain ⟨front, hsplit⟩ := h.awaiting_suffix
  have hnotes := h.noteDue_eq now hsplit
  generalize noteDue now (x.session.dueRetransmissions now).1 x.dispatches = dispatches at hnotes
  have hplain : dispatches.map Dispatch.plain = x.dispatches.map Dispatch.plain := by
    rw [hnotes, ← hsplit, List.map_append, List.map_append, List.map_map]
    exact congrArg (front.map Dispatch.plain ++ ·)
      (List.map_congr_left fun d _ => plain_afterDue now d)
  constructor
  · exact h.sent_eq
  · intro d hd
    have hmem : d.plain ∈ x.dispatches.map Dispatch.plain := hplain ▸ List.mem_map_of_mem hd
    obtain ⟨d₀, hd₀, heq⟩ := List.mem_map.mp hmem
    obtain ⟨hpacket, hend, _⟩ : d₀.packet = d.packet ∧ d₀.endOffset = d.endOffset ∧ _ := by
      simpa [Dispatch.plain] using heq
    rw [← hpacket, ← hend]
    exact h.ends d₀ hd₀
  · intro i d hd
    have hget : (dispatches.map Dispatch.plain)[i]? = some d.plain := by
      rw [List.getElem?_map, hd]
      rfl
    rw [hplain, List.getElem?_map] at hget
    obtain ⟨d₀, hd₀, heq⟩ := Option.map_eq_some_iff.mp hget
    have hend : d₀.endOffset = d.endOffset := congrArg (fun plain => plain.2.1) heq
    have hlength : dispatches.length = x.dispatches.length := by
      simpa using congrArg List.length hplain
    rw [← hend, hlength]
    exact h.spaced i d₀ hd₀
  · have hordered : (dispatches.map Dispatch.plain).Pairwise
        fun p p' => p.2.1 < p'.2.1 ∧ p'.2.2 ⊆ p.2.2 := hplain ▸ List.pairwise_map.mpr h.ordered
    have hordered' := List.pairwise_map.mp hordered
    exact hordered'
  · have hawaiting : (dispatches.filter Dispatch.unacknowledged).rtake MAX_SENT_WINDOW =
        x.awaiting.map (.afterDue now) := by
      rw [hnotes]
      exact awaiting_afterDue now hsplit
    show (x.session.sentWindow.map _) = (List.rtake _ _).map Dispatch.tracked
    rw [hawaiting, h.window, List.map_map, List.map_map]
    refine List.map_congr_left fun d hd => ?_
    exact ((h.paced d (h.awaiting_suffix.subset hd)).tracked_afterDue now).symm
  · intro d hd
    rw [hnotes] at hd
    rcases List.mem_append.mp hd with hd | hd
    · exact h.paced d (hsplit ▸ List.mem_append_left _ hd)
    · obtain ⟨d₀, hd₀, rfl⟩ := List.mem_map.mp hd
      exact (h.paced d₀ (h.awaiting_suffix.subset hd₀)).afterDue now

end Window

/-! ## Runs -/

theorem tracked_start (s : PTCPSession) (hwindow : s.sentWindow = []) : Tracked (.start s) where
  sent_eq := (SeqNum.wrap_toNat s.sent).symm
  ends d hd := by cases hd
  spaced i d hd := by cases hd
  ordered := .nil
  window := by
    have hnone : (Sender.start s).awaiting = [] := List.rtake_nil _
    rw [hnone]
    exact hwindow
  paced d hd := by cases hd

/-- Every call that is admitted keeps the window as the notes say. -/
theorem Tracked.step {timeout : Duration} {x x' : Sender} {call : Call} (h : Tracked x)
    (hadmits : x.Admits call) (hstep : x.step timeout call = some x') : Tracked x' := by
  cases call with
  | send now body =>
    obtain rfl := Option.some.inj hstep
    by_cases hpos : 0 < body.len
    · rw [if_pos hpos]
      exact h.send now hpos hadmits
    · rw [if_neg hpos, List.append_nil]
      exact h.send_empty now hpos
  | recv now packet =>
    obtain rfl := Option.some.inj hstep
    exact h.acknowledge hadmits (recvPacket_sameSender (Prod.eta _).symm)
  | dueRetransmissions now =>
    obtain rfl := Option.some.inj hstep
    exact h.retransmit now
  | hasRetransmissionStall now =>
    obtain rfl := Option.some.inj hstep
    exact h
  | setAllowGapSkip allow =>
    obtain rfl := Option.some.inj hstep
    exact ⟨h.sent_eq, h.ends, h.spaced, h.ordered, h.window, h.paced⟩

/-- In every run whose acknowledgements are not beyond what was sent, and less than half a
window behind it: the window holds, in order and once each, the last `MAX_SENT_WINDOW` of the
packets that end above every acknowledgement since; `due_retransmissions` returns those of
them that are due; no packet is repeated more than `MAX_RETRANSMITS` times or too soon, and
its retry counter is the number of its repetitions. -/
theorem send_window_exact {timeout : Duration} {now₀ : Instant} {sent recv count id rmid : U32}
    {calls : List Call} {x : Sender}
    (hadmits : Run.Along (Sender.step timeout) Sender.Admits calls
      (.start (.fromState now₀ sent recv count id rmid)))
    (hrun : Run.run (Sender.step timeout) calls
      (.start (.fromState now₀ sent recv count id rmid)) = some x) :
    x.session.sentWindow.map TrackedPacket.packet = x.awaiting.map Dispatch.packet ∧
    (x.session.sentWindow.map TrackedPacket.packet).Nodup ∧
    (∀ now, (x.session.dueRetransmissions now).1 =
      (x.awaiting.filter (Dispatch.mayRepeat now)).map Dispatch.packet) ∧
    (∀ d ∈ x.dispatches, d.Paced) ∧
    x.session.sentWindow.map (fun tracked => tracked.retries.toNat) =
      x.awaiting.map fun d => d.repeated.length := by
  have htracked : Tracked x := Run.run_invariant_along (tracked_start _ rfl)
    (fun call t t' hadmits ht hstep => ht.step hadmits hstep) hadmits hrun
  have hpackets : x.session.sentWindow.map TrackedPacket.packet =
      x.awaiting.map Dispatch.packet := by
    rw [htracked.window, List.map_map]
    rfl
  refine ⟨hpackets, ?_, htracked.due_eq, htracked.paced, ?_⟩
  · rw [hpackets]
    exact htracked.nodup
  · rw [htracked.window, List.map_map]
    exact List.map_congr_left fun d hd =>
      (htracked.paced d (htracked.awaiting_suffix.subset hd)).retries_toNat

/-- Two packets, one repetition of both, and an acknowledgement of the first. -/
theorem send_window_exact_two :
    ∃ x, Run.run (Sender.step 0) [.send 0 .heartbeat, .send 0 (.command [1, 2]),
        .dueRetransmissions RETRANSMIT_AFTER, .recv RETRANSMIT_AFTER ⟨0, 12, 0, 0, 0, .empty⟩]
        (.start (.fromState 0 0 0 0 0 0)) = some x ∧
      x.session.sentWindow.map (fun tracked => tracked.retries.toNat) = [1] ∧
      x.awaiting.map (fun d => d.repeated.length) = [1] ∧
      (∀ d ∈ x.dispatches, d.Paced) := by
  have hrun : Run.run (Sender.step 0) [.send 0 .heartbeat, .send 0 (.command [1, 2]),
      .dueRetransmissions RETRANSMIT_AFTER, .recv RETRANSMIT_AFTER ⟨0, 12, 0, 0, 0, .empty⟩]
      (.start (.fromState 0 0 0 0 0 0)) = some _ := rfl
  obtain ⟨_, _, _, hpaced, hretries⟩ := send_window_exact (by decide) hrun
  exact ⟨_, hrun, rfl, hretries.symm, hpaced⟩

end DahuaBridge
