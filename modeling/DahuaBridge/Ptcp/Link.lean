import Mathlib.Logic.Function.Basic
import Mathlib.Logic.Relation
import DahuaBridge.Ptcp.Reassembly

/-!
# Two connected sessions

Two strict sessions over a network that may drop, duplicate, delay and reorder
packets. Each node keeps, besides its session, a history of what it sent with the
unwrapped offsets, and the list of what it delivered; no operation reads these.

* `Link.Step`: one send, delivery, loss, duplication or retransmission.
* `Flow`: the invariant of one direction. It joins the sender's window, the
  receiver's reorder buffer and the acknowledgements that the receiver has sent.
* `link_keeps_awaited`: in every reachable state each side has delivered a prefix
  of what the other sent, and the packet it waits for is in the other's window.
-/

namespace DahuaBridge

open Tiling PTCPSession

/-! ## Nodes and links -/

inductive Side where
  | a
  | b
  deriving DecidableEq

def Side.other : Side → Side
  | a => b
  | b => a

/-- A packet that a node sent, with the unwrapped values of its two counters. -/
structure Sent where
  packet : PTCPPacket
  sentOffset : Nat
  recvOffset : Nat

structure Node where
  session : PTCPSession
  history : List Sent
  delivered : List PTCPPacket

/-- The number of body bytes that the node has sent. -/
def Node.sentBytes (node : Node) : Nat :=
  total PTCPPacket.bodyLen (node.history.map Sent.packet)

/-- The packets with non-empty bodies that the node has sent. -/
def Node.stream (node : Node) : List PTCPPacket :=
  (node.history.map Sent.packet).filter fun packet => 0 < packet.bodyLen

structure Link where
  /-- The unwrapped offset at which each side's byte stream starts. -/
  base : Side → Nat
  node : Side → Node
  /-- The packets in flight that a side sent. -/
  wire : Side → List PTCPPacket

namespace Link

/-- The unwrapped value of a side's `sent`. -/
def sentOffset (link : Link) (x : Side) : Nat := link.base x + (link.node x).sentBytes

/-- The unwrapped value of a side's `recv`. -/
def recvOffset (link : Link) (x : Side) : Nat :=
  link.base x.other + total PTCPPacket.bodyLen (link.node x).delivered

/-- Two sessions before any packet. -/
def connect (a b : PTCPSession) : Link where
  base
    | .a => a.sent.toNat
    | .b => b.sent.toNat
  node
    | .a => { session := a, history := [], delivered := [] }
    | .b => { session := b, history := [], delivered := [] }
  wire _ := []

def setNode (link : Link) (x : Side) (node : Node) : Link :=
  { link with node := Function.update link.node x node }

def setWire (link : Link) (x : Side) (packets : List PTCPPacket) : Link :=
  { link with wire := Function.update link.wire x packets }

/-- Side `x` calls `send`. -/
def send (link : Link) (x : Side) (now : Instant) (body : PTCPBody) : Link :=
  let (packet, session) := (link.node x).session.send now body
  let entry : Sent :=
    { packet, sentOffset := link.sentOffset x, recvOffset := link.recvOffset x }
  (link.setNode x { link.node x with session, history := (link.node x).history ++ [entry] }).setWire
    x (packet :: link.wire x)

/-- A packet in flight reaches side `x`, which calls `recv`. -/
def deliver (link : Link) (x : Side) (timeout : Duration) (now : Instant) (packet : PTCPPacket) :
    Link :=
  let (ready, session) := (link.node x).session.recvPacket timeout now packet
  (link.setNode x
    { link.node x with session, delivered := (link.node x).delivered ++ ready }).setWire
    x.other ((link.wire x.other).erase packet)

/-- Side `x` sends its `due_retransmissions` again. -/
def retransmit (link : Link) (x : Side) (now : Instant) : Link :=
  let (packets, session) := (link.node x).session.dueRetransmissions now
  (link.setNode x { link.node x with session }).setWire x (packets ++ link.wire x)

/-- Two unwrapped offsets between which the order on counters can be trusted. -/
def Near (m n : Nat) : Prop := m ≤ n + HALF_WINDOW ∧ n ≤ m + HALF_WINDOW

/-- The packet's unwrapped counters are near the corresponding ones of side `x`. -/
def Deliverable (link : Link) (x : Side) (packet : PTCPPacket) : Prop :=
  ∃ entry ∈ (link.node x.other).history, entry.packet = packet ∧
    Near entry.sentOffset (link.recvOffset x) ∧ Near entry.recvOffset (link.sentOffset x)

inductive Step (link : Link) : Link → Prop
  | send (x : Side) (now : Instant) (body : PTCPBody) :
      (link.node x).session.sentWindow.length < MAX_SENT_WINDOW →
      body.len ≤ MAX_BODY →
      Step link (link.send x now body)
  | deliver (x : Side) (timeout : Duration) (now : Instant) (packet : PTCPPacket) :
      packet ∈ link.wire x.other →
      link.Deliverable x packet →
      Step link (link.deliver x timeout now packet)
  | retransmit (x : Side) (now : Instant) :
      Step link (link.retransmit x now)
  | drop (x : Side) (packet : PTCPPacket) :
      Step link (link.setWire x ((link.wire x).erase packet))
  | duplicate (x : Side) (packet : PTCPPacket) :
      packet ∈ link.wire x →
      Step link (link.setWire x (packet :: link.wire x))

end Link

/-! ## The invariant of one direction -/

/-- From `sender` to `receiver`: the receiver holds the packets `held`, has
delivered the first `n`, and the window starts at packet `k`. -/
structure Flow (base : Nat) (sender receiver : Node) (held : Nat → Prop) (n k : Nat) : Prop where
  stream : Stream base sender.stream
  sent_eq : sender.session.sent = SeqNum.wrap 32 (base + sender.sentBytes)
  assembles : Assembles base sender.stream held n receiver.session.recv receiver.session.pending
  delivered : receiver.delivered = sender.stream.take n
  window : sender.session.sentWindow.map TrackedPacket.packet = sender.stream.drop k
  window_le : k ≤ n
  window_length : sender.session.sentWindow.length ≤ MAX_SENT_WINDOW
  starts : ∀ entry ∈ sender.history, 0 < entry.packet.bodyLen →
    ∃ i, sender.stream[i]? = some entry.packet ∧
      entry.sentOffset = base + startOf sender.stream i
  acks : ∀ entry ∈ receiver.history, entry.packet.recv = SeqNum.wrap 32 entry.recvOffset ∧
    entry.recvOffset ≤ base + startOf sender.stream n
  strict : receiver.session.allowGapSkip = false

section Flow

variable {base : Nat} {sender sender' receiver receiver' : Node} {held : Nat → Prop} {n k : Nat}

theorem Node.sentBytes_eq (node : Node) : node.sentBytes = startOf node.stream node.stream.length := by
  rw [startOf, offset_length, Node.stream, total_filter_pos, Node.sentBytes]

theorem Flow.received_eq (h : Flow base sender receiver held n k) :
    total PTCPPacket.bodyLen receiver.delivered = startOf sender.stream n := by
  rw [h.delivered, startOf, offset]

/-- Only these parts of the receiver matter to the flow. -/
theorem Flow.of_receiver (h : Flow base sender receiver held n k)
    (hrecv : receiver'.session.recv = receiver.session.recv)
    (hpending : receiver'.session.pending = receiver.session.pending)
    (hstrict : receiver'.session.allowGapSkip = receiver.session.allowGapSkip)
    (hdelivered : receiver'.delivered = receiver.delivered)
    (hhistory : ∀ entry ∈ receiver'.history, entry ∈ receiver.history ∨
      entry.packet.recv = SeqNum.wrap 32 entry.recvOffset ∧
        entry.recvOffset ≤ base + startOf sender.stream n) :
    Flow base sender receiver' held n k where
  stream := h.stream
  sent_eq := h.sent_eq
  assembles := by rw [hrecv, hpending]; exact h.assembles
  delivered := hdelivered.trans h.delivered
  window := h.window
  window_le := h.window_le
  window_length := h.window_length
  starts := h.starts
  acks entry hentry := (hhistory entry hentry).elim (h.acks entry) id
  strict := hstrict.trans h.strict

/-- Only these parts of the sender matter to the flow. -/
theorem Flow.of_sender {k' : Nat} (h : Flow base sender receiver held n k)
    (hhistory : sender'.history = sender.history)
    (hsent : sender'.session.sent = sender.session.sent)
    (hwindow : sender'.session.sentWindow.map TrackedPacket.packet = sender.stream.drop k')
    (hk : k' ≤ n) (hlength : sender'.session.sentWindow.length ≤ MAX_SENT_WINDOW) :
    Flow base sender' receiver held n k' := by
  have hstream : sender'.stream = sender.stream := by rw [Node.stream, Node.stream, hhistory]
  have hbytes : sender'.sentBytes = sender.sentBytes := by
    rw [Node.sentBytes, Node.sentBytes, hhistory]
  constructor
  · rw [hstream]; exact h.stream
  · rw [hsent, hbytes]; exact h.sent_eq
  · rw [hstream]; exact h.assembles
  · rw [hstream]; exact h.delivered
  · rw [hstream]; exact hwindow
  · exact hk
  · exact hlength
  · rw [hstream, hhistory]; exact h.starts
  · rw [hstream]; exact h.acks
  · exact h.strict

/-! ### Sending -/

/-- The sender after `send`. -/
def Node.afterSend (node : Node) (now : Instant) (body : PTCPBody) (sentOffset recvOffset : Nat) :
    Node :=
  let (packet, session) := node.session.send now body
  { node with session, history := node.history ++ [{ packet, sentOffset, recvOffset }] }

@[simp] theorem Node.history_afterSend (node : Node) (now : Instant) (body : PTCPBody) (m r : Nat) :
    (node.afterSend now body m r).history =
      node.history ++ [⟨node.session.outgoing body, m, r⟩] := rfl

@[simp] theorem bodyLen_outgoing (s : PTCPSession) (body : PTCPBody) :
    (s.outgoing body).bodyLen = body.len := rfl

theorem Node.stream_afterSend (node : Node) (now : Instant) (body : PTCPBody) (m r : Nat) :
    (node.afterSend now body m r).stream =
      if 0 < body.len then node.stream ++ [node.session.outgoing body] else node.stream := by
  rw [stream, history_afterSend, List.map_append, List.filter_append]
  by_cases hpos : 0 < body.len
  · simp [stream, hpos]
  · simp [stream, hpos]

theorem Node.sentBytes_afterSend (node : Node) (now : Instant) (body : PTCPBody) (m r : Nat) :
    (node.afterSend now body m r).sentBytes = node.sentBytes + body.len := by
  rw [sentBytes, history_afterSend, List.map_append, total_append]
  simp [sentBytes]

theorem Flow.sent_afterSend (h : Flow base sender receiver held n k) (now : Instant) (body : PTCPBody)
    (m r : Nat) : (sender.afterSend now body m r).session.sent =
      SeqNum.wrap 32 (base + (sender.afterSend now body m r).sentBytes) := by
  rw [Node.sentBytes_afterSend, ← Nat.add_assoc, SeqNum.wrap_add, ← h.sent_eq]
  rfl

/-- A packet with a body makes the stream longer, and goes to the end of the window. -/
theorem Flow.send_pos (h : Flow base sender receiver held n k) (now : Instant) {body : PTCPBody}
    (hroom : sender.session.sentWindow.length < MAX_SENT_WINDOW) (hbody : body.len ≤ MAX_BODY)
    (hpos : 0 < body.len) (r : Nat) :
    Flow base (sender.afterSend now body (base + sender.sentBytes) r) receiver held n k := by
  have hsent := h.sent_afterSend now body (base + sender.sentBytes) r
  have hn := h.assembles.frontier.le
  have hstream : (sender.afterSend now body (base + sender.sentBytes) r).stream =
      sender.stream ++ [sender.session.outgoing body] := by
    rw [Node.stream_afterSend, if_pos hpos]
  have hstart : ∀ i, i ≤ sender.stream.length →
      startOf (sender.stream ++ [sender.session.outgoing body]) i = startOf sender.stream i :=
    fun _ => offset_append
  have hwindow : (sender.afterSend now body (base + sender.sentBytes) r).session.sentWindow =
      sender.session.sentWindow ++
        [{ packet := sender.session.outgoing body, lastSent := now, retries := 0 }] := by
    simp only [Node.afterSend, PTCPSession.send, if_pos hpos, track]
    rw [if_neg (Nat.not_le_of_lt hroom)]
  refine ⟨?_, hsent, ?_, ?_, ?_, h.window_le, ?_, ?_, ?_, h.strict⟩
  · rw [hstream]
    have hkey : (sender.session.outgoing body).sent =
        keyOf base sender.stream sender.stream.length := by
      rw [keyOf, ← Node.sentBytes_eq]
      exact h.sent_eq
    exact h.stream.append hkey hpos (Nat.lt_of_le_of_lt hbody (by decide))
  · rw [hstream]
    exact h.assembles.append _
  · rw [hstream, List.take_append_of_le_length hn]
    exact h.delivered
  · rw [hstream, hwindow, List.map_append, h.window,
      List.drop_append_of_le_length (Nat.le_trans h.window_le hn)]
    rfl
  · rw [hwindow, List.length_append]
    exact hroom
  · intro entry hentry hlen
    rw [hstream]
    rcases List.mem_append.mp hentry with hentry | hentry
    · obtain ⟨i, hget, hoffset⟩ := h.starts entry hentry hlen
      have hi := (List.getElem?_eq_some_iff.mp hget).1
      refine ⟨i, ?_, ?_⟩
      · rw [List.getElem?_append_left hi, hget]
      · rw [hoffset, hstart i (Nat.le_of_lt hi)]
    · obtain rfl := List.mem_singleton.mp hentry
      refine ⟨sender.stream.length, ?_, ?_⟩
      · rw [List.getElem?_append_right (Nat.le_refl _), Nat.sub_self]
        rfl
      · rw [hstart _ (Nat.le_refl _), Node.sentBytes_eq]
  · intro entry hentry
    rw [hstream, hstart n hn]
    exact h.acks entry hentry

/-- A packet without a body is remembered nowhere. -/
theorem Flow.send_empty (h : Flow base sender receiver held n k) (now : Instant) {body : PTCPBody}
    (hempty : ¬0 < body.len) (m r : Nat) :
    Flow base (sender.afterSend now body m r) receiver held n k := by
  have hstream : (sender.afterSend now body m r).stream = sender.stream := by
    rw [Node.stream_afterSend, if_neg hempty]
  have hwindow : (sender.afterSend now body m r).session.sentWindow = sender.session.sentWindow := by
    simp only [Node.afterSend, PTCPSession.send, if_neg hempty]
  refine ⟨?_, h.sent_afterSend now body m r, ?_, ?_, ?_, h.window_le, ?_, ?_, ?_, h.strict⟩
  · rw [hstream]
    exact h.stream
  · rw [hstream]
    exact h.assembles
  · rw [hstream]
    exact h.delivered
  · rw [hstream, hwindow]
    exact h.window
  · rw [hwindow]
    exact h.window_length
  · intro entry hentry hlen
    rw [hstream]
    rcases List.mem_append.mp hentry with hentry | hentry
    · exact h.starts entry hentry hlen
    · obtain rfl := List.mem_singleton.mp hentry
      exact absurd hlen hempty
  · rw [hstream]
    exact h.acks

/-- A send keeps the flow. -/
theorem Flow.send (h : Flow base sender receiver held n k) (now : Instant) (body : PTCPBody)
    (hroom : sender.session.sentWindow.length < MAX_SENT_WINDOW) (hbody : body.len ≤ MAX_BODY)
    (r : Nat) :
    Flow base (sender.afterSend now body (base + sender.sentBytes) r) receiver held n k := by
  by_cases hpos : 0 < body.len
  · exact h.send_pos now hroom hbody hpos r
  · exact h.send_empty now hpos _ r

/-! ### Acknowledging -/

/-- `dropWhile` drops a prefix whose elements all pass the test. -/
theorem exists_dropWhile_eq_drop {α : Type*} (test : α → Bool) (l : List α) :
    ∃ d, l.dropWhile test = l.drop d ∧ d ≤ l.length ∧ ∀ i < d, ∀ x, l[i]? = some x → test x = true := by
  induction l with
  | nil => exact ⟨0, rfl, Nat.le_refl 0, fun i hi => absurd hi (Nat.not_lt_zero i)⟩
  | cons y l ih =>
    by_cases hy : test y = true
    · obtain ⟨d, hdrop, hd, htest⟩ := ih
      refine ⟨d + 1, by rw [List.dropWhile_cons_of_pos hy, hdrop, List.drop_succ_cons],
        Nat.succ_le_succ hd, ?_⟩
      intro i hi x hx
      cases i with
      | zero =>
        obtain rfl : y = x := by simpa using hx
        exact hy
      | succ i => exact htest i (Nat.lt_of_succ_lt_succ hi) x (by simpa using hx)
    · exact ⟨0, by rw [List.dropWhile_cons_of_neg hy, List.drop_zero], Nat.zero_le _,
        fun i hi => absurd hi (Nat.not_lt_zero i)⟩

/-- All packets of the window together are shorter than half a window. -/
theorem Flow.sentBytes_le (h : Flow base sender receiver held n k) {i : Nat} (hi : k ≤ i) :
    sender.sentBytes ≤ startOf sender.stream i + 2048 * 2 ^ 16 := by
  have hsplit : startOf sender.stream i + total PTCPPacket.bodyLen (sender.stream.drop i) =
      sender.sentBytes := by
    rw [sender.sentBytes_eq, startOf, startOf, offset_length, offset_add_total_drop]
  have hrest : total PTCPPacket.bodyLen (sender.stream.drop i) ≤
      (sender.stream.drop i).length * 2 ^ 16 :=
    total_le_mul fun p hp => Nat.le_of_lt (h.stream.lt p (List.mem_of_mem_drop hp))
  have hcount : (sender.stream.drop i).length ≤ MAX_SENT_WINDOW := by
    have hmap := congrArg List.length h.window
    have hlength := h.window_length
    simp only [List.length_map, List.length_drop] at hmap ⊢
    omega
  calc sender.sentBytes
      = startOf sender.stream i + total PTCPPacket.bodyLen (sender.stream.drop i) := hsplit.symm
    _ ≤ startOf sender.stream i + (sender.stream.drop i).length * 2 ^ 16 :=
        Nat.add_le_add_left hrest _
    _ ≤ startOf sender.stream i + 2048 * 2 ^ 16 :=
        Nat.add_le_add_left (Nat.mul_le_mul_right _ hcount) _

/-- An acknowledgement that is at most the receiver's contiguous offset, and not
too far behind what was sent, takes only delivered packets out of the window. -/
theorem Flow.acknowledge (h : Flow base sender receiver held n k) {remote : Nat}
    (hle : remote ≤ base + startOf sender.stream n)
    (hnear : base + sender.sentBytes ≤ remote + HALF_WINDOW) :
    ∃ k', k' ≤ n ∧
      ((sender.session.acknowledgeSent (SeqNum.wrap 32 remote)).sentWindow.map
        TrackedPacket.packet) = sender.stream.drop k' ∧
      (sender.session.acknowledgeSent (SeqNum.wrap 32 remote)).sentWindow.length ≤
        MAX_SENT_WINDOW := by
  obtain ⟨d, hdrop, hd, htest⟩ := exists_dropWhile_eq_drop
    (fun tracked : TrackedPacket => endOf tracked.packet = SeqNum.wrap 32 remote ||
      sequenceAfter (SeqNum.wrap 32 remote) (endOf tracked.packet)) sender.session.sentWindow
  have hwindow : (sender.session.acknowledgeSent (SeqNum.wrap 32 remote)).sentWindow =
      sender.session.sentWindow.drop d := hdrop
  have hlength := h.window_length
  refine ⟨k + d, ?_, ?_, ?_⟩
  · cases d with
    | zero => exact h.window_le
    | succ d =>
      -- the last packet dropped ends at or before the acknowledged offset
      have hlt : d < sender.session.sentWindow.length := hd
      obtain ⟨tracked, htracked⟩ : ∃ tracked, sender.session.sentWindow[d]? = some tracked :=
        ⟨_, List.getElem?_eq_getElem hlt⟩
      have hget : sender.stream[k + d]? = some tracked.packet := by
        rw [← List.getElem?_drop, ← h.window, List.getElem?_map, htracked]
        rfl
      have hcovered := htest d (Nat.lt_succ_self d) tracked htracked
      rw [h.stream.endOf_eq hget, Bool.or_eq_true, decide_eq_true_iff] at hcovered
      have hkd : k + d < sender.stream.length := (List.getElem?_eq_some_iff.mp hget).1
      have htotal := sender.sentBytes_eq
      have hend : startOf sender.stream (k + d + 1) ≤ sender.sentBytes := by
        rw [htotal]
        exact offset_mono hkd
      have hspan := h.sentBytes_le (i := k + d + 1) (Nat.le_add_right k (d + 1))
      have hremote : base + startOf sender.stream n ≤ base + sender.sentBytes := by
        rw [htotal]
        exact Nat.add_le_add_left (offset_mono h.assembles.frontier.le) base
      simp only [HALF_WINDOW] at hnear
      have hbound : base + startOf sender.stream (k + d + 1) ≤ remote := by
        rcases hcovered with heq | hafter
        · exact Nat.le_of_eq (SeqNum.wrap_inj (by omega) (by omega) heq)
        · exact Nat.le_of_lt ((sequenceAfter_key_iff (by omega) (by omega)).mp hafter)
      by_contra hgt
      have hstarts : startOf sender.stream n < startOf sender.stream (k + d + 1) :=
        offset_lt h.stream.pos (by omega) (by omega)
      omega
  · rw [hwindow, List.map_drop, h.window, List.drop_drop]
  · rw [hwindow, List.length_drop]
    omega

/-- Retransmission changes only the times and the retry counts. -/
theorem map_packet_dueRetransmissions (s : PTCPSession) (now : Instant) :
    (s.dueRetransmissions now).2.sentWindow.map TrackedPacket.packet =
      s.sentWindow.map TrackedPacket.packet := by
  simp only [dueRetransmissions, List.map_map]
  refine List.map_congr_left fun tracked _ => ?_
  simp only [Function.comp_apply]
  split <;> rfl

/-! ### Receiving -/

/-- Receiving a packet that the sender sent, from within the window. -/
theorem Flow.receive (h : Flow base sender receiver held n k) {entry : Sent}
    (hentry : entry ∈ sender.history)
    (hnear : Link.Near entry.sentOffset (base + total PTCPPacket.bodyLen receiver.delivered))
    {timeout : Duration} {now : Instant} {ready : List PTCPPacket} {s' : PTCPSession}
    (hrecv : receiver.session.recvPacket timeout now entry.packet = (ready, s')) :
    ∃ held' n', Flow base sender
      { receiver with session := s', delivered := receiver.delivered ++ ready } held' n' k := by
  have hsame := recvPacket_sameSender hrecv
  rcases Nat.eq_zero_or_pos entry.packet.bodyLen with hempty | hpos
  · obtain ⟨rfl, hrecv', hpending'⟩ := recvPacket_empty h.strict hempty hrecv
    exact ⟨held, n, h.of_receiver hrecv' hpending' hsame.allowGapSkip (List.append_nil _)
      fun entry hentry => .inl hentry⟩
  · obtain ⟨i, hget, hoffset⟩ := h.starts entry hentry hpos
    rw [hoffset, h.received_eq] at hnear
    have hwindow : InWindow sender.stream n i := by
      obtain ⟨hfwd, hback⟩ := hnear
      exact ⟨by omega, by omega⟩
    obtain ⟨n', hn, rfl, hassembles⟩ :=
      h.assembles.receive h.stream h.strict hget hwindow hrecv
    refine ⟨_, n', h.stream, h.sent_eq, hassembles, ?_, h.window, Nat.le_trans h.window_le hn,
      h.window_length, h.starts, ?_, hsame.allowGapSkip.trans h.strict⟩
    · have htake : sender.stream.take n = (sender.stream.take n').take n := by
        rw [List.take_take, Nat.min_eq_left hn]
      rw [h.delivered, htake, List.take_append_drop]
    · intro entry hentry
      obtain ⟨hwrap, hle⟩ := h.acks entry hentry
      have hmono : startOf sender.stream n ≤ startOf sender.stream n' := offset_mono hn
      exact ⟨hwrap, Nat.le_trans hle (Nat.add_le_add_left hmono base)⟩

/-! ### What the flow gives -/

/-- The receiver waits for nothing, or the packet it waits for is in the window. -/
theorem Flow.awaited_mem_window (h : Flow base sender receiver held n k) :
    receiver.session.recv = sender.session.sent ∨
      ∃ tracked ∈ sender.session.sentWindow, tracked.packet.sent = receiver.session.recv := by
  rcases Nat.lt_or_eq_of_le h.assembles.frontier.le with hlt | heq
  · right
    have hget : (sender.stream.drop k)[n - k]? = some sender.stream[n] := by
      rw [List.getElem?_drop, Nat.add_sub_cancel' h.window_le, List.getElem?_eq_getElem hlt]
    rw [← h.window] at hget
    obtain ⟨tracked, hmem, hpacket⟩ := List.mem_map.mp (List.mem_of_getElem? hget)
    refine ⟨tracked, hmem, ?_⟩
    rw [hpacket, h.assembles.recv_eq]
    exact h.stream.sent_eq (List.getElem?_eq_getElem hlt)
  · left
    rw [h.assembles.recv_eq, h.sent_eq, keyOf, heq, Node.sentBytes_eq]

end Flow

/-! ## Both directions -/

namespace Side

@[simp] theorem other_other (x : Side) : x.other.other = x := by cases x <;> rfl

@[simp] theorem other_ne (x : Side) : x.other ≠ x := by cases x <;> decide

theorem forall_of_pair {P : Side → Prop} (x : Side) (hx : P x) (hother : P x.other) (z : Side) :
    P z := by
  cases x <;> cases z <;> assumption

end Side

namespace Link

@[simp] theorem node_setNode_self (link : Link) (x : Side) (node : Node) :
    (link.setNode x node).node x = node := Function.update_self ..

@[simp] theorem node_setNode_other (link : Link) (x : Side) (node : Node) :
    (link.setNode x node).node x.other = link.node x.other :=
  Function.update_of_ne x.other_ne ..

@[simp] theorem base_setNode (link : Link) (x : Side) (node : Node) :
    (link.setNode x node).base = link.base := rfl

/-- Each direction keeps its invariant. -/
def Linked (link : Link) : Prop :=
  ∀ x, ∃ held n k, Flow (link.base x) (link.node x) (link.node x.other) held n k

/-- A step that changes one node keeps the invariant if both directions do. -/
theorem Linked.of_node {link : Link} {x : Side} {node : Node} {wire : Side → List PTCPPacket}
    (hfrom : ∃ held n k, Flow (link.base x) node (link.node x.other) held n k)
    (hto : ∃ held n k, Flow (link.base x.other) (link.node x.other) node held n k) :
    Linked { link.setNode x node with wire } := by
  refine Side.forall_of_pair x ?_ ?_
  · simpa only [base_setNode, node_setNode_self, node_setNode_other] using hfrom
  · simpa only [base_setNode, Side.other_other, node_setNode_self, node_setNode_other] using hto

/-- Two strict sessions whose offsets meet, with nothing sent and nothing buffered. -/
structure Fresh (a b : PTCPSession) : Prop where
  strict : a.allowGapSkip = false ∧ b.allowGapSkip = false
  meet : a.sent = b.recv ∧ b.sent = a.recv
  sentWindow : a.sentWindow = [] ∧ b.sentWindow = []
  pending : a.pending = ∅ ∧ b.pending = ∅

theorem Fresh.linked {a b : PTCPSession} (h : Fresh a b) : Linked (connect a b) := by
  have hflow : ∀ s r : PTCPSession, r.allowGapSkip = false → s.sent = r.recv → s.sentWindow = [] →
      r.pending = ∅ →
      Flow s.sent.toNat ⟨s, [], []⟩ ⟨r, [], []⟩ (fun _ => False) 0 0 := by
    intro s r hstrict hsent hwindow hpending
    constructor
    · exact ⟨trivial, by simp [Node.stream], by simp [Node.stream]⟩
    · simp [Node.sentBytes, SeqNum.wrap_toNat]
    · exact assembles_start (by rw [SeqNum.wrap_toNat, hsent]) hpending
    · rfl
    · simp [Node.stream, hwindow]
    · exact Nat.le_refl 0
    · simp [hwindow]
    · simp
    · simp
    · exact hstrict
  intro x
  cases x with
  | a => exact ⟨_, 0, 0, hflow a b h.strict.2 h.meet.1 h.sentWindow.1 h.pending.2⟩
  | b => exact ⟨_, 0, 0, hflow b a h.strict.1 h.meet.2 h.sentWindow.2 h.pending.1⟩

/-- Every step keeps the invariant of both directions. -/
theorem Linked.step {link link' : Link} (h : Linked link) (hstep : Step link link') :
    Linked link' := by
  cases hstep with
  | send x now body hroom hbody =>
    obtain ⟨held, n, k, hfrom⟩ := h x
    obtain ⟨held', n', k', hto⟩ := h x.other
    rw [Side.other_other] at hto
    refine Linked.of_node ⟨held, n, k, hfrom.send now body hroom hbody _⟩
      ⟨held', n', k', hto.of_receiver rfl rfl rfl rfl ?_⟩
    intro entry hentry
    rcases List.mem_append.mp hentry with hentry | hentry
    · exact .inl hentry
    · obtain rfl := List.mem_singleton.mp hentry
      have hoffset : link.recvOffset x = link.base x.other + startOf (link.node x.other).stream n' := by
        rw [recvOffset, hto.received_eq]
      refine .inr ⟨?_, Nat.le_of_eq hoffset⟩
      rw [hoffset]
      exact hto.assembles.recv_eq
  | deliver x timeout now packet _ hdeliverable =>
    obtain ⟨entry, hentry, rfl, hsent, hrecv⟩ := hdeliverable
    obtain ⟨held, n, k, hfrom⟩ := h x
    obtain ⟨held', n', k', hto⟩ := h x.other
    rw [Side.other_other] at hto
    rw [deliver]
    cases hcall : (link.node x).session.recvPacket timeout now entry.packet with | mk ready s' =>
    have hsame := recvPacket_sameSender hcall
    obtain ⟨hwrap, hle⟩ := hfrom.acks entry hentry
    obtain ⟨k₁, hk₁, hwindow, hlength⟩ := hfrom.acknowledge hle hrecv.2
    rw [← hwrap, ← hsame.sentWindow] at hwindow hlength
    obtain ⟨held₁, n₁, hto'⟩ := hto.receive hentry hsent hcall
    exact Linked.of_node ⟨held, n, k₁, hfrom.of_sender rfl hsame.sent hwindow hk₁ hlength⟩
      ⟨held₁, n₁, k', hto'⟩
  | retransmit x now =>
    obtain ⟨held, n, k, hfrom⟩ := h x
    obtain ⟨held', n', k', hto⟩ := h x.other
    rw [Side.other_other] at hto
    refine Linked.of_node ⟨held, n, k, hfrom.of_sender rfl rfl ?_ hfrom.window_le ?_⟩
      ⟨held', n', k', hto.of_receiver rfl rfl rfl rfl fun entry hentry => .inl hentry⟩
    · exact (map_packet_dueRetransmissions _ now).trans hfrom.window
    · exact Nat.le_trans (Nat.le_of_eq (List.length_map _)) hfrom.window_length
  | drop x packet => exact h
  | duplicate x packet _ => exact h

/-- Every packet in flight was sent by its side. -/
def Carried (link : Link) : Prop :=
  ∀ x, ∀ packet ∈ link.wire x, ∃ entry ∈ (link.node x).history, entry.packet = packet

/-- The network and the retransmissions invent no packet. -/
theorem Linked.carried_step {link link' : Link} (h : Linked link) (hcarried : Carried link)
    (hstep : Step link link') : Carried link' := by
  cases hstep with
  | send x now body _ _ =>
    refine Side.forall_of_pair x ?_ ?_
    · intro packet hpacket
      simp only [send, setWire, Function.update_self, node_setNode_self] at hpacket ⊢
      rcases List.mem_cons.mp hpacket with rfl | hpacket
      · exact ⟨_, List.mem_append_right _ (List.mem_singleton_self _), rfl⟩
      · obtain ⟨entry, hentry, hrest⟩ := hcarried x packet hpacket
        exact ⟨entry, List.mem_append_left _ hentry, hrest⟩
    · intro packet hpacket
      simp only [send, setWire, Function.update_of_ne x.other_ne, node_setNode_other] at hpacket ⊢
      exact hcarried x.other packet hpacket
  | deliver x timeout now packet _ _ =>
    refine Side.forall_of_pair x ?_ ?_
    · intro q hq
      simp only [deliver, setWire, Function.update_of_ne x.other_ne.symm, node_setNode_self] at hq ⊢
      exact hcarried x q hq
    · intro q hq
      simp only [deliver, setWire, Function.update_self, node_setNode_other] at hq ⊢
      exact hcarried x.other q (List.mem_of_mem_erase hq)
  | retransmit x now =>
    refine Side.forall_of_pair x ?_ ?_
    · intro packet hpacket
      simp only [retransmit, setWire, Function.update_self, node_setNode_self] at hpacket ⊢
      rcases List.mem_append.mp hpacket with hdue | hpacket
      · -- a retransmitted packet is in the window, so it is in the stream
        obtain ⟨held, n, k, hflow⟩ := h x
        obtain ⟨tracked, htracked, rfl⟩ := List.mem_map.mp hdue
        have hmem : tracked.packet ∈ (link.node x).stream := by
          refine List.mem_of_mem_drop (i := k) ?_
          rw [← hflow.window]
          exact List.mem_map_of_mem (List.mem_of_mem_filter htracked)
        exact List.mem_map.mp (List.mem_of_mem_filter hmem)
      · exact hcarried x packet hpacket
    · intro packet hpacket
      simp only [retransmit, setWire, Function.update_of_ne x.other_ne, node_setNode_other] at hpacket ⊢
      exact hcarried x.other packet hpacket
  | drop x packet =>
    refine Side.forall_of_pair x ?_ ?_
    · intro q hq
      simp only [setWire, Function.update_self] at hq
      exact hcarried x q (List.mem_of_mem_erase hq)
    · intro q hq
      simp only [setWire, Function.update_of_ne x.other_ne] at hq
      exact hcarried x.other q hq
  | duplicate x packet hmem =>
    refine Side.forall_of_pair x ?_ ?_
    · intro q hq
      simp only [setWire, Function.update_self] at hq
      rcases List.mem_cons.mp hq with rfl | hq
      · exact hcarried x q hmem
      · exact hcarried x q hq
    · intro q hq
      simp only [setWire, Function.update_of_ne x.other_ne] at hq
      exact hcarried x.other q hq

/-- Both invariants over a whole run. -/
theorem Fresh.linked_of_reachable {a b : PTCPSession} {link : Link} (hfresh : Fresh a b)
    (h : Relation.ReflTransGen Step (connect a b) link) : Linked link ∧ Carried link := by
  induction h with
  | refl => exact ⟨hfresh.linked, fun x packet hpacket => absurd hpacket List.not_mem_nil⟩
  | tail _ hstep ih => exact ⟨ih.1.step hstep, ih.1.carried_step ih.2 hstep⟩

/-- The bodies that a side has sent, without the empty ones. -/
def sentBodies (link : Link) (x : Side) : List PTCPBody :=
  ((link.node x).history.map fun entry => entry.packet.body).filter fun body => 0 < body.len

/-- The bodies that a side has delivered. -/
def deliveredBodies (link : Link) (x : Side) : List PTCPBody :=
  (link.node x).delivered.map PTCPPacket.body

theorem sentBodies_eq (link : Link) (x : Side) :
    link.sentBodies x = (link.node x).stream.map PTCPPacket.body := by
  rw [sentBodies, Node.stream, List.filter_map, List.filter_map, List.map_map]
  rfl

/-- Over every schedule of sends, deliveries, losses, duplications and
retransmissions, each side has delivered a prefix of the bodies that the other
sent, and either nothing is missing or the packet it waits for is in the other's
window. -/
theorem link_keeps_awaited {a b : PTCPSession} {link : Link} (hfresh : Fresh a b)
    (h : Relation.ReflTransGen Step (connect a b) link) (x : Side) :
    link.deliveredBodies x.other <+: link.sentBodies x ∧
      ((link.node x.other).session.recv = (link.node x).session.sent ∨
        ∃ tracked ∈ (link.node x).session.sentWindow,
          tracked.packet.sent = (link.node x.other).session.recv) := by
  obtain ⟨held, n, k, hflow⟩ := (hfresh.linked_of_reachable h).1 x
  refine ⟨?_, hflow.awaited_mem_window⟩
  rw [deliveredBodies, sentBodies_eq, hflow.delivered]
  exact (List.take_prefix n _).map PTCPPacket.body

/-- A strict session that starts from zero. -/
def strictSession : PTCPSession := (PTCPSession.new 0).setAllowGapSkip false

/-- Side `a` has sent two packets. -/
def twoSent : Link := ((connect strictSession strictSession).send .a 0 .sync).send .a 1 .heartbeat

/-- The second of them. -/
def secondPacket : PTCPPacket := ((strictSession.send 0 .sync).2.send 1 .heartbeat).1

/-- It overtakes the first: `b` has nothing to deliver, and what it waits for is
in the window of `a`. -/
theorem link_keeps_awaited_overtaken :
    let link := twoSent.deliver .b 0 2 secondPacket
    link.deliveredBodies .b <+: link.sentBodies .a ∧
      ((link.node .b).session.recv = (link.node .a).session.sent ∨
        ∃ tracked ∈ (link.node .a).session.sentWindow,
          tracked.packet.sent = (link.node .b).session.recv) := by
  have hfresh : Fresh strictSession strictSession :=
    ⟨⟨rfl, rfl⟩, ⟨rfl, rfl⟩, ⟨rfl, rfl⟩, ⟨rfl, rfl⟩⟩
  have hsent : Relation.ReflTransGen Step (connect strictSession strictSession) twoSent :=
    (Relation.ReflTransGen.single (.send .a 0 .sync (by decide) (by decide))).tail
      (.send .a 1 .heartbeat (by decide) (by decide))
  have hdeliverable : twoSent.Deliverable .b secondPacket :=
    ⟨_, List.mem_cons_of_mem _ List.mem_cons_self, rfl, ⟨by decide, by decide⟩,
      ⟨by decide, by decide⟩⟩
  exact link_keeps_awaited hfresh
    (hsent.tail (.deliver .b 0 2 secondPacket (by decide) hdeliverable)) .a

end Link

end DahuaBridge
