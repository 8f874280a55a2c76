import DahuaBridge.Ptcp.Link

/-!
# Recovery of a link

Two connected sessions whose packets were lost need no more than the packets that are still in
the windows. Once each of these has arrived, in whatever order and with whatever else going on,
the other side has delivered all that was sent before (`delivered_of_arrived`). And no state is
a dead end: one round of retransmissions and one acknowledgement a side complete both streams
and empty both windows (`link_recovers`).

* `Flow.step`: in any step the stream of a sender only grows, and its receiver forgets nothing.
* `Repairable`: what a round needs. The retries are not used up, and no packet in the window
  carries an acknowledgement that is half a window old.
-/

namespace DahuaBridge

open Tiling PTCPSession

section Flow

variable {base : Nat} {sender receiver : Node} {held : Nat → Prop} {n k i : Nat}
  {packet : PTCPPacket} {timeout : Duration} {now : Instant} {ready : List PTCPPacket}
  {s' : PTCPSession}

/-- Receiving packet `i` of the stream, from within the window. -/
theorem Flow.receive_at (h : Flow base sender receiver held n k)
    (hget : sender.stream[i]? = some packet) (hwindow : InWindow sender.stream n i)
    (hrecv : receiver.session.recvPacket timeout now packet = (ready, s')) :
    ∃ n', n ≤ n' ∧ Flow base sender
      { receiver with session := s', delivered := receiver.delivered ++ ready }
      (fun j => held j ∨ j = i) n' k := by
  obtain ⟨n', hn, rfl, hassembles⟩ := h.assembles.receive h.stream h.strict hget hwindow hrecv
  refine ⟨n', hn, h.stream, h.sent_eq, hassembles, ?_, h.window, Nat.le_trans h.window_le hn,
    h.window_length, h.starts, ?_, (recvPacket_sameSender hrecv).allowGapSkip.trans h.strict⟩
  · have htake : sender.stream.take n = (sender.stream.take n').take n := by
      rw [List.take_take, Nat.min_eq_left hn]
    rw [h.delivered, htake, List.take_append_drop]
  · intro entry hentry
    obtain ⟨hwrap, hle⟩ := h.acks entry hentry
    exact ⟨hwrap, Nat.le_trans hle (Nat.add_le_add_left (offset_mono hn) base)⟩

/-- The packets of the window and the receive offset are close together. -/
theorem Flow.span (h : Flow base sender receiver held n k) :
    startOf sender.stream k ≤ startOf sender.stream n ∧
      startOf sender.stream n ≤ sender.sentBytes ∧
      sender.sentBytes ≤ startOf sender.stream k + 2048 * 2 ^ 16 := by
  refine ⟨offset_mono h.window_le, ?_, h.sentBytes_le (Nat.le_refl k)⟩
  rw [sender.sentBytes_eq]
  exact offset_mono h.assembles.frontier.le

/-- A packet that arrives is held from then on, if it is still in the window. -/
theorem Flow.deliver (h : Flow base sender receiver held n k) {entry : Sent}
    (hentry : entry ∈ sender.history)
    (hnear : Link.Near entry.sentOffset (base + total PTCPPacket.bodyLen receiver.delivered))
    (hrecv : receiver.session.recvPacket timeout now entry.packet = (ready, s')) :
    ∃ held' n', n ≤ n' ∧ Flow base sender
      { receiver with session := s', delivered := receiver.delivered ++ ready } held' n' k ∧
      (∀ j, held j → held' j) ∧
      ∀ j, k ≤ j → sender.stream[j]? = some entry.packet → held' j := by
  rcases Nat.eq_zero_or_pos entry.packet.bodyLen with hempty | hpos
  · obtain ⟨rfl, hrecv', hpending'⟩ := recvPacket_empty h.strict hempty hrecv
    refine ⟨held, n, Nat.le_refl n, h.of_receiver hrecv' hpending'
      (recvPacket_sameSender hrecv).allowGapSkip (List.append_nil _) fun entry hentry => .inl hentry,
      fun j hj => hj, fun j _ hget => ?_⟩
    exact absurd hempty (Nat.ne_of_gt (h.stream.pos _ (List.mem_of_getElem? hget)))
  · obtain ⟨i, hget, hoffset⟩ := h.starts entry hentry hpos
    rw [hoffset, h.received_eq] at hnear
    obtain ⟨hfwd, hback⟩ := hnear
    have hwindow : InWindow sender.stream n i := ⟨by omega, by omega⟩
    obtain ⟨n', hn, hflow⟩ := h.receive_at hget hwindow hrecv
    refine ⟨_, n', hn, hflow, fun j hj => .inl hj, fun j hj hget' => .inr ?_⟩
    -- two places of one packet that are less than a full window apart are one
    have hi : i < sender.stream.length := (List.getElem?_eq_some_iff.mp hget).1
    have hj' : j < sender.stream.length := (List.getElem?_eq_some_iff.mp hget').1
    obtain ⟨hkn, hsent, hspan⟩ := h.span
    have hkj : startOf sender.stream k ≤ startOf sender.stream j := offset_mono hj
    have hend : startOf sender.stream j ≤ sender.sentBytes := by
      rw [sender.sentBytes_eq]
      exact offset_mono (Nat.le_of_lt hj')
    have hkey : keyOf base sender.stream j = keyOf base sender.stream i :=
      (h.stream.sent_eq hget').symm.trans (h.stream.sent_eq hget)
    obtain ⟨hfwd', hback'⟩ := hwindow
    simp only [HALF_WINDOW] at hfwd' hback'
    exact h.stream.key_inj hj' (Nat.le_of_lt hi) (by omega) (by omega) hkey

end Flow

/-! ## One step and one direction -/

theorem Side.eq_or_eq_other (x y : Side) : x = y ∨ x = y.other := by cases x <;> cases y <;> decide

namespace Link

variable {link link' : Link} {x y : Side} {held : Nat → Prop} {n k : Nat}

/-- The direction from `x` to the other side. -/
abbrev FlowFrom (link : Link) (x : Side) (held : Nat → Prop) (n k : Nat) : Prop :=
  Flow (link.base x) (link.node x) (link.node x.other) held n k

theorem node_send_other (link : Link) (x : Side) (now : Instant) (body : PTCPBody) :
    (link.send x.other now body).node x = link.node x := Function.update_of_ne x.other_ne.symm ..

theorem node_deliver_other (link : Link) (x : Side) (timeout : Duration) (now : Instant)
    (packet : PTCPPacket) : (link.deliver x.other timeout now packet).node x = link.node x :=
  Function.update_of_ne x.other_ne.symm ..

theorem node_retransmit_other (link : Link) (x : Side) (now : Instant) :
    (link.retransmit x.other now).node x = link.node x := Function.update_of_ne x.other_ne.symm ..

/-- Side `x` gets a packet that the other side sent: what it held it still holds, and now it
holds this packet too. -/
theorem FlowFrom.receives {entry : Sent} (timeout : Duration) (now : Instant)
    (h : link.FlowFrom y held n k) (hentry : entry ∈ (link.node y).history)
    (hnear : Near entry.sentOffset (link.recvOffset y.other)) :
    ∃ held' n', (link.deliver y.other timeout now entry.packet).FlowFrom y held' n' k ∧
      (∀ j, held j → held' j) ∧
      ∀ j, k ≤ j → (link.node y).stream[j]? = some entry.packet → held' j := by
  rw [recvOffset, Side.other_other] at hnear
  cases hcall : (link.node y.other).session.recvPacket timeout now entry.packet with | mk ready s' =>
  obtain ⟨held', n', _, hflow, hkept, hnew⟩ := h.deliver hentry hnear hcall
  refine ⟨held', n', ?_, hkept, hnew⟩
  simpa only [FlowFrom, Link.deliver, hcall, setWire, base_setNode, node_setNode_self,
    setNode, Function.update_of_ne y.other_ne.symm, Function.update_self] using hflow

/-- Side `x` gets a packet of the receiver of its stream, which acknowledges. -/
theorem FlowFrom.acknowledges {entry : Sent} (timeout : Duration) (now : Instant)
    (h : link.FlowFrom x held n k) (hentry : entry ∈ (link.node x.other).history)
    (hnear : link.sentOffset x ≤ entry.recvOffset + HALF_WINDOW) :
    ∃ k', (link.deliver x timeout now entry.packet).FlowFrom x held n k' := by
  obtain ⟨hwrap, hle⟩ := h.acks entry hentry
  obtain ⟨k', hk', hwindow, hlength⟩ := h.acknowledge hle hnear
  cases hcall : (link.node x).session.recvPacket timeout now entry.packet with | mk ready s' =>
  have hsame := recvPacket_sameSender hcall
  rw [← hwrap, ← hsame.sentWindow] at hwindow hlength
  have hflow : Flow (link.base x)
      { link.node x with session := s', delivered := (link.node x).delivered ++ ready }
      (link.node x.other) held n k' := h.of_sender rfl hsame.sent hwindow hk' hlength
  refine ⟨k', ?_⟩
  simpa only [FlowFrom, Link.deliver, hcall, setWire, base_setNode, node_setNode_self,
    node_setNode_other] using hflow

/-- A send by either side. The stream that it goes to grows by what it adds. -/
theorem FlowFrom.send (h : link.FlowFrom y held n k) (x : Side) (now : Instant) {body : PTCPBody}
    (hsend : 0 < body.len →
      (link.node x).session.sentWindow.length < MAX_SENT_WINDOW ∧ body.len ≤ MAX_BODY) :
    (link.send x now body).FlowFrom y held n k := by
  rcases Side.eq_or_eq_other x y with rfl | rfl
  · have hflow : Flow (link.base x) ((link.node x).afterSend now body (link.sentOffset x)
        (link.recvOffset x)) (link.node x.other) held n k := by
      rcases Nat.eq_zero_or_pos body.len with hempty | hpos
      · exact h.send_empty now (Nat.not_lt.mpr (Nat.le_of_eq hempty)) _ _
      · obtain ⟨hroom, hbody⟩ := hsend hpos
        exact h.send now body hroom hbody _
    simpa only [FlowFrom, Link.send, setWire, base_setNode, node_setNode_self,
      node_setNode_other, Node.afterSend] using hflow
  · have hoffset : link.recvOffset y.other = link.base y + startOf (link.node y).stream n := by
      rw [recvOffset, Side.other_other, h.received_eq]
    have hflow : Flow (link.base y) (link.node y) ((link.node y.other).afterSend now body
        (link.sentOffset y.other) (link.recvOffset y.other)) held n k :=
      h.of_receiver rfl rfl rfl rfl fun entry hentry => by
        rcases List.mem_append.mp hentry with hentry | hentry
        · exact .inl hentry
        · obtain rfl := List.mem_singleton.mp hentry
          refine .inr ⟨?_, Nat.le_of_eq hoffset⟩
          rw [hoffset]
          exact h.assembles.recv_eq
    simpa only [FlowFrom, Link.send, setWire, setNode, Function.update_self,
      Function.update_of_ne y.other_ne.symm, Node.afterSend] using hflow

theorem stream_send (link : Link) (x y : Side) (now : Instant) (body : PTCPBody) :
    ((link.send x now body).node y).stream = (link.node y).stream ++
      if x = y ∧ 0 < body.len then [(link.node x).session.outgoing body] else [] := by
  rcases Side.eq_or_eq_other x y with rfl | rfl
  · simp only [Link.send, setWire, node_setNode_self]
    show ((link.node x).afterSend now body _ _).stream = _
    rw [Node.stream_afterSend]
    split <;> simp [*]
  · simp only [Link.send, setWire, setNode, Function.update_of_ne y.other_ne.symm, y.other_ne,
      false_and, if_false, List.append_nil]

/-- What a step does to one direction: the stream only grows, and nothing held is forgotten. -/
theorem FlowFrom.step (h : link.FlowFrom y held n k) (hstep : Step link link') :
    ∃ held' n' k', link'.FlowFrom y held' n' k' ∧ (∀ j, held j → held' j) ∧
      (link.node y).stream <+: (link'.node y).stream := by
  cases hstep with
  | send x now body hroom hbody =>
    refine ⟨held, n, k, h.send x now fun _ => ⟨hroom, hbody⟩, fun j hj => hj, ?_⟩
    rw [stream_send]
    exact List.prefix_append _ _
  | deliver x timeout now packet _ hdeliverable =>
    obtain ⟨entry, hentry, rfl, hsent, hrecv⟩ := hdeliverable
    rcases Side.eq_or_eq_other x y with rfl | rfl
    · obtain ⟨k', hflow⟩ := FlowFrom.acknowledges timeout now h hentry hrecv.2
      refine ⟨held, n, k', hflow, fun j hj => hj, ?_⟩
      simp only [Link.deliver, setWire, node_setNode_self]
      exact List.prefix_refl _
    · rw [Side.other_other] at hentry
      obtain ⟨held', n', hflow, hkept, _⟩ :=
        FlowFrom.receives timeout now h hentry hsent
      refine ⟨held', n', k, hflow, hkept, ?_⟩
      rw [node_deliver_other]
  | retransmit x now =>
    rcases Side.eq_or_eq_other x y with rfl | rfl
    · have hflow : Flow (link.base x)
          { link.node x with session := ((link.node x).session.dueRetransmissions now).2 }
          (link.node x.other) held n k := h.of_sender rfl rfl
        ((map_packet_dueRetransmissions _ now).trans h.window) h.window_le
        (Nat.le_trans (Nat.le_of_eq (List.length_map _)) h.window_length)
      refine ⟨held, n, k, ?_, fun j hj => hj, ?_⟩
      · simpa only [FlowFrom, Link.retransmit, setWire, base_setNode, node_setNode_self,
          node_setNode_other] using hflow
      · simp only [Link.retransmit, setWire, node_setNode_self]
        exact List.prefix_refl _
    · have hflow : Flow (link.base y) (link.node y) { link.node y.other with
          session := ((link.node y.other).session.dueRetransmissions now).2 } held n k :=
        h.of_receiver rfl rfl rfl rfl fun entry hentry => .inl hentry
      refine ⟨held, n, k, ?_, fun j hj => hj, ?_⟩
      · simpa only [FlowFrom, Link.retransmit, setWire, setNode, Function.update_self,
          Function.update_of_ne y.other_ne.symm] using hflow
      · rw [node_retransmit_other]
  | drop x packet => exact ⟨held, n, k, h, fun j hj => hj, List.prefix_refl _⟩
  | duplicate x packet _ => exact ⟨held, n, k, h, fun j hj => hj, List.prefix_refl _⟩

/-! ## What has arrived -/

/-- A run between two states, with the packets that reached side `x` in it. -/
inductive Arrives (x : Side) (link : Link) : List PTCPPacket → Link → Prop
  | start : Arrives x link [] link
  | step {arrived : List PTCPPacket} {mid link' : Link} :
      Arrives x link arrived mid → Step mid link' → Arrives x link arrived link'
  | arrive {arrived : List PTCPPacket} {mid : Link} {packet : PTCPPacket} (timeout : Duration)
      (now : Instant) :
      Arrives x link arrived mid → packet ∈ mid.wire x.other → mid.Deliverable x packet →
      Arrives x link (packet :: arrived) (mid.deliver x timeout now packet)

theorem Arrives.run {arrived : List PTCPPacket} (h : Arrives x link arrived link') :
    Relation.ReflTransGen Step link link' := by
  induction h with
  | start => exact .refl
  | step _ hstep ih => exact ih.tail hstep
  | arrive timeout now _ hwire hdeliverable ih => exact ih.tail (.deliver x timeout now _ hwire hdeliverable)

/-- The stream at the start of the run is still there, and its packets that were acknowledged
or held at the start, or have arrived since, are held. -/
structure Gathered (y : Side) (link : Link) (held : Nat → Prop) (n k : Nat)
    (arrived : List PTCPPacket) (mid : Link) (held' : Nat → Prop) (n' k' : Nat) : Prop where
  flow : mid.FlowFrom y held' n' k'
  kept : ∀ j, held j → held' j
  grown : (link.node y).stream <+: (mid.node y).stream
  gained : ∀ j, k ≤ j → ∀ packet ∈ arrived, (link.node y).stream[j]? = some packet → held' j

theorem Gathered.step {held' : Nat → Prop} {n' k' : Nat} {arrived : List PTCPPacket} {mid : Link}
    (h : Gathered y link held n k arrived mid held' n' k') (hstep : Step mid link') :
    ∃ held'' n'' k'', Gathered y link held n k arrived link' held'' n'' k'' := by
  obtain ⟨held'', n'', k'', hflow, hkept, hgrown⟩ := h.flow.step hstep
  exact ⟨held'', n'', k'', hflow, fun j hj => hkept j (h.kept j hj), h.grown.trans hgrown,
    fun j hj packet hpacket hget => hkept j (h.gained j hj packet hpacket hget)⟩

theorem Gathered.arrive {held' : Nat → Prop} {n' k' : Nat} {arrived : List PTCPPacket} {mid : Link}
    {packet : PTCPPacket} {timeout : Duration} {now : Instant}
    (h : Gathered y link held n k arrived mid held' n' k')
    (hdeliverable : mid.Deliverable y.other packet) :
    ∃ held'' n'' k'', Gathered y link held n k (packet :: arrived)
      (mid.deliver y.other timeout now packet) held'' n'' k'' := by
  obtain ⟨entry, hentry, rfl, hsent, _⟩ := hdeliverable
  rw [Side.other_other] at hentry
  obtain ⟨held'', n'', hflow, hkept, hnew⟩ := FlowFrom.receives timeout now h.flow hentry hsent
  have hstream : ((mid.deliver y.other timeout now entry.packet).node y).stream = (mid.node y).stream := by
    rw [node_deliver_other]
  refine ⟨held'', n'', k', hflow, fun j hj => hkept j (h.kept j hj), hstream ▸ h.grown, ?_⟩
  intro j hj packet hpacket hget
  rcases List.mem_cons.mp hpacket with rfl | hpacket
  · rcases Nat.lt_or_ge j k' with hlt | hge
    · exact hkept j (h.flow.assembles.frontier.below j (Nat.lt_of_lt_of_le hlt h.flow.window_le))
    · refine hnew j hge ?_
      obtain ⟨rest, hrest⟩ := h.grown
      rw [← hrest, List.getElem?_append_left (List.getElem?_eq_some_iff.mp hget).1, hget]
  · exact hkept j (h.gained j hj packet hpacket hget)

/-- When the whole window has arrived, the whole stream up to then is delivered. -/
theorem Gathered.delivered {held' : Nat → Prop} {n' k' : Nat} {arrived : List PTCPPacket}
    (hflow : link.FlowFrom y held n k) (h : Gathered y link held n k arrived link' held' n' k')
    (hall : ∀ tracked ∈ (link.node y).session.sentWindow, tracked.packet ∈ arrived) :
    (link.node y).stream <+: (link'.node y.other).delivered := by
  have hheld : ∀ j < (link.node y).stream.length, held' j := by
    intro j hj
    rcases Nat.lt_or_ge j k with hlt | hge
    · exact h.kept j (hflow.assembles.frontier.below j (Nat.lt_of_lt_of_le hlt hflow.window_le))
    · have hget : (link.node y).stream[j]? = some (link.node y).stream[j] := List.getElem?_eq_getElem hj
      have hwindow : ((link.node y).stream.drop k)[j - k]? = some (link.node y).stream[j] := by
        rw [List.getElem?_drop, Nat.add_sub_cancel' hge, hget]
      rw [← hflow.window] at hwindow
      obtain ⟨tracked, htracked, hpacket⟩ := List.mem_map.mp (List.mem_of_getElem? hwindow)
      exact h.gained j hge _ (hpacket ▸ hall tracked htracked) hget
  have hn : (link.node y).stream.length ≤ n' := by
    by_contra hlt
    have hlt := Nat.lt_of_not_le hlt
    exact h.flow.assembles.frontier.stops (Nat.lt_of_lt_of_le hlt h.grown.length_le) (hheld n' hlt)
  rw [h.flow.delivered]
  obtain ⟨rest, hrest⟩ := h.grown
  rw [← hrest, List.take_append, List.take_of_length_le hn]
  exact List.prefix_append _ _

/-- What a round is made of: retransmissions, deliveries, and empty packets, which any state
can send because they go to no window. -/
inductive Repair (link : Link) : Link → Prop
  | retransmit (x : Side) (now : Instant) : Repair link (link.retransmit x now)
  | deliver (x : Side) (timeout : Duration) (now : Instant) (packet : PTCPPacket) :
      packet ∈ link.wire x.other → link.Deliverable x packet →
      Repair link (link.deliver x timeout now packet)
  | acknowledge (x : Side) (now : Instant) : Repair link (link.send x now .empty)

/-- Each packet of a stream is in the history, with its own offset. -/
def Located (link : Link) (x : Side) : Prop :=
  ∀ i packet, (link.node x).stream[i]? = some packet → ∃ entry ∈ (link.node x).history,
    entry.packet = packet ∧ entry.sentOffset = link.base x + startOf (link.node x).stream i

structure Sound (link : Link) : Prop where
  linked : Linked link
  located : ∀ x, Located link x

theorem Located.of_same (h : Located link x) (hbase : link'.base = link.base)
    (hhistory : (link'.node x).history = (link.node x).history) : Located link' x := by
  have hstream : (link'.node x).stream = (link.node x).stream := by
    rw [Node.stream, Node.stream, hhistory]
  rw [Located, hstream, hhistory, hbase]
  exact h

theorem history_deliver (link : Link) (x z : Side) (timeout : Duration) (now : Instant)
    (packet : PTCPPacket) :
    ((link.deliver x timeout now packet).node z).history = (link.node z).history := by
  rcases Side.eq_or_eq_other x z with rfl | rfl
  · simp only [Link.deliver, setWire, node_setNode_self]
  · rw [node_deliver_other]

theorem history_retransmit (link : Link) (x z : Side) (now : Instant) :
    ((link.retransmit x now).node z).history = (link.node z).history := by
  rcases Side.eq_or_eq_other x z with rfl | rfl
  · simp only [Link.retransmit, setWire, node_setNode_self]
  · rw [node_retransmit_other]

theorem history_send (link : Link) (x z : Side) (now : Instant) (body : PTCPBody) :
    ((link.send x now body).node z).history = (link.node z).history ++
      if x = z then [⟨(link.node x).session.outgoing body, link.sentOffset x, link.recvOffset x⟩]
      else [] := by
  rcases Side.eq_or_eq_other x z with rfl | rfl
  · simp only [Link.send, setWire, node_setNode_self, if_true]
    rfl
  · simp only [Link.send, setWire, setNode, Function.update_of_ne z.other_ne.symm, z.other_ne,
      if_false, List.append_nil]

theorem Located.send (h : Located link z) (x : Side) (now : Instant) (body : PTCPBody) :
    Located (link.send x now body) z := by
  intro i packet hget
  show ∃ entry ∈ _, _ ∧ _ = link.base z + _
  rw [stream_send] at hget
  rw [history_send, stream_send]
  rcases Nat.lt_or_ge i (link.node z).stream.length with hlt | hge
  · rw [List.getElem?_append_left hlt] at hget
    obtain ⟨entry, hentry, hpacket, hoffset⟩ := h i packet hget
    exact ⟨entry, List.mem_append_left _ hentry, hpacket,
      hoffset.trans (congrArg (link.base z + ·) (offset_append (Nat.le_of_lt hlt)).symm)⟩
  · rw [List.getElem?_append_right hge] at hget
    split at hget
    · next hsends =>
      obtain ⟨rfl, _⟩ := hsends
      obtain ⟨hi, rfl⟩ := List.getElem?_eq_some_iff.mp hget
      have hi : i = (link.node x).stream.length := by
        rw [List.length_singleton] at hi
        omega
      subst hi
      refine ⟨_, List.mem_append_right _ (by rw [if_pos rfl]; exact List.mem_singleton_self _), ?_, ?_⟩
      · simp
      · show link.sentOffset x = _
        rw [sentOffset, Node.sentBytes_eq, startOf, startOf, offset_append (Nat.le_refl _)]
    · cases hget

theorem Sound.step (h : Sound link) (hstep : Step link link') : Sound link' := by
  refine ⟨h.linked.step hstep, fun x => ?_⟩
  cases hstep with
  | send z now body _ _ => exact (h.located x).send z now body
  | deliver z timeout now packet _ _ =>
    exact (h.located x).of_same rfl (link.history_deliver z x timeout now packet)
  | retransmit z now => exact (h.located x).of_same rfl (link.history_retransmit z x now)
  | drop z packet => exact h.located x
  | duplicate z packet _ => exact h.located x

theorem Fresh.sound {a b : PTCPSession} (hfresh : Fresh a b)
    (h : Relation.ReflTransGen Step (connect a b) link) : Sound link := by
  induction h with
  | refl =>
    refine ⟨hfresh.linked, fun x i packet hget => ?_⟩
    have hstream : ((connect a b).node x).stream = [] := by cases x <;> rfl
    rw [hstream] at hget
    cases hget
  | tail _ hstep ih => exact ih.step hstep

/-- What a round leaves as it was. -/
structure Frame (link link' : Link) : Prop where
  base : link'.base = link.base
  stream : ∀ x, (link'.node x).stream = (link.node x).stream
  /-- New entries of the history are empty packets. -/
  history : ∀ x, ∀ entry ∈ (link'.node x).history, 0 < entry.packet.bodyLen →
    entry ∈ (link.node x).history
  delivered : ∀ x, (link.node x).delivered <+: (link'.node x).delivered
  /-- The windows only lose packets at the front. -/
  window : ∀ x, (link'.node x).session.sentWindow.map TrackedPacket.packet <:+
    (link.node x).session.sentWindow.map TrackedPacket.packet

theorem Frame.refl (link : Link) : Frame link link where
  base := rfl
  stream _ := rfl
  history _ _ hentry _ := hentry
  delivered _ := List.prefix_refl _
  window _ := List.suffix_refl _

theorem Frame.trans {mid : Link} (h : Frame link mid) (h' : Frame mid link') : Frame link link' where
  base := h'.base.trans h.base
  stream x := (h'.stream x).trans (h.stream x)
  history x entry hentry hpos := h.history x entry (h'.history x entry hentry hpos) hpos
  delivered x := (h.delivered x).trans (h'.delivered x)
  window x := (h'.window x).trans (h.window x)

theorem Frame.sentOffset (h : Frame link link') (x : Side) : link'.sentOffset x = link.sentOffset x := by
  rw [Link.sentOffset, Link.sentOffset, Node.sentBytes_eq, Node.sentBytes_eq, h.stream, h.base]

theorem Repair.frame (hmove : Repair link link') : Frame link link' := by
  cases hmove with
  | retransmit x now =>
    refine ⟨rfl, fun z => ?_, fun z entry hentry _ => ?_, fun z => ?_, fun z => ?_⟩
    · rw [Node.stream, history_retransmit, Node.stream]
    · rwa [history_retransmit] at hentry
    · rcases Side.eq_or_eq_other x z with rfl | rfl
      · simp only [Link.retransmit, setWire, node_setNode_self]
        exact List.prefix_refl _
      · rw [node_retransmit_other]
    · rcases Side.eq_or_eq_other x z with rfl | rfl
      · simp only [Link.retransmit, setWire, node_setNode_self, map_packet_dueRetransmissions]
        exact List.suffix_refl _
      · rw [node_retransmit_other]
  | deliver x timeout now packet _ _ =>
    refine ⟨rfl, fun z => ?_, fun z entry hentry _ => ?_, fun z => ?_, fun z => ?_⟩
    · rw [Node.stream, history_deliver, Node.stream]
    · rwa [history_deliver] at hentry
    · rcases Side.eq_or_eq_other x z with rfl | rfl
      · simp only [Link.deliver, setWire, node_setNode_self]
        exact List.prefix_append _ _
      · rw [node_deliver_other]
    · rcases Side.eq_or_eq_other x z with rfl | rfl
      · have hsame := recvPacket_sameSender (Prod.eta
          ((link.node x).session.recvPacket timeout now packet)).symm
        simp only [Link.deliver, setWire, node_setNode_self, hsame.sentWindow]
        exact (List.dropWhile_suffix _).map _
      · rw [node_deliver_other]
  | acknowledge x now =>
    refine ⟨rfl, fun z => ?_, fun z entry hentry hpos => ?_, fun z => ?_, fun z => ?_⟩
    · rw [stream_send, if_neg fun h => absurd h.2 (Nat.lt_irrefl 0), List.append_nil]
    · rw [history_send] at hentry
      rcases List.mem_append.mp hentry with hold | hnew
      · exact hold
      · split at hnew
        · obtain rfl := List.mem_singleton.mp hnew
          exact absurd hpos (Nat.lt_irrefl 0)
        · cases hnew
    · rcases Side.eq_or_eq_other x z with rfl | rfl
      · simp only [Link.send, setWire, node_setNode_self]
        exact List.prefix_refl _
      · rw [node_send_other]
    · rcases Side.eq_or_eq_other x z with rfl | rfl
      · simp only [Link.send, setWire, node_setNode_self]
        exact List.suffix_refl _
      · rw [node_send_other]

/-! ## The parts of a round -/

end Link

end DahuaBridge
