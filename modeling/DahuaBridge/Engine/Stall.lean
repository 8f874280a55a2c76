import DahuaBridge.Engine.Session

/-!
# The tunnel engine: giving up on a session

The loop that retransmits ends the process, so that the tunnel is set up anew, when a packet
was repeated `MAX_RETRANSMITS` times and nothing was delivered for 15 seconds.

* `exit_of_stall`: it is never early. A packet was sent 51 times, over half a minute at the
  least, and was not acknowledged, and every delivery is 15 seconds ago.
* `stall_detected`: it is never missed. If the loop runs at least every `δ`, then an engine
  does not outlive a packet that is not acknowledged by more than `30 s + 49 δ`, the longest
  that 50 repetitions take, unless something is delivered.
-/

namespace DahuaBridge

open PTCPSession

/-! ## One call -/

/-- A wait is over. -/
theorem le_elapsed_iff {wait : Duration} {started now : Instant} (hpos : 0 < wait) :
    wait ≤ started.elapsed now ↔ started + wait ≤ now := by
  have hsub {w s n : Nat} (hpos : 0 < w) : w ≤ n - s ↔ s + w ≤ n := by omega
  exact hsub hpos

/-- `acknowledge_sent` takes the packet for received. -/
def acknowledges (ack : U32) (packet : PTCPPacket) : Bool :=
  endOf packet = ack || sequenceAfter ack (endOf packet)

section Calls

variable {s s' : PTCPSession} {timeout : Duration} {now : Instant} {packet : PTCPPacket}
  {ready : List PTCPPacket} {tracked : TrackedPacket}

theorem drainContiguous_lastProgress (h : s.drainContiguous now = (ready, s')) :
    s'.lastProgress = if ready.isEmpty then s.lastProgress else now := by
  obtain rfl : (s.drainContiguous now).1 = ready := by rw [h]
  obtain rfl : (s.drainContiguous now).2 = s' := by rw [h]
  rfl

/-- A delivery is progress, and nothing else is. -/
theorem recvPacket_lastProgress (h : s.recvPacket timeout now packet = (ready, s')) :
    s'.lastProgress = if ready.isEmpty then s.lastProgress else now := by
  simp only [recvPacket] at h
  repeat' split at h
  all_goals first
    | exact drainContiguous_lastProgress h
    | (cases h; rfl)

theorem sentWindow_recvPacket (h : s.recvPacket timeout now packet = (ready, s')) :
    s'.sentWindow = s.sentWindow.dropWhile fun tracked => acknowledges packet.recv tracked.packet :=
  (recvPacket_sameSender h).sentWindow

theorem mem_sentWindow_send {body : PTCPBody} (h : tracked ∈ (s.send now body).2.sentWindow) :
    tracked ∈ s.sentWindow ∨
      0 < body.len ∧ tracked = { packet := (s.send now body).1, lastSent := now, retries := 0 } := by
  by_cases hpos : 0 < body.len
  · have hwindow : (s.send now body).2.sentWindow = track s.sentWindow now (s.send now body).1 :=
      if_pos hpos
    rw [hwindow, track] at h
    rcases List.mem_append.mp h with h | h
    · left
      split at h
      · exact List.mem_of_mem_drop h
      · exact h
    · exact .inr ⟨hpos, List.mem_singleton.mp h⟩
  · have hwindow : (s.send now body).2.sentWindow = s.sentWindow := if_neg hpos
    exact .inl (hwindow ▸ h)

/-- What is left in the window is not covered by the acknowledgement. -/
theorem Tracked.not_acknowledged {x : Sender} (h : Tracked x)
    (hack : (x.session.sent - packet.recv).toNat < 2 ^ 31)
    (hrecv : x.session.recvPacket timeout now packet = (ready, s'))
    (hmem : tracked ∈ s'.sentWindow) :
    tracked ∈ x.session.sentWindow ∧ acknowledges packet.recv tracked.packet = false := by
  rw [sentWindow_recvPacket hrecv, h.window, List.dropWhile_map] at hmem
  obtain ⟨d, hd, rfl⟩ := List.mem_map.mp hmem
  have hcutoff : Cutoff.HasCutoff (fun d : Dispatch => x.ackOffset packet < d.endOffset)
      x.awaiting := by
    refine (h.ordered.sublist h.awaiting_suffix.sublist).imp fun {d d'} hbefore hpass => ?_
    have hlt := hbefore.1
    simp only [decide_eq_true_eq] at hpass ⊢
    exact hpass.trans (Int.ofNat_lt.mpr hlt)
  have hfilter := hcutoff.dropWhile_eq_filter fun d hd => h.covers_iff hd hack
  have hleft : d ∈ x.awaiting.filter fun d => x.ackOffset packet < d.endOffset := hfilter ▸ hd
  have hawaiting := List.mem_of_mem_filter hleft
  refine ⟨?_, ?_⟩
  · rw [h.window]
    exact List.mem_map_of_mem hawaiting
  · have hcovers := h.covers_iff hawaiting hack
    rw [List.of_mem_filter hleft] at hcovers
    exact hcovers

end Calls

namespace Engine

/-! ## Events -/

/-- The instant at which a step uses the session. -/
def Event.instant : Event → Option Instant
  | .dhWriterSend now => some now
  | .receive now _ => some now
  | .dhReader now => some now
  | .retransmit now => some now
  | _ => none

def Event.packet : Event → Option PTCPPacket
  | .receive _ packet => some packet
  | _ => none

def Event.tick : Event → Option Instant
  | .retransmit now => some now
  | _ => none

/-- The packets that came in. -/
def received (events : List Event) : List PTCPPacket := events.filterMap Event.packet

/-- When the loop that retransmits ran. -/
def ticks (events : List Event) : List Instant := events.filterMap Event.tick

/-- What a step has to do with the session. -/
inductive Usage (e : Engine) : Event → Prop
  | nothing {event : Event} : e.callOf event = none → event.packet = none → event.tick = none →
      Usage e event
  | send {event : Event} (now : Instant) (body : PTCPBody) :
      e.callOf event = some (.send now body) → event.instant = some now → event.packet = none →
      event.tick = none → Usage e event
  | receive (now : Instant) (packet : PTCPPacket) : Usage e (.receive now packet)
  | retransmit (now : Instant) : Usage e (.retransmit now)

theorem usage (e : Engine) (event : Event) : Usage e event := by
  cases event with
  | dhWriterSend now =>
    cases hwriter : e.dhWriter with
    | none => exact .nothing (by rw [callOf, hwriter]; rfl) rfl rfl
    | some event => exact .send now event.body (by rw [callOf, hwriter]; rfl) rfl rfl rfl
  | receive now packet => exact .receive now packet
  | dhReader now =>
    cases hreader : e.dhReader with
    | acknowledge packets => exact .send now .empty (by simp only [callOf, hreader]) rfl rfl rfl
    | _ => exact .nothing (by simp only [callOf, hreader]) rfl rfl
  | retransmit now => exact .retransmit now
  | _ => exact .nothing rfl rfl rfl

/-! ## Never early -/

/-- A packet was sent at `t₀`, and the events `later` came after it. -/
def SentAt (config : Config) (session : PTCPSession) (events later : List Event)
    (packet : PTCPPacket) (t₀ : Instant) : Prop :=
  ∃ past event e e', events = past ++ event :: later ∧
    Run.run (step config) past (start session) = some e ∧ step config e event = some e' ∧
    event.instant = some t₀ ∧ e'.sent = e.sent ++ [packet]

/-- A packet was sent, it was repeated at some ticks since, and not acknowledged. -/
structure Unanswered (config : Config) (session : PTCPSession) (events later : List Event)
    (packet : PTCPPacket) (t₀ : Instant) (repeated : List Instant) : Prop where
  sentAt : SentAt config session events later packet t₀
  nonEmpty : 0 < packet.body.len
  unacknowledged : ∀ p ∈ received later, acknowledges p.recv packet = false
  ticks : repeated.Sublist (ticks later)
  apart : (t₀ :: repeated).IsChain fun t t' => t + RETRANSMIT_AFTER ≤ t'
  limit : repeated.length ≤ MAX_RETRANSMITS.toNat

/-- What the window says of a packet is what happened to it. -/
def Explained (config : Config) (session : PTCPSession) (events : List Event)
    (tracked : TrackedPacket) : Prop :=
  ∃ later t₀ repeated, Unanswered config session events later tracked.packet t₀ repeated ∧
    tracked.lastSent = repeated.getLast?.getD t₀ ∧ tracked.retries.toNat = repeated.length

/-- Something was delivered at `t`. -/
def DeliveredAt (config : Config) (session : PTCPSession) (events : List Event) (t : Instant) :
    Prop :=
  ∃ past packet later e e', events = past ++ .receive t packet :: later ∧
    Run.run (step config) past (start session) = some e ∧
    step config e (.receive t packet) = some e' ∧ e'.delivered ≠ e.delivered

section Early

variable {config : Config} {session : PTCPSession} {events later : List Event} {event : Event}
  {e e' : Engine} {packet : PTCPPacket} {t₀ now : Instant} {repeated : List Instant}
  {tracked : TrackedPacket}

theorem Unanswered.extend (h : Unanswered config session events later packet t₀ repeated)
    (hevent : ∀ p ∈ event.packet, acknowledges p.recv packet = false) :
    Unanswered config session (events ++ [event]) (later ++ [event]) packet t₀ repeated where
  sentAt := by
    obtain ⟨past, event', f, f', rfl, hrest⟩ := h.sentAt
    exact ⟨past, event', f, f', by rw [List.append_assoc]; rfl, hrest⟩
  nonEmpty := h.nonEmpty
  unacknowledged p hp := by
    rw [received, List.filterMap_append] at hp
    rcases List.mem_append.mp hp with hp | hp
    · exact h.unacknowledged p hp
    · obtain ⟨event', hevent', hpacket⟩ := List.mem_filterMap.mp hp
      obtain rfl := List.mem_singleton.mp hevent'
      exact hevent p hpacket
  ticks := by
    rw [Engine.ticks, List.filterMap_append]
    exact h.ticks.trans (List.sublist_append_left _ _)
  apart := h.apart
  limit := h.limit

/-- One more repetition, when it is due. -/
theorem Unanswered.again (h : Unanswered config session events later packet t₀ repeated)
    (hlimit : repeated.length < MAX_RETRANSMITS.toNat)
    (hdue : repeated.getLast?.getD t₀ + RETRANSMIT_AFTER ≤ now) :
    Unanswered config session (events ++ [.retransmit now]) (later ++ [.retransmit now]) packet t₀
      (repeated ++ [now]) where
  sentAt := (h.extend fun _ hp => by cases hp).sentAt
  nonEmpty := h.nonEmpty
  unacknowledged := (h.extend fun _ hp => by cases hp).unacknowledged
  ticks := by
    rw [Engine.ticks, List.filterMap_append]
    exact h.ticks.append (List.Sublist.refl _)
  apart := by
    rw [← List.cons_append]
    refine h.apart.append (.singleton _) fun t ht t' ht' => ?_
    obtain rfl : now = t' := Option.some.inj ht'
    have hlast : repeated.getLast?.getD t₀ = t := by
      rw [List.getLast?_cons] at ht
      exact Option.some.inj ht
    exact hlast ▸ hdue
  limit := by
    rw [List.length_append]
    exact hlimit

theorem Explained.extend (h : Explained config session events tracked)
    (hevent : ∀ p ∈ event.packet, acknowledges p.recv tracked.packet = false) :
    Explained config session (events ++ [event]) tracked := by
  obtain ⟨later, t₀, repeated, hunanswered, hrest⟩ := h
  exact ⟨_, t₀, repeated, hunanswered.extend hevent, hrest⟩

theorem Explained.extend_of_none (h : Explained config session events tracked)
    (hevent : event.packet = none) : Explained config session (events ++ [event]) tracked := by
  refine h.extend fun p hp => ?_
  rw [hevent] at hp
  cases hp

/-- The account of a packet after `due_retransmissions`. -/
theorem Explained.due (h : Explained config session events tracked) :
    Explained config session (events ++ [.retransmit now])
      (if isDue now tracked then { tracked with lastSent := now, retries := tracked.retries + 1 }
        else tracked) := by
  split
  · next hdue =>
    obtain ⟨later, t₀, repeated, hunanswered, hlast, hretries⟩ := h
    obtain ⟨hlimit, helapsed⟩ := Bool.and_eq_true_iff.mp hdue
    rw [decide_eq_true_iff] at hlimit helapsed
    have hlt : tracked.retries.toNat < 50 := UInt8.lt_iff_toNat_lt.mp hlimit
    have hwait : repeated.getLast?.getD t₀ + RETRANSMIT_AFTER ≤ now :=
      hlast ▸ (le_elapsed_iff (by decide)).mp helapsed
    refine ⟨_, t₀, repeated ++ [now], hunanswered.again (hretries ▸ hlt) hwait, ?_, ?_⟩
    · rw [List.getLast?_concat]
      rfl
    · rw [List.length_append, ← hretries]
      show (tracked.retries.toNat + 1) % 256 = _
      exact Nat.mod_eq_of_lt (by omega)
  · exact h.extend_of_none rfl

/-- The window is accounted for. -/
def Accounted (config : Config) (session : PTCPSession) (events : List Event) (e : Engine) : Prop :=
  ∀ tracked ∈ e.session.sentWindow, Explained config session events tracked

theorem Accounted.step (h : Accounted config session events e) (hobserved : Observed e)
    (hadmits : e.Admits event) (hrun : Run.run (Engine.step config) events (start session) = some e)
    (hstep : Engine.step config e event = some e') :
    Accounted config session (events ++ [event]) e' := by
  obtain ⟨hsession, hsent, _⟩ := step_effect hstep
  intro tracked htracked
  rw [hsession] at htracked
  cases usage e event with
  | nothing hcall hpacket _ =>
    rw [hcall] at htracked
    exact (h tracked htracked).extend_of_none hpacket
  | send now body hcall hinstant hpacket _ =>
    rw [hcall] at htracked hsent
    rcases mem_sentWindow_send htracked with hold | ⟨hpos, rfl⟩
    · exact (h tracked hold).extend_of_none hpacket
    · have hnew : SentAt config session (events ++ [event]) [] (e.session.send now body).1 now :=
        ⟨events, event, e, e', rfl, hrun, hstep, hinstant, hsent⟩
      exact ⟨[], now, [], ⟨hnew, hpos, fun p hp => (by cases hp), .slnil, .singleton _,
        Nat.zero_le _⟩, rfl, rfl⟩
  | receive now packet =>
    obtain ⟨x, hx, hx'⟩ := hobserved
    have hack : (x.session.sent - packet.recv).toNat < 2 ^ 31 := hx ▸ hadmits
    rw [← hx] at htracked
    obtain ⟨hold, huncovered⟩ := hx'.not_acknowledged hack (Prod.eta _).symm htracked
    exact (h tracked (hx ▸ hold)).extend fun p hp => Option.some.inj hp ▸ huncovered
  | retransmit now =>
    obtain ⟨old, hold, rfl⟩ := List.mem_map.mp htracked
    exact (h old hold).due

theorem DeliveredAt.of_concat {t : Instant}
    (h : DeliveredAt config session (events ++ [event]) t)
    (hrun : Run.run (Engine.step config) events (start session) = some e)
    (hstep : Engine.step config e event = some e') : DeliveredAt config session events t ∨
      ∃ packet, event = .receive t packet ∧ e'.delivered ≠ e.delivered := by
  obtain ⟨past, packet, later, f, f', hsplit, hpast, hreceive, hnew⟩ := h
  rcases List.eq_nil_or_concat later with rfl | ⟨later, last, rfl⟩
  · obtain ⟨rfl, hlast⟩ := List.append_inj' hsplit rfl
    obtain rfl : event = .receive t packet := (List.cons.inj hlast).1
    obtain rfl : e = f := Option.some.inj (hrun.symm.trans hpast)
    obtain rfl : e' = f' := Option.some.inj (hstep.symm.trans hreceive)
    exact .inr ⟨packet, rfl, hnew⟩
  · rw [List.concat_eq_append, ← List.cons_append, ← List.append_assoc] at hsplit
    obtain ⟨rfl, _⟩ := List.append_inj' hsplit rfl
    exact .inl ⟨past, packet, later, f, f', rfl, hpast, hreceive, hnew⟩

/-- The last progress of the session is the last delivery, if there was one. -/
def Dated (config : Config) (session : PTCPSession) (events : List Event) (e : Engine) : Prop :=
  ∀ t, DeliveredAt config session events t → t ≤ e.session.lastProgress

/-- The clock does not go back. -/
def Clocked (events : List Event) : Prop := (events.filterMap Event.instant).Pairwise (· ≤ ·)

theorem Clocked.le {t : Instant} (h : Clocked (events ++ [event])) (hnow : event.instant = some now)
    (ht : t ∈ events.filterMap Event.instant) : t ≤ now := by
  rw [Clocked, List.filterMap_append] at h
  refine (List.pairwise_append.mp h).2.2 t ht now ?_
  exact List.mem_filterMap.mpr ⟨event, List.mem_singleton_self event, hnow⟩

theorem Clocked.of_concat (h : Clocked (events ++ [event])) : Clocked events := by
  rw [Clocked, List.filterMap_append] at h
  exact (List.pairwise_append.mp h).1

theorem Dated.step (h : Dated config session events e) (hclock : Clocked (events ++ [event]))
    (hrun : Run.run (Engine.step config) events (start session) = some e)
    (hstep : Engine.step config e event = some e') : Dated config session (events ++ [event]) e' := by
  obtain ⟨hsession, _, hdelivered⟩ := step_effect hstep
  intro t ht
  cases usage e event with
  | nothing hcall hpacket _ =>
    rw [hcall] at hsession hdelivered
    rcases ht.of_concat hrun hstep with hold | ⟨packet, rfl, _⟩
    · exact (congrArg PTCPSession.lastProgress hsession) ▸ h t hold
    · cases hpacket
  | send now body hcall _ hpacket _ =>
    rw [hcall] at hsession hdelivered
    rcases ht.of_concat hrun hstep with hold | ⟨packet, rfl, _⟩
    · exact (congrArg PTCPSession.lastProgress hsession) ▸ h t hold
    · cases hpacket
  | receive now packet =>
    have hprogress := recvPacket_lastProgress
      (Prod.eta (e.session.recvPacket config.gapTimeout now packet)).symm
    have hsession' : e'.session.lastProgress = _ :=
      (congrArg PTCPSession.lastProgress hsession).trans hprogress
    rw [hsession']
    rcases ht.of_concat hrun hstep with hold | ⟨packet', heq, hnew⟩
    · split
      · exact h t hold
      · obtain ⟨past, packet', later, _, _, rfl, _⟩ := hold
        refine hclock.le rfl (List.mem_filterMap.mpr ⟨.receive t packet', ?_, rfl⟩)
        exact List.mem_append_right _ List.mem_cons_self
    · cases heq
      split
      · next hempty =>
        refine absurd (hdelivered.trans ?_) hnew
        exact (congrArg (e.delivered ++ ·) (List.isEmpty_iff.mp hempty)).trans (List.append_nil _)
      · exact Nat.le_refl _
  | retransmit now =>
    rcases ht.of_concat hrun hstep with hold | ⟨packet, heq, _⟩
    · exact (congrArg PTCPSession.lastProgress hsession) ▸ h t hold
    · cases heq

end Early

/-- A tick every `n` milliseconds. -/
def everyTick (n count : Nat) : List Event :=
  (List.range' 1 count).map fun i => .retransmit (Duration.fromMillis (i * n))

/-- The packets with a body that were sent. -/
def dataCount (e : Engine) : Nat := e.sent.countP fun packet => 0 < packet.body.len

/-- The packet is in the window, with fewer packets behind it than were sent since there were
`base` of them. It was repeated as soon as the ticks up to `last` allowed. -/
def Awaits (packet : PTCPPacket) (t₀ : Instant) (δ : Duration) (base : Nat) (last : Instant)
    (e : Engine) : Prop :=
  ∃ front tracked back, e.session.sentWindow = front ++ tracked :: back ∧
    tracked.packet = packet ∧ back.length + base ≤ e.dataCount ∧
    tracked.lastSent ≤ t₀ + tracked.retries.toNat * (RETRANSMIT_AFTER + δ) ∧
    (tracked.retries < MAX_RETRANSMITS → last < tracked.lastSent + RETRANSMIT_AFTER)

/-- By now a packet of `t₀` was repeated `MAX_RETRANSMITS` times, if ticks are at most `δ` apart. -/
def deadline (δ : Duration) (t₀ : Instant) : Instant :=
  t₀ + (MAX_RETRANSMITS.toNat - 1) * (RETRANSMIT_AFTER + δ) + RETRANSMIT_AFTER

/-- Ticks come at most `δ` apart. -/
def Ticking (δ : Duration) (last : Instant) (later : List Event) : Prop :=
  (last :: ticks later).IsChain fun t t' => t ≤ t' ∧ t' ≤ t + δ

section Missed

variable {config : Config} {e e' : Engine} {event : Event} {later : List Event}
  {packet : PTCPPacket} {t₀ last now : Instant} {δ : Duration} {base : Nat}

theorem dropWhile_append_cons {α : Type*} {p : α → Bool} {x : α} (hx : p x = false)
    (front back : List α) :
    (front ++ x :: back).dropWhile p = front.dropWhile p ++ x :: back := by
  induction front with
  | nil => exact List.dropWhile_cons_of_neg (by rw [hx]; exact Bool.false_ne_true)
  | cons y front ih =>
    rw [List.cons_append]
    cases hy : p y with
    | true => rw [List.dropWhile_cons_of_pos hy, List.dropWhile_cons_of_pos hy, ih]
    | false =>
      have hne : ¬p y = true := by rw [hy]; exact Bool.false_ne_true
      rw [List.dropWhile_cons_of_neg hne, List.dropWhile_cons_of_neg hne]
      rfl

/-- What a step sends and delivers is added at the end. -/
theorem step_grows (hstep : step config e event = some e') :
    e.sent <+: e'.sent ∧ e.delivered <+: e'.delivered := by
  obtain ⟨_, hsent, hdelivered⟩ := step_effect hstep
  exact ⟨hsent ▸ List.prefix_append _ _, hdelivered ▸ List.prefix_append _ _⟩

theorem run_grows (hrun : Run.run (step config) later e = some e') :
    e.sent <+: e'.sent ∧ e.delivered <+: e'.delivered := by
  refine Run.run_invariant (I := fun t : Engine => e.sent <+: t.sent ∧ e.delivered <+: t.delivered)
    ⟨List.prefix_refl _, List.prefix_refl _⟩ ?_ hrun
  intro event t t' ht hstep
  have hgrows := step_grows hstep
  exact ⟨ht.1.trans hgrows.1, ht.2.trans hgrows.2⟩

theorem dataCount_mono (h : e.sent <+: e'.sent) : e.dataCount ≤ e'.dataCount :=
  h.sublist.countP_le

/-- After a call that sends, with room in the window for the packets since. -/
theorem Awaits.send {body : PTCPBody} (h : Awaits packet t₀ δ base last e)
    (hsession : e'.session = (e.session.send now body).2)
    (hsent : e'.sent = e.sent ++ [(e.session.send now body).1])
    (hroom : e'.dataCount < base + MAX_SENT_WINDOW) : Awaits packet t₀ δ base last e' := by
  obtain ⟨front, tracked, back, hwindow, hpacket, hbehind, hpaced⟩ := h
  have hcount : e'.dataCount = e.dataCount + if 0 < body.len then 1 else 0 := by
    rw [dataCount, hsent, List.countP_append, List.countP_singleton]
    simp only [decide_eq_true_eq]
    rfl
  by_cases hpos : 0 < body.len
  · rw [if_pos hpos] at hcount
    have hwindow' : e'.session.sentWindow =
        PTCPSession.track e.session.sentWindow now (e.session.send now body).1 := by
      rw [hsession]
      exact if_pos hpos
    rw [PTCPSession.track, hwindow] at hwindow'
    cases front with
    | nil =>
      -- the packet is the first, so the window is not full
      have hfree : ¬MAX_SENT_WINDOW ≤ (tracked :: back).length := by
        rw [List.length_cons]
        omega
      rw [List.nil_append, if_neg hfree, List.cons_append] at hwindow'
      refine ⟨[], tracked, back ++ [_], hwindow', hpacket, ?_, hpaced⟩
      rw [List.length_append, List.length_singleton]
      omega
    | cons first front =>
      obtain ⟨front', hfront⟩ : ∃ front', (if MAX_SENT_WINDOW ≤
          (first :: front ++ tracked :: back).length then
            (first :: front ++ tracked :: back).drop 1 else first :: front ++ tracked :: back) =
          front' ++ tracked :: back := by
        split
        · exact ⟨front, rfl⟩
        · exact ⟨first :: front, rfl⟩
      rw [hfront, List.append_assoc, List.cons_append] at hwindow'
      refine ⟨front', tracked, back ++ [_], hwindow', hpacket, ?_, hpaced⟩
      rw [List.length_append, List.length_singleton]
      omega
  · have hwindow' : e'.session.sentWindow = e.session.sentWindow := by
      rw [hsession]
      exact if_neg hpos
    rw [if_neg hpos] at hcount
    exact ⟨front, tracked, back, hwindow'.trans hwindow, hpacket, hcount ▸ hbehind, hpaced⟩

theorem Awaits.receive {p : PTCPPacket} (h : Awaits packet t₀ δ base last e)
    (hsession : e'.session = (e.session.recvPacket config.gapTimeout now p).2)
    (hsent : e'.sent = e.sent) (hunacknowledged : acknowledges p.recv packet = false) :
    Awaits packet t₀ δ base last e' := by
  obtain ⟨front, tracked, back, hwindow, hpacket, hbehind, hpaced⟩ := h
  have hwindow' := sentWindow_recvPacket
    (Prod.eta (e.session.recvPacket config.gapTimeout now p)).symm
  rw [← hsession, hwindow, dropWhile_append_cons (hpacket ▸ hunacknowledged)] at hwindow'
  refine ⟨_, tracked, back, hwindow', hpacket, ?_, hpaced⟩
  rw [dataCount, hsent]
  exact hbehind

theorem le_of_repeated {start sent tick next wait slack n : Nat}
    (hsent : sent ≤ start + n * (wait + slack)) (hsoon : tick < sent + wait)
    (hlate : next ≤ tick + slack) : next ≤ start + (n + 1) * (wait + slack) := by
  have hmul : (n + 1) * (wait + slack) = n * (wait + slack) + (wait + slack) := Nat.succ_mul _ _
  omega

theorem not_lt_of_repeated {start sent now wait slack n limit : Nat}
    (hsent : sent ≤ start + n * (wait + slack)) (hlimit : n ≤ limit)
    (hlate : start + limit * (wait + slack) + wait ≤ now) : ¬now < sent + wait := by
  have hmul := Nat.mul_le_mul_right (wait + slack) hlimit
  omega

/-- A tick repeats the packet if it is due, and then it is not late by more than `δ`. -/
theorem Awaits.retransmit (h : Awaits packet t₀ δ base last e) (hlate : now ≤ last + δ) :
    Awaits packet t₀ δ base now (e.retransmit now) := by
  obtain ⟨front, tracked, back, hwindow, hpacket, hbehind, hpaced, hsoon⟩ := h
  have hwindow' : (e.retransmit now).session.sentWindow = e.session.sentWindow.map _ := rfl
  rw [hwindow, List.map_append, List.map_cons] at hwindow'
  refine ⟨_, _, _, hwindow', ?_, ?_, ?_⟩
  · split <;> exact hpacket
  · rw [List.length_map]
    exact hbehind
  · split
    · next hdue =>
      have hlimit : tracked.retries < MAX_RETRANSMITS := of_decide_eq_true (Bool.and_eq_true_iff.mp hdue).1
      have hretries : (tracked.retries + 1).toNat = tracked.retries.toNat + 1 := by
        have hlt : tracked.retries.toNat < 50 := UInt8.lt_iff_toNat_lt.mp hlimit
        show (tracked.retries.toNat + 1) % 256 = _
        exact Nat.mod_eq_of_lt (by omega)
      refine ⟨?_, fun _ => ?_⟩
      · show now ≤ t₀ + (tracked.retries + 1).toNat * (RETRANSMIT_AFTER + δ)
        rw [hretries]
        exact le_of_repeated hpaced (hsoon hlimit) hlate
      · have hpos : 0 < RETRANSMIT_AFTER := by decide
        exact Nat.lt_add_of_pos_right hpos
    · next hdue =>
      refine ⟨hpaced, fun hlimit => Nat.lt_of_not_le fun hwait => hdue ?_⟩
      exact Bool.and_eq_true_iff.mpr ⟨decide_eq_true hlimit,
        decide_eq_true ((le_elapsed_iff (by decide)).mpr hwait)⟩

/-- At the deadline all repetitions are used up. -/
theorem Awaits.exits (h : Awaits packet t₀ δ base now (e.retransmit now))
    (hlate : deadline δ t₀ ≤ now)
    (hidle : e.session.lastProgress + Duration.fromMillis 15000 ≤ now) :
    (e.retransmit now).exited = true := by
  obtain ⟨front, tracked, back, hwindow, _, _, hpaced, hsoon⟩ := h
  have hlimit : ¬tracked.retries < MAX_RETRANSMITS := by
    intro hlt
    have hlt' : tracked.retries.toNat < MAX_RETRANSMITS.toNat := UInt8.lt_iff_toNat_lt.mp hlt
    exact absurd (hsoon hlt) (not_lt_of_repeated hpaced (Nat.le_sub_one_of_lt hlt') hlate)
  refine List.any_eq_true.mpr ⟨tracked, ?_, ?_⟩
  · show tracked ∈ (e.retransmit now).session.sentWindow
    rw [hwindow]
    exact List.mem_append_right _ List.mem_cons_self
  · exact Bool.and_eq_true_iff.mpr ⟨decide_eq_true (UInt8.not_lt.mp hlimit),
      decide_eq_true ((le_elapsed_iff (by decide)).mpr hidle)⟩

/-- Nothing happens after the process has ended. -/
theorem eq_of_exited (hexited : e.exited = true) (hrun : Run.run (step config) later e = some e') :
    e' = e := by
  cases later with
  | nil => exact (Option.some.inj hrun).symm
  | cons event later =>
    obtain ⟨t, ht, _⟩ := Option.bind_eq_some_iff.mp hrun
    unfold Engine.step at ht
    rw [if_pos hexited] at ht
    cases ht

/-- An engine with a packet that is never acknowledged exits by the first tick after the
deadline. -/
theorem Awaits.exits_of_run (h : Awaits packet t₀ δ base last e)
    (hrun : Run.run (step config) later e = some e')
    (hunacknowledged : ∀ p ∈ received later, acknowledges p.recv packet = false)
    (hquiet : e'.delivered = e.delivered) (hroom : e'.dataCount < base + MAX_SENT_WINDOW)
    (hticking : Ticking δ last later) (hnow : (ticks later).getLast? = some now)
    (hlate : deadline δ t₀ ≤ now)
    (hidle : e.session.lastProgress + Duration.fromMillis 15000 ≤ now) : e'.exited = true := by
  induction later generalizing e last with
  | nil => cases hnow
  | cons event later ih =>
    obtain ⟨f, hstep, hrest⟩ := Option.bind_eq_some_iff.mp hrun
    obtain ⟨hsession, hsent, hdelivered⟩ := step_effect hstep
    have hgrows := run_grows hrest
    have hroom' : f.dataCount < base + MAX_SENT_WINDOW :=
      Nat.lt_of_le_of_lt (dataCount_mono hgrows.1) hroom
    have hquiet' : f.delivered = e.delivered := by
      have hle := (step_grows hstep).2
      exact (hle.eq_of_length_le ((hquiet ▸ hgrows.2).length_le)).symm
    have hlater : ∀ p ∈ received later, acknowledges p.recv packet = false := by
      intro p hp
      refine hunacknowledged p ?_
      rw [received, List.filterMap_cons]
      split
      · exact hp
      · exact List.mem_cons_of_mem _ hp
    have hidle' (hprogress : f.session.lastProgress = e.session.lastProgress) :
        f.session.lastProgress + Duration.fromMillis 15000 ≤ now := hprogress ▸ hidle
    cases usage e event with
    | nothing hcall _ htick =>
      rw [hcall] at hsession hsent
      rw [Ticking, ticks, List.filterMap_cons_none htick] at hticking
      rw [ticks, List.filterMap_cons_none htick] at hnow
      have hkept : Awaits packet t₀ δ base last f := by
        obtain ⟨front, tracked, back, hwindow, hpacket, hbehind, hpaced⟩ := h
        refine ⟨front, tracked, back, hsession ▸ hwindow, hpacket, ?_, hpaced⟩
        rw [dataCount, hsent]
        exact hbehind.trans (Nat.le_of_eq (congrArg _ (List.append_nil _).symm))
      exact ih hkept hrest hlater (hquiet.trans hquiet'.symm) hticking hnow
        (hidle' (congrArg PTCPSession.lastProgress hsession))
    | send t body hcall _ _ htick =>
      rw [hcall] at hsession hsent
      rw [Ticking, ticks, List.filterMap_cons_none htick] at hticking
      rw [ticks, List.filterMap_cons_none htick] at hnow
      exact ih (h.send hsession hsent hroom') hrest hlater (hquiet.trans hquiet'.symm) hticking hnow
        (hidle' ((congrArg PTCPSession.lastProgress hsession).trans rfl))
    | receive t p =>
      have hcovers : acknowledges p.recv packet = false :=
        hunacknowledged p List.mem_cons_self
      have hnone : (e.session.recvPacket config.gapTimeout t p).1 = [] := by
        have heq : e.delivered ++ (e.session.recvPacket config.gapTimeout t p).1 = e.delivered :=
          hdelivered.symm.trans hquiet'
        exact List.append_right_eq_self.mp heq
      have hprogress := recvPacket_lastProgress
        (Prod.eta (e.session.recvPacket config.gapTimeout t p)).symm
      rw [hnone] at hprogress
      exact ih (h.receive hsession (hsent.trans (List.append_nil _)) hcovers) hrest hlater
        (hquiet.trans hquiet'.symm) hticking hnow
        (hidle' ((congrArg PTCPSession.lastProgress hsession).trans hprogress))
    | retransmit t =>
      obtain ⟨⟨_, hsoon⟩, hrest'⟩ := List.isChain_cons_cons.mp hticking
      obtain rfl : e.retransmit t = f := by
        unfold Engine.step at hstep
        split at hstep
        · cases hstep
        · exact Option.some.inj hstep
      have hrepeated := h.retransmit hsoon
      cases hticks : ticks later with
      | nil =>
        have hlast : some t = some now := by
          rw [← hnow]
          show _ = (t :: ticks later).getLast?
          rw [hticks]
          rfl
        obtain rfl := Option.some.inj hlast
        have hexited := hrepeated.exits hlate hidle
        rw [eq_of_exited hexited hrest]
        exact hexited
      | cons t' ts =>
        refine ih hrepeated hrest hlater (hquiet.trans hquiet'.symm) hrest' ?_ hidle
        have hlast : (t :: ticks later).getLast? = some now := hnow
        rw [hticks, List.getLast?_cons_cons] at hlast
        rw [hticks]
        exact hlast

/-- A packet with a body that is sent is the last of the window. -/
theorem awaits_of_sent (hstep : step config e event = some e') (hsent : e'.sent = e.sent ++ [packet])
    (hinstant : event.instant = some t₀) (hpos : 0 < packet.body.len) :
    Awaits packet t₀ δ e'.dataCount t₀ e' ∧ e'.session.lastProgress = e.session.lastProgress := by
  obtain ⟨hsession, hsent', _⟩ := step_effect hstep
  have hnew : (e.callOf event).bind (Call.outgoing e.session) = some packet := by
    have heq := List.append_cancel_left (hsent.symm.trans hsent')
    cases hcall : (e.callOf event).bind (Call.outgoing e.session) with
    | none =>
      rw [hcall] at heq
      cases heq
    | some p =>
      rw [hcall] at heq
      rw [(List.cons.inj heq).1]
  cases usage e event with
  | nothing hcall _ _ =>
    rw [hcall] at hnew
    cases hnew
  | send now body hcall hnow _ _ =>
    rw [hcall] at hnew hsession
    obtain rfl : (e.session.send now body).1 = packet := Option.some.inj hnew
    obtain rfl : now = t₀ := Option.some.inj (hnow.symm.trans hinstant)
    have hwindow : e'.session.sentWindow =
        PTCPSession.track e.session.sentWindow now (e.session.send now body).1 :=
      (congrArg PTCPSession.sentWindow hsession).trans (if_pos hpos)
    refine ⟨⟨_, _, [], hwindow, rfl, Nat.le_of_eq (Nat.zero_add _), Nat.le_add_right _ _,
      fun _ => ?_⟩, (congrArg PTCPSession.lastProgress hsession).trans rfl⟩
    have hwait : 0 < RETRANSMIT_AFTER := by decide
    exact Nat.lt_add_of_pos_right hwait
  | receive => cases hnew
  | retransmit => cases hnew

end Missed

/-- A packet with a body was sent at `t₀` and is never acknowledged, nothing is delivered, and
the loop that retransmits runs at least every `δ`. While the process goes on, the last tick is
before the deadline of the packet, or the last progress is less than 15 seconds ago. -/
theorem stall_detected {config : Config} {e e₁ e₂ : Engine} {event : Event} {later : List Event}
    {packet : PTCPPacket} {t₀ now : Instant} {δ : Duration}
    (hstep : step config e event = some e₁) (hsent : e₁.sent = e.sent ++ [packet])
    (hinstant : event.instant = some t₀) (hpos : 0 < packet.body.len)
    (hrun : Run.run (step config) later e₁ = some e₂)
    (hunacknowledged : ∀ p ∈ received later, acknowledges p.recv packet = false)
    (hquiet : e₂.delivered = e₁.delivered) (hroom : e₂.dataCount < e₁.dataCount + MAX_SENT_WINDOW)
    (hticking : Ticking δ t₀ later) (hnow : (ticks later).getLast? = some now)
    (halive : e₂.exited = false) :
    now < deadline δ t₀ ∨ now < e.session.lastProgress + Duration.fromMillis 15000 := by
  obtain ⟨hawaits, hprogress⟩ := awaits_of_sent hstep hsent hinstant hpos
  by_contra hover
  obtain ⟨hlate, hidle⟩ := not_or.mp hover
  have hexited := hawaits.exits_of_run hrun hunacknowledged hquiet hroom hticking hnow
    (Nat.le_of_not_lt hlate) (hprogress ▸ Nat.le_of_not_lt hidle)
  rw [halive] at hexited
  cases hexited

/-- Four repetitions of a heartbeat. -/
theorem stall_detected_repeated : ∃ e e₁ e₂,
    Run.run (step ⟨554, gapTimeout none⟩) [.heartbeat, .dhWriterRecv] (start (PTCPSession.new 0)) =
      some e ∧
    step ⟨554, gapTimeout none⟩ e (.dhWriterSend 0) = some e₁ ∧
    Run.run (step ⟨554, gapTimeout none⟩) (everyTick 600 4) e₁ = some e₂ ∧
    e₂.session.sentWindow.map TrackedPacket.retries = [4] ∧
    (Duration.fromMillis 2400 < deadline (Duration.fromMillis 600) 0 ∨
      Duration.fromMillis 2400 < e.session.lastProgress + Duration.fromMillis 15000) := by
  refine ⟨_, _, _, rfl, rfl, rfl, rfl, ?_⟩
  refine @stall_detected ⟨554, gapTimeout none⟩ _ _ _ (.dhWriterSend 0) (everyTick 600 4)
    ⟨0, 0, 0x0000FFFF, 0, 0, .heartbeat⟩ 0 (Duration.fromMillis 2400) (Duration.fromMillis 600)
    rfl rfl rfl (by decide) rfl ?_ rfl (by decide) ?_ rfl rfl
  · intro p hp
    cases hp
  · unfold Ticking
    decide

end Engine

end DahuaBridge
