import DahuaBridge.Ptcp.Receiver

/-!
# The timer of a gap

`gap_since` is set by the first packet beyond a gap and cleared when the buffer is empty.
A drain that fills the gap and stops at another one leaves it as it is, although it starts
the count of packets again. The second gap is then timed from the start of the first.

* `TimedGap`: what `gap_since` says about the receive offset.
* `TimedGap.outlasts_iff`: a gap that a call finds expired has lasted, exactly if the last
  such drain is as long ago.
* `gap_outlasts_iff`: the same for every run.
-/

namespace DahuaBridge

open PTCPSession

/-- The call skips a gap, and it would not have done so if the gap had not expired. -/
def ExpiresOn (s : PTCPSession) (timeout : Duration) (now : Instant) (packet : PTCPPacket) : Prop :=
  s.SkipsOn timeout now packet ∧
    ({ s.bufferAhead now packet with gapSince := none }).skipsGap timeout now packet = false

instance (s : PTCPSession) (timeout : Duration) (now : Instant) (packet : PTCPPacket) :
    Decidable (ExpiresOn s timeout now packet) :=
  inferInstanceAs (Decidable ((s.IsAhead packet ∧ _) ∧ _))

/-- If the call skips for the timeout alone, then the receive offset has had its value for
as long as the timeout. -/
def OutlastsTimeout (timeout : Duration) (r : Receiver) (d : Delivery) : Prop :=
  ExpiresOn r.session timeout d.2 d.1 → r.since + timeout ≤ d.2

/-- If the call skips for the timeout alone, then the last drain that left packets behind is
as long ago as the timeout, or the buffer has been empty since. -/
def DrainOutlasted (timeout : Duration) (r : Receiver) (d : Delivery) : Prop :=
  ExpiresOn r.session timeout d.2 d.1 →
    ∀ drained, r.partialDrain = some drained → drained + timeout ≤ d.2

/-- What the start of the gap says: unless a drain has left packets behind, the receive
offset is at least as old. -/
structure TimedGap (r : Receiver) : Prop where
  past : r.since ≤ r.clock
  empty : r.session.pending.entries = [] → r.partialDrain = none
  drained : ∀ drained, r.partialDrain = some drained → r.since = drained
  timed : r.partialDrain = none → ∀ started, r.session.gapSince = some started → r.since ≤ started

section Timer

variable {timeout : Duration} {r : Receiver} {d : Delivery} {ready : List PTCPPacket}
  {s : PTCPSession}

theorem timedGap_start {s₀ : PTCPSession} {now : Instant} (hgap : s₀.gapSince = none) :
    TimedGap (.start s₀ now) where
  past := Nat.le_refl now
  empty _ := rfl
  drained _ h := by cases h
  timed _ started h := by
    have : s₀.gapSince = some started := h
    rw [hgap] at this
    cases this

/-- After a call that leaves the buffer empty there is no gap, unless it changed nothing. -/
theorem gapSince_of_emptied (hrecv : r.session.recvPacket timeout d.2 d.1 = (ready, s))
    (hempty : s.pending.entries = []) : s.gapSince = none ∨ r.session.SameReceiver s := by
  have hclears {t : PTCPSession} (h : t.Drained ready s) : s.gapSince = none := by
    rw [h.gapSince, hempty]
    rfl
  rcases recvPacket_spec hrecv with ⟨_, _, hsame⟩ | ⟨_, _, _, hsame⟩ | ⟨_, hdrained⟩ |
    ⟨_, _, _, _, hdrained⟩
  · exact .inr hsame
  · -- the packet itself is in the buffer
    have hself : (⟨d.1.sent, d.1⟩ : Sigma fun _ : U32 => PTCPPacket) ∈ s.pending.entries := by
      rw [hsame.pending]
      exact AList.mem_lookup_iff.mp (AList.lookup_insert _)
    rw [hempty] at hself
    cases hself
  · exact .inl (hclears hdrained)
  · exact .inl (hclears hdrained)

theorem TimedGap.note (h : TimedGap r) (hclock : r.InOrder d)
    (hrecv : r.session.recvPacket timeout d.2 d.1 = (ready, s)) : TimedGap (r.note d ready s) := by
  have hpast : (r.note d ready s).since ≤ d.2 := by
    show (if s.recv = r.session.recv then r.since else d.2) ≤ d.2
    split
    · exact Nat.le_trans h.past hclock
    · exact Nat.le_refl d.2
  by_cases hempty : s.pending.entries = []
  · have hnone : (r.note d ready s).partialDrain = none := by simp [Receiver.note, hempty]
    refine ⟨hpast, fun _ => hnone, fun drained hdrained => ?_, fun _ started hstarted => ?_⟩
    · rw [hnone] at hdrained
      cases hdrained
    · have hstarted : s.gapSince = some started := hstarted
      rcases gapSince_of_emptied hrecv hempty with hcleared | hsame
      · rw [hcleared] at hstarted
        cases hstarted
      · have hsince : (r.note d ready s).since = r.since := if_pos hsame.recv
        rw [hsince]
        exact h.timed (h.empty (hsame.pending ▸ hempty)) started (hsame.gapSince ▸ hstarted)
  · have hleft : (r.note d ready s).partialDrain =
        if s.recv = r.session.recv then r.partialDrain else some d.2 := by
      simp [Receiver.note, hempty]
    have hsince : (r.note d ready s).since =
        if s.recv = r.session.recv then r.since else d.2 := rfl
    by_cases hsame : s.recv = r.session.recv
    · rw [if_pos hsame] at hleft hsince
      refine ⟨hpast, fun hpending => absurd hpending hempty, fun drained hdrained => ?_,
        fun hnone started hstarted => ?_⟩
      · rw [hsince]
        exact h.drained drained (hleft ▸ hdrained)
      · rw [hsince]
        rcases recvPacket_gapSince hrecv hstarted with hold | ⟨_, _, rfl⟩
        · exact h.timed (hleft ▸ hnone) started hold
        · exact Nat.le_trans h.past hclock
    · rw [if_neg hsame] at hleft hsince
      refine ⟨hpast, fun hpending => absurd hpending hempty, fun drained hdrained => ?_,
        fun hnone _ _ => ?_⟩
      · rw [hsince]
        exact Option.some.inj (hleft ▸ hdrained)
      · rw [hleft] at hnone
        cases hnone

theorem add_le_of_le_sub {since started now timeout : Nat} (hle : since ≤ started)
    (hpos : 0 < timeout) (helapsed : timeout ≤ now - started) : since + timeout ≤ now := by omega

/-- A gap that the call finds expired was there before the call. -/
theorem ExpiresOn.elapsed (h : ExpiresOn r.session timeout d.2 d.1) (hpos : 0 < timeout) :
    ∃ started, r.session.gapSince = some started ∧ timeout ≤ started.elapsed d.2 := by
  obtain ⟨⟨_, hskips⟩, hwithout⟩ := h
  have hexpired : (r.session.bufferAhead d.2 d.1).gapExpired timeout d.2 = true := by
    by_contra hnot
    rw [Bool.not_eq_true] at hnot
    have hagree : (r.session.bufferAhead d.2 d.1).skipsGap timeout d.2 d.1 =
        ({ r.session.bufferAhead d.2 d.1 with gapSince := none }).skipsGap timeout d.2 d.1 := by
      unfold skipsGap
      rw [hnot]
      rfl
    exact absurd (hskips.symm.trans (hagree.trans hwithout)) (by decide)
  unfold gapExpired bufferAhead at hexpired
  cases hsince : r.session.gapSince with
  | some started =>
    rw [hsince] at hexpired
    exact ⟨started, rfl, of_decide_eq_true hexpired⟩
  | none =>
    -- this call has just started the gap
    rw [hsince] at hexpired
    have hle : timeout ≤ d.2 - d.2 := of_decide_eq_true hexpired
    rw [Nat.sub_self] at hle
    exact absurd hpos (Nat.not_lt.mpr hle)

/-- One call: a gap that has expired has lasted, exactly if no drain within the timeout has
left packets behind. -/
theorem TimedGap.outlasts_iff (h : TimedGap r) (hpos : 0 < timeout) :
    OutlastsTimeout timeout r d ↔ DrainOutlasted timeout r d := by
  unfold OutlastsTimeout DrainOutlasted
  refine forall_congr' fun hexpires => ?_
  cases hleft : r.partialDrain with
  | some drained =>
    rw [h.drained drained hleft]
    exact ⟨fun hle _ heq => Option.some.inj heq ▸ hle, fun hle => hle drained rfl⟩
  | none =>
    obtain ⟨started, hstarted, helapsed⟩ := hexpires.elapsed hpos
    exact iff_of_true (add_le_of_le_sub (h.timed hleft started hstarted) hpos helapsed)
      fun _ heq => by cases heq

end Timer

/-- Over every run with a clock that does not go back: no gap is given up for the timeout
alone before it has lasted that long, exactly if this never happens within the timeout of a
drain that left packets behind. -/
theorem gap_outlasts_iff (millis : Option Nat) {s₀ : PTCPSession} {now : Instant}
    {deliveries : List Delivery} (hgap : s₀.gapSince = none)
    (hclock : Run.Along (Receiver.step (gapTimeout millis)) Receiver.InOrder deliveries
      (.start s₀ now)) :
    Run.Along (Receiver.step (gapTimeout millis)) (OutlastsTimeout (gapTimeout millis)) deliveries
        (.start s₀ now) ↔
      Run.Along (Receiver.step (gapTimeout millis)) (DrainOutlasted (gapTimeout millis)) deliveries
        (.start s₀ now) := by
  refine Run.along_congr (timedGap_start hgap) (fun d r hinOrder h => ?_) hclock
  refine ⟨h.outlasts_iff (gapTimeout_pos millis), fun r' hstep => ?_⟩
  obtain ⟨ready, s, hrecv, rfl⟩ := Receiver.step_eq_some hstep
  exact h.note hinOrder hrecv

/-- A payload with four bytes of data, and so 16 bytes of the stream. -/
def videoAt (sent : U32) : PTCPPacket := ⟨sent, 0, 0, 0, 0, .payload ⟨7, [0x24, 0, 0, 0]⟩⟩

/-- The gap before byte 16 is noted at once and filled after 1.9 s. The one before byte 48
is given up 0.1 s later. -/
def overlappingGaps : List Delivery :=
  [(videoAt 16, 0), (videoAt 48, 0), (videoAt 0, 1900000000), (videoAt 80, 2000000000)]

/-- A single gap, given up after the timeout. -/
theorem gap_outlasts_iff_single : Run.Along (Receiver.step (gapTimeout none))
    (OutlastsTimeout (gapTimeout none)) [(videoAt 16, 0), (videoAt 48, 2000000000)]
    (.start (PTCPSession.new 0) 0) := by
  refine (gap_outlasts_iff none rfl (by decide)).mpr ?_
  refine ⟨fun _ _ h => (by cases h), fun t ht => ?_⟩
  obtain rfl := Option.some.inj ht
  exact ⟨fun _ _ h => (by cases h), fun _ _ => trivial⟩

theorem overlappingGaps_early : ¬ ∀ deliveries,
    Run.Along (Receiver.step (gapTimeout none)) Receiver.InOrder deliveries
      (.start (PTCPSession.new 0) 0) →
    Run.Along (Receiver.step (gapTimeout none)) (OutlastsTimeout (gapTimeout none)) deliveries
      (.start (PTCPSession.new 0) 0) := by
  intro h
  have hlast := h overlappingGaps (by decide)
  have hfour := ((hlast.2 _ rfl).2 _ rfl).2 _ rfl
  exact absurd (hfour.1 (by decide)) (by decide)

end DahuaBridge
