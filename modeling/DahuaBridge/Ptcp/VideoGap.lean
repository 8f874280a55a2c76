import DahuaBridge.Ptcp.Skip

/-!
# Video in a skipped gap

Before the gap timeout `recv` gives up a gap only if no payload is buffered. But the
bytes that it passes over are those that are missing, and nothing is known of them: a
payload among them is lost.

* `skipsOn_iff`: before the timeout, a gap is given up exactly on `GivesUp`.
* `Skips.video_kept_step`: one call loses a payload exactly if the gap that it gives up
  has one.
* `video_kept_iff`: the same for every run.
-/

namespace DahuaBridge

open Tiling PTCPSession

/-- The reasons to give up a gap that do not need the timeout: no payload is buffered, and
the packet is a recovery command or fills the count of packets beyond the gap. -/
structure GivesUp (s : PTCPSession) (packet : PTCPPacket) : Prop where
  control : ∀ entry ∈ (s.buffered packet).entries, entry.2.body.isPayload = false
  count : isRecoveryCommand packet = true ∨ GAP_PACKET_LIMIT ≤ s.gapPackets + 1

/-- A gap that has not expired is given up exactly on `GivesUp`. -/
theorem skipsOn_iff {s : PTCPSession} {timeout : Duration} {now : Instant} {packet : PTCPPacket}
    (hallow : s.allowGapSkip = true) (hahead : s.IsAhead packet)
    (hfresh : (s.bufferAhead now packet).gapExpired timeout now = false) :
    s.SkipsOn timeout now packet ↔ GivesUp s packet := by
  have hself : (⟨packet.sent, packet⟩ : Sigma fun _ : U32 => PTCPPacket) ∈
      (s.buffered packet).entries := AList.mem_lookup_iff.mp (AList.lookup_insert _)
  have hskips : (s.bufferAhead now packet).skipsGap timeout now packet = true ↔
      (packet.body.isPayload = false ∧
        (s.buffered packet).entries.any (fun entry => entry.2.body.isPayload) = false) ∧
      (isRecoveryCommand packet = true ∨ GAP_PACKET_LIMIT ≤ s.gapPackets + 1) := by
    rw [skipsGap, hfresh]
    simp only [bufferAhead, buffered, hallow, Bool.true_and, Bool.or_false, Bool.and_eq_true,
      Bool.not_eq_true', Bool.or_eq_true, decide_eq_true_eq]
  rw [SkipsOn, hskips, and_iff_right hahead, List.any_eq_false]
  constructor
  · rintro ⟨⟨_, hcontrol⟩, hcount⟩
    exact ⟨fun entry hentry => Bool.eq_false_iff.mpr (hcontrol entry hentry), hcount⟩
  · rintro ⟨hcontrol, hcount⟩
    exact ⟨⟨hcontrol _ hself, fun entry hentry => Bool.eq_false_iff.mp (hcontrol entry hentry)⟩,
      hcount⟩

/-! ## The clock of a gap -/

/-- The first gap was noted no later than the start of the present one, and not in the
future. -/
structure GapNoted (r : Receiver) : Prop where
  noted : ∀ since, r.session.gapSince = some since → ∃ first, r.firstGap = some first ∧ first ≤ since
  past : ∀ first, r.firstGap = some first → first ≤ r.clock

/-- The call comes before the timeout has elapsed since the first gap. -/
def BeforeTimeout (timeout : Duration) (r : Receiver) (d : Delivery) : Prop :=
  ∀ first, r.firstGap = some first → d.2 < first + timeout

section Clock

variable {timeout : Duration} {r : Receiver} {d : Delivery} {ready : List PTCPPacket}
  {s : PTCPSession}

theorem gapNoted_start {s₀ : PTCPSession} {now : Instant} (hgap : s₀.gapSince = none) :
    GapNoted (.start s₀ now) where
  noted since h := by
    have : s₀.gapSince = some since := h
    rw [hgap] at this
    cases this
  past _ h := by cases h

theorem not_expired {first since now timeout : Nat} (hle : first ≤ since) (hpos : 0 < timeout)
    (hlt : now < first + timeout) : ¬ timeout ≤ now - since := by omega

/-- Before the timeout the gap has not expired. -/
theorem GapNoted.fresh (h : GapNoted r) (hpos : 0 < timeout) (hbefore : BeforeTimeout timeout r d) :
    (r.session.bufferAhead d.2 d.1).gapExpired timeout d.2 = false := by
  simp only [gapExpired, bufferAhead]
  cases hsince : r.session.gapSince with
  | none => exact decide_eq_false (not_expired (Nat.le_refl d.2) hpos (Nat.lt_add_of_pos_right hpos))
  | some since =>
    obtain ⟨first, hfirst, hle⟩ := h.noted since hsince
    exact decide_eq_false (not_expired hle hpos (hbefore first hfirst))

theorem GapNoted.note (h : GapNoted r) (hclock : r.InOrder d)
    (hrecv : r.session.recvPacket timeout d.2 d.1 = (ready, s)) : GapNoted (r.note d ready s) := by
  have hkeeps {first : Instant} (hfirst : r.firstGap = some first) :
      (r.note d ready s).firstGap = some first := by
    simp only [Receiver.note, hfirst]
    rfl
  have hpast : ∀ first, (r.note d ready s).firstGap = some first → first ≤ d.2 := by
    intro first hfirst
    cases hold : r.firstGap with
    | some first' =>
      obtain rfl : first' = first := Option.some.inj ((hkeeps hold).symm.trans hfirst)
      exact Nat.le_trans (h.past first' hold) hclock
    | none =>
      simp only [Receiver.note, hold] at hfirst
      by_cases hahead : r.session.IsAhead d.1
      · rw [if_pos hahead] at hfirst
        exact Nat.le_of_eq (Option.some.inj hfirst).symm
      · rw [if_neg hahead] at hfirst
        cases hfirst
  refine ⟨fun since hsince => ?_, hpast⟩
  rcases recvPacket_gapSince hrecv hsince with hold | ⟨_, hahead, rfl⟩
  · obtain ⟨first, hfirst, hle⟩ := h.noted since hold
    exact ⟨first, hkeeps hfirst, hle⟩
  · obtain ⟨first, hfirst⟩ : ∃ first, (r.note d ready s).firstGap = some first := by
      simp only [Receiver.note, if_pos hahead]
      cases r.firstGap with
      | some first => exact ⟨first, rfl⟩
      | none => exact ⟨_, rfl⟩
    exact ⟨first, hfirst, hpast first hfirst⟩

end Clock

/-! ## Lost video -/

/-- Every payload of the stream that the receive offset has passed was delivered. -/
def VideoKept (P : List PTCPPacket) (r : Receiver) : Prop :=
  ∀ j packet, P[j]? = some packet → packet.body.isPayload = true → (startOf P j : Int) < r.moved →
    packet ∈ r.delivered

/-- If the call finds reason to give up a gap, then the packets of the stream from the
receive offset up to the closest buffered start are no payloads. -/
def ControlGap (P : List PTCPPacket) (r : Receiver) (d : Delivery) : Prop :=
  r.session.IsAhead d.1 → GivesUp r.session d.1 →
    ∀ start, (r.session.bufferAhead d.2 d.1).nextStart = some start →
      ∀ j packet, P[j]? = some packet → r.moved ≤ startOf P j →
        (startOf P j : Int) < r.moved + (start - r.session.recv).toNat →
        packet.body.isPayload = false

/-- A packet of the stream, before the timeout. -/
structure TimelyFrom (P : List PTCPPacket) (timeout : Duration) (r : Receiver) (d : Delivery) :
    Prop where
  mem : d.1 ∈ P
  inOrder : r.InOrder d
  before : BeforeTimeout timeout r d

section Video

variable {base n : Nat} {P : List PTCPPacket} {timeout : Duration} {r : Receiver} {d : Delivery}
  {ready : List PTCPPacket} {s : PTCPSession}

theorem mem_take_drop {m n' j : Nat} {packet : PTCPPacket} (hj : P[j]? = some packet) (hmj : m ≤ j)
    (hjn' : j < n') : packet ∈ (P.take n').drop m := by
  rw [List.mem_iff_getElem?]
  refine ⟨j - m, ?_⟩
  rw [List.getElem?_drop, Nat.add_sub_cancel' hmj, List.getElem?_take_of_lt hjn', hj]

/-- In a short stream the window is no restriction. -/
theorem Skips.fromStream (h : Skips base P r n) (htotal : total PTCPPacket.bodyLen P < HALF_WINDOW)
    (hmem : d.1 ∈ P) : FromStream P r d := by
  obtain ⟨i, hi⟩ := List.mem_iff_getElem?.mp hmem
  have hstart : startOf P i ≤ total PTCPPacket.bodyLen P := offset_le_total
  have hoffset : startOf P n ≤ total PTCPPacket.bodyLen P := offset_le_total
  refine ⟨i, hi, ?_, ?_⟩ <;> rw [h.moved] <;> omega

/-- A packet of a short stream stands in it once. -/
theorem eq_index {j k : Nat} {packet : PTCPPacket} (hP : Stream base P)
    (htotal : total PTCPPacket.bodyLen P < HALF_WINDOW) (hj : P[j]? = some packet)
    (hk : P[k]? = some packet) : j = k := by
  have hjlt : j < P.length := (List.getElem?_eq_some_iff.mp hj).1
  have hklt : k < P.length := (List.getElem?_eq_some_iff.mp hk).1
  have hjle : startOf P j ≤ total PTCPPacket.bodyLen P := offset_le_total
  have hkle : startOf P k ≤ total PTCPPacket.bodyLen P := offset_le_total
  simp only [HALF_WINDOW] at htotal
  exact hP.key_inj hjlt (Nat.le_of_lt hklt) (by omega) (by omega)
    ((hP.sent_eq hj).symm.trans (hP.sent_eq hk))

/-- One call before the timeout loses a payload exactly if the gap that it gives up has
one. -/
theorem Skips.video_kept_step (hP : Stream base P)
    (htotal : total PTCPPacket.bodyLen P < HALF_WINDOW) (h : Skips base P r n)
    (hnoted : GapNoted r) (hallow : r.session.allowGapSkip = true) (hpos : 0 < timeout)
    (hd : TimelyFrom P timeout r d) (hkept : VideoKept P r)
    (hrecv : r.session.recvPacket timeout d.2 d.1 = (ready, s)) :
    VideoKept P (r.note d ready s) ↔ ControlGap P r d := by
  obtain ⟨m, n', hnm, hmn', rfl, h', hcase⟩ := h.step hP (h.fromStream htotal hd.mem) hrecv
  have hfresh := hnoted.fresh hpos hd.before
  -- what the offset had passed before is kept, and so is what this call delivers
  have hothers {j : Nat} {packet : PTCPPacket} (hj : P[j]? = some packet)
      (hpayload : packet.body.isPayload = true) (hpassed : startOf P j < startOf P n')
      (hout : j < n ∨ m ≤ j) : packet ∈ (r.note d ((P.take n').drop m) s).delivered := by
    have hjlt : j < P.length := (List.getElem?_eq_some_iff.mp hj).1
    rcases hout with hjn | hmj
    · have hlt : startOf P j < startOf P n := offset_lt hP.pos hjn hjlt
      refine List.mem_append_left _ (hkept j packet hj hpayload ?_)
      rw [h.moved]
      exact_mod_cast hlt
    · exact List.mem_append_right _ (mem_take_drop hj hmj (lt_of_offset_lt hpassed))
  rcases hcase with ⟨rfl, hnot⟩ | ⟨hon, hnm, hmn', hstart, _⟩
  · refine iff_of_true (fun j packet hj hpayload hpassed => ?_) fun hahead hgives => ?_
    · rw [h'.moved] at hpassed
      exact hothers hj hpayload (by exact_mod_cast hpassed) (Nat.lt_or_ge j m)
    · exact absurd ((skipsOn_iff hallow hahead hfresh).mpr hgives) hnot
  obtain ⟨_, hold⟩ := h.assembles
  have hnmle : startOf P n ≤ startOf P m := offset_mono (Nat.le_of_lt hnm)
  have hmtotal : startOf P m ≤ total PTCPPacket.bodyLen P := offset_le_total
  have hdist : (keyOf base P m - r.session.recv).toNat = startOf P m - startOf P n := by
    simp only [HALF_WINDOW] at htotal
    rw [hold.recv_eq]
    exact toNat_keyOf_sub hnmle (by omega)
  constructor
  · intro hkept' _ _ start hstart' j packet hj hge hlt
    obtain rfl : keyOf base P m = start := Option.some.inj (hstart.symm.trans hstart')
    rw [h.moved] at hge hlt
    rw [hdist] at hlt
    have hjlt : j < P.length := (List.getElem?_eq_some_iff.mp hj).1
    have hjm : j < m := lt_of_offset_lt (show startOf P j < startOf P m by omega)
    have hpassed : startOf P j < startOf P n' := offset_lt hP.pos (Nat.lt_trans hjm hmn') hjlt
    by_contra hpayload
    rw [Bool.not_eq_false] at hpayload
    have hmem := hkept' j packet hj hpayload (by rw [h'.moved]; exact_mod_cast hpassed)
    -- it was neither delivered before nor by this call
    rcases List.mem_append.mp hmem with hbefore | hnow
    · obtain ⟨k, hk⟩ := List.mem_iff_getElem?.mp (h.delivered.subset hbefore)
      have hkn : k < n := by
        have := (List.getElem?_eq_some_iff.mp hk).1
        rw [List.length_take] at this
        omega
      rw [List.getElem?_take_of_lt hkn] at hk
      obtain rfl := eq_index hP htotal hj hk
      have hback : startOf P j < startOf P n := offset_lt hP.pos hkn hjlt
      omega
    · obtain ⟨k, hk⟩ := List.mem_iff_getElem?.mp hnow
      rw [List.getElem?_drop] at hk
      have hkn' : m + k < n' := by
        have := (List.getElem?_eq_some_iff.mp hk).1
        rw [List.length_take] at this
        omega
      rw [List.getElem?_take_of_lt hkn'] at hk
      obtain rfl := eq_index hP htotal hj hk
      omega
  · intro hgap j packet hj hpayload hpassed
    rw [h'.moved] at hpassed
    have hpassed : startOf P j < startOf P n' := by exact_mod_cast hpassed
    by_cases hout : j < n ∨ m ≤ j
    · exact hothers hj hpayload hpassed hout
    · have hnj : startOf P n ≤ startOf P j := offset_mono (by omega)
      have hjm : startOf P j < startOf P m :=
        offset_lt hP.pos (by omega) (List.getElem?_eq_some_iff.mp hj).1
      have hcontrol := hgap hon.1 ((skipsOn_iff hallow hon.1 hfresh).mp hon) _ hstart j packet hj
        (by rw [h.moved]; exact_mod_cast hnj) (by rw [h.moved, hdist]; omega)
      rw [hcontrol] at hpayload
      cases hpayload

end Video

/-- Over every run before the gap timeout: no payload is ever passed over undelivered,
exactly if every gap that is given up held control packets only. -/
theorem video_kept_iff (millis : Option Nat) {P : List PTCPPacket} {s₀ : PTCPSession}
    {now : Instant} {deliveries : List Delivery} {r : Receiver} (hallow : s₀.allowGapSkip = true)
    (hpending : s₀.pending = ∅) (hgap : s₀.gapSince = none)
    (hlen : ∀ p ∈ P, 1 ≤ p.body.len ∧ p.body.len ≤ MAX_BODY)
    (htiles : Tiles PTCPPacket.sent PTCPPacket.bodyLen s₀.recv P)
    (htotal : total PTCPPacket.bodyLen P < HALF_WINDOW)
    (htimely : Run.Along (Receiver.step (gapTimeout millis)) (TimelyFrom P (gapTimeout millis))
      deliveries (.start s₀ now))
    (hrun : Run.run (Receiver.step (gapTimeout millis)) deliveries (.start s₀ now) = some r) :
    (∀ past t, past <+: deliveries →
      Run.run (Receiver.step (gapTimeout millis)) past (.start s₀ now) = some t → VideoKept P t) ↔
      Run.Along (Receiver.step (gapTimeout millis)) (ControlGap P) deliveries (.start s₀ now) := by
  have hP := stream_of_tiles hlen htiles
  let I (r : Receiver) : Prop :=
    (∃ n, Skips s₀.recv.toNat P r n) ∧ GapNoted r ∧ r.session.allowGapSkip = true
  have hinit : I (.start s₀ now) :=
    ⟨⟨0, skips_start hpending (SeqNum.wrap_toNat _).symm⟩, gapNoted_start hgap, hallow⟩
  have hgood : VideoKept P (.start s₀ now) := fun j packet _ _ hpassed =>
    absurd hpassed (Int.not_lt.mpr (Int.natCast_nonneg _))
  refine Run.reached_iff_along (I := I) ?_ hinit hgood htimely hrun
  rintro d r r' hd ⟨⟨n, h⟩, hnoted, hallow⟩ hkept hstep
  have hallow' := (Receiver.allowGapSkip_step hstep).trans hallow
  obtain ⟨ready, s, hrecv, rfl⟩ := Receiver.step_eq_some hstep
  obtain ⟨_, n', _, _, _, h', _⟩ := h.step hP (h.fromStream htotal hd.mem) hrecv
  exact ⟨⟨⟨n', h'⟩, hnoted.note hd.inOrder hrecv, hallow'⟩,
    h.video_kept_step hP htotal hnoted hallow (gapTimeout_pos millis) hd hkept hrecv⟩

/-- A command, a recovery command, and a payload. -/
def recoveryThenVideo : List PTCPPacket := [⟨0, 0, 0, 0, 0, .command [10, 0, 0, 0]⟩,
  ⟨4, 0, 0x0100FFEB, 1, 0, .command [10, 0, 0, 0]⟩,
  ⟨8, 0, 0, 0, 0, .payload ⟨7, [0x24, 0, 0, 0]⟩⟩]

/-- The first command is lost. The gap is given up, and there is no payload in it. -/
theorem video_kept_iff_gap : ∃ r, Run.run (Receiver.step (gapTimeout none))
      [(recoveryThenVideo[1], 7), (recoveryThenVideo[2], 8)] (.start (PTCPSession.new 0) 0) =
        some r ∧
    (PTCPSession.new 0).IsAhead recoveryThenVideo[1] ∧ r.session.recv = 24 ∧
    recoveryThenVideo[0] ∉ r.delivered ∧ VideoKept recoveryThenVideo r := by
  have hkept := @video_kept_iff none recoveryThenVideo (PTCPSession.new 0) 0
    [(recoveryThenVideo[1], 7), (recoveryThenVideo[2], 8)] _ rfl rfl rfl (by decide) (by decide)
    (by decide) ?_ rfl
  · refine ⟨_, rfl, by decide, by decide, by decide, hkept.mpr ?_ _ _ (List.prefix_refl _) rfl⟩
    refine ⟨fun _ _ start hstart j packet hj _ hlt => ?_, fun t ht => ?_⟩
    · obtain rfl : start = 4 := (Option.some.inj hstart).symm
      -- only the lost command starts before the recovery command
      match j with
      | 0 =>
        obtain rfl := Option.some.inj hj
        rfl
      | 1 => exact absurd hlt (by decide)
      | 2 => exact absurd hlt (by decide)
      | j + 3 => cases hj
    · obtain rfl := Option.some.inj ht
      exact ⟨fun hahead => absurd hahead (by decide), fun _ _ => trivial⟩
  · refine ⟨⟨by decide, Nat.zero_le 7, fun _ h => by cases h⟩, fun t ht => ?_⟩
    obtain rfl := Option.some.inj ht
    refine ⟨⟨by decide, Nat.le_succ 7, fun first hfirst => ?_⟩, fun _ _ => trivial⟩
    obtain rfl : first = 7 := (Option.some.inj hfirst).symm
    decide

/-- A payload, then a recovery command. -/
def videoThenRecovery : List PTCPPacket :=
  [⟨0, 0, 0, 0, 0, .payload ⟨7, [0x24, 0, 0, 0]⟩⟩, ⟨16, 0, 0x0100FFEB, 1, 0, .command [10, 0, 0, 0]⟩]

/-- The command arrives first, and the same call gives the payload up. -/
theorem recovery_loses_video : ¬ ∀ (P : List PTCPPacket) (deliveries : List Delivery) (r : Receiver),
    Tiles PTCPPacket.sent PTCPPacket.bodyLen 0 P → total PTCPPacket.bodyLen P < HALF_WINDOW →
    Run.Along (Receiver.step (gapTimeout none)) (TimelyFrom P (gapTimeout none)) deliveries
      (.start (PTCPSession.new 0) 0) →
    Run.run (Receiver.step (gapTimeout none)) deliveries (.start (PTCPSession.new 0) 0) = some r →
    VideoKept P r := by
  intro h
  have hkept := h videoThenRecovery [(videoThenRecovery[1], 7)] _ (by decide) (by decide)
    ⟨⟨by decide, Nat.zero_le 7, fun _ h => by cases h⟩, fun _ _ => trivial⟩ rfl
  exact absurd (hkept 0 _ rfl rfl (by decide)) (by decide)

end DahuaBridge
