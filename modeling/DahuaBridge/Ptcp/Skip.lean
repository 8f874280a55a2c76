import DahuaBridge.Ptcp.Reassembly
import DahuaBridge.Ptcp.Receiver

/-!
# Receiving with gap skips

With `allow_gap_skip` a session may give up a gap and go on at the closest buffered
packet. For the invariant of strict mode this is one case more: the packets that were
passed over count as held, although they were never delivered.

* `Assembles.skip`: what a skip does to the invariant.
* `Skips.step`: one call, in either mode.
* `skip_recv_ordered`: the session delivers a subsequence of the stream, never moves
  back, and skips over nothing that it has buffered.
* `video_kept_iff`: which runs lose a payload before the gap timeout.
-/

namespace DahuaBridge

open Tiling PTCPSession

section Skip

variable {base : Nat} {P : List PTCPPacket} {held : Nat → Prop} {i n m : Nat}
  {ready : List PTCPPacket} {p : PTCPPacket}

/-- The distance between nearby starts. -/
theorem toNat_keyOf_sub (hle : startOf P n ≤ startOf P m) (hlt : startOf P m < startOf P n + 2 ^ 32) :
    (keyOf base P m - keyOf base P n).toNat = startOf P m - startOf P n := by
  rw [keyOf, keyOf, SeqNum.toNat_wrap_sub (by omega) (by omega)]
  omega

/-- A skip goes to the first packet that is buffered, which `recv` then delivers. -/
theorem Assembles.skip {s s' : PTCPSession} {now : Instant} {start : U32} (hP : Stream base P)
    (h : Assembles base P held n s.recv s.pending) (hp : P[i]? = some p) (hwindow : InWindow P n i)
    (hahead : s.IsAhead p) (hstart : (s.bufferAhead now p).nextStart = some start)
    (hdrains : Drains (s.buffered p) start ready s'.recv s'.pending) :
    ∃ m n', n < m ∧ m < n' ∧ start = keyOf base P m ∧
      (∀ key ∈ s.buffered p, ∃ j, m ≤ j ∧ startOf P j ≤ startOf P n + HALF_WINDOW ∧
        key = keyOf base P j) ∧
      ready = (P.take n').drop m ∧
      Assembles base P (fun j => held j ∨ j = i ∨ j < m) n' s'.recv s'.pending := by
  have hi : i < P.length := (List.getElem?_eq_some_iff.mp hp).1
  have hni := h.lt_of_isAhead hP hp hwindow hahead
  have hbuffered := h.buffered_iff hP hp hwindow
  -- every buffered packet is beyond the frontier, within the window
  have hfar {j : Nat} (hj : n < j ∧ held j ∨ j = i) :
      n < j ∧ j < P.length ∧ startOf P j ≤ startOf P n + HALF_WINDOW := by
    rcases hj with ⟨hj, hheld⟩ | rfl
    · exact ⟨hj, h.held_lt j hheld, h.near j hheld⟩
    · exact ⟨hni, hi, hwindow.1⟩
  have hkeys : ∀ key ∈ s.buffered p, ∃ j, (n < j ∧ held j ∨ j = i) ∧ key = keyOf base P j := by
    intro key hkey
    obtain ⟨q, hq⟩ := Option.isSome_iff_exists.mp (AList.lookup_isSome.mpr hkey)
    obtain ⟨j, hj, _, rfl⟩ := (hbuffered key q).mp hq
    exact ⟨j, hj, rfl⟩
  have hafter {j : Nat} (hnj : n < j) (hj : startOf P j ≤ startOf P n + HALF_WINDOW) :
      sequenceAfter (keyOf base P j) s.recv = true := by
    have hlt : startOf P n < startOf P j := offset_lt hP.pos hnj (Nat.lt_trans hni hi)
    rw [h.recv_eq]
    simp only [HALF_WINDOW] at hj
    exact (sequenceAfter_key_iff (by omega) (by omega)).mpr (by omega)
  have hdist {j : Nat} (hnj : n < j) (hj : startOf P j ≤ startOf P n + HALF_WINDOW) :
      (keyOf base P j - s.recv).toNat = startOf P j - startOf P n := by
    simp only [HALF_WINDOW] at hj
    rw [h.recv_eq]
    exact toNat_keyOf_sub (offset_mono (Nat.le_of_lt hnj)) (by omega)
  obtain ⟨hmem, _, hclosest⟩ := nextStart_eq_some hstart
  obtain ⟨m, hm, rfl⟩ := hkeys start hmem
  obtain ⟨hnm, hmlt, hmnear⟩ := hfar hm
  have hmin {j : Nat} (hj : n < j ∧ held j ∨ j = i) : m ≤ j := by
    obtain ⟨hnj, hjlt, hjnear⟩ := hfar hj
    have hkey : keyOf base P j ∈ s.buffered p := AList.lookup_isSome.mp
      (by rw [(hbuffered _ _).mpr ⟨j, hj, List.getElem?_eq_getElem hjlt, rfl⟩]; rfl)
    have hle : (keyOf base P m - s.recv).toNat ≤ (keyOf base P j - s.recv).toNat :=
      hclosest _ hkey (hafter hnj hjnear)
    rw [hdist hnm hmnear, hdist hnj hjnear] at hle
    by_contra hjm
    have hback : startOf P j < startOf P m := offset_lt hP.pos (Nat.lt_of_not_le hjm) hjlt
    have hahead : startOf P n ≤ startOf P j := offset_mono (Nat.le_of_lt hnj)
    omega
  have hlt : ∀ j, held j ∨ j = i ∨ j < m → j < P.length := by
    rintro j (hj | rfl | hj)
    · exact h.held_lt j hj
    · exact hi
    · exact Nat.lt_trans hj hmlt
  have hnear : ∀ j, held j ∨ j = i ∨ j < m → startOf P j ≤ startOf P m + HALF_WINDOW := by
    have hnm' : startOf P n ≤ startOf P m := offset_mono (Nat.le_of_lt hnm)
    rintro j (hj | rfl | hj)
    · exact Nat.le_trans (h.near j hj) (Nat.add_le_add_right hnm' _)
    · exact Nat.le_trans hwindow.1 (Nat.add_le_add_right hnm' _)
    · exact Nat.le_trans (offset_mono (Nat.le_of_lt hj)) (Nat.le_add_right _ _)
  have hbuffers : Buffers base P (fun j => held j ∨ j = i ∨ j < m) m (s.buffered p) := by
    intro key q
    rw [hbuffered]
    constructor
    · rintro ⟨j, hj, hget, rfl⟩
      exact ⟨j, hmin hj, hj.elim (fun hj => .inl hj.2) fun hj => .inr (.inl hj), hget, rfl⟩
    · rintro ⟨j, hj, hheld | rfl | hlt, hget, rfl⟩
      · exact ⟨j, .inl ⟨Nat.lt_of_lt_of_le hnm hj, hheld⟩, hget, rfl⟩
      · exact ⟨j, .inr rfl, hget, rfl⟩
      · exact absurd hj (Nat.not_le.mpr hlt)
  have hdeliver : 0 < ready.length := by
    obtain ⟨q, hq⟩ := Option.isSome_iff_exists.mp (AList.lookup_isSome.mpr hmem)
    exact hdrains.length_pos hq
  obtain ⟨n', hmn', rfl, hassembles⟩ := drains_assembles hP (Nat.le_of_lt hmlt)
    (fun j hj => .inr (.inr hj)) hlt hnear hbuffers hdrains
  refine ⟨m, n', hnm, ?_, rfl, fun key hkey => ?_, rfl, hassembles⟩
  · rw [List.length_drop, List.length_take] at hdeliver
    omega
  · obtain ⟨j, hj, rfl⟩ := hkeys key hkey
    exact ⟨j, hmin hj, (hfar hj).2.2, rfl⟩

end Skip

/-! ## One call -/

/-- A packet of the stream, within the window around the receive offset. -/
def FromStream (P : List PTCPPacket) (r : Receiver) (d : Delivery) : Prop :=
  ∃ i, P[i]? = some d.1 ∧ (startOf P i : Int) ≤ r.moved + HALF_WINDOW ∧
    r.moved ≤ startOf P i + HALF_WINDOW

/-- The session has passed the first `n` packets of the stream and delivered some of them. -/
structure Skips (base : Nat) (P : List PTCPPacket) (r : Receiver) (n : Nat) : Prop where
  assembles : ∃ held, Assembles base P held n r.session.recv r.session.pending
  moved : r.moved = startOf P n
  delivered : r.delivered.Sublist (P.take n)

section Step

variable {base : Nat} {P : List PTCPPacket} {n m n' : Nat} {r : Receiver} {d : Delivery}
  {timeout : Duration} {ready : List PTCPPacket} {s : PTCPSession}

theorem skips_start {s₀ : PTCPSession} {now : Instant} (hpending : s₀.pending = ∅)
    (hrecv : s₀.recv = SeqNum.wrap 32 base) : Skips base P (Receiver.start s₀ now) 0 where
  assembles := ⟨_, assembles_start hrecv hpending⟩
  moved := by simp [Receiver.start]
  delivered := by simp [Receiver.start]

/-- The notes after a call that delivers what lies between packets `m` and `n'`. -/
theorem Skips.note {held : Nat → Prop} (h : Skips base P r n) (hnm : n ≤ m) (hmn' : m ≤ n')
    (hassembles : Assembles base P held n' s.recv s.pending)
    (hnear : startOf P n' < startOf P n + 2 ^ 31) :
    Skips base P (r.note d ((P.take n').drop m) s) n' where
  assembles := ⟨held, hassembles⟩
  moved := by
    obtain ⟨_, hold⟩ := h.assembles
    have hle : startOf P n ≤ startOf P n' := offset_mono (Nat.le_trans hnm hmn')
    have hstep : (s.recv - r.session.recv).toInt = (startOf P n' : Int) - startOf P n := by
      rw [hassembles.recv_eq, hold.recv_eq, keyOf, keyOf,
        SeqNum.toInt_wrap_sub (by omega) (by omega)]
      omega
    show r.moved + (s.recv - r.session.recv).toInt = startOf P n'
    rw [hstep, h.moved]
    omega
  delivered := by
    have hsplit : P.take n' = (P.take n').take m ++ (P.take n').drop m :=
      (List.take_append_drop m _).symm
    show (r.delivered ++ (P.take n').drop m).Sublist (P.take n')
    rw [hsplit]
    refine List.Sublist.append ?_ (by rw [← hsplit])
    rw [List.take_take, Nat.min_eq_left hmn']
    exact h.delivered.trans (List.take_sublist_take_left hnm)

/-- A frontier that has moved lies within half a window: the last packet passed did. -/
theorem Assembles.frontier_lt {held : Nat → Prop} {recv : U32} {pending : Pending}
    (hP : Stream base P) (h : Assembles base P held n' recv pending) (hmn' : m < n')
    (hnear : ∀ j, m ≤ j → held j → startOf P j ≤ startOf P n + HALF_WINDOW) :
    startOf P n' < startOf P n + 2 ^ 31 := by
  obtain ⟨k, rfl⟩ : ∃ k, n' = k + 1 := Nat.exists_eq_succ_of_ne_zero (Nat.ne_of_gt
    (Nat.lt_of_le_of_lt (Nat.zero_le m) hmn'))
  have hheld := h.frontier.below k (Nat.lt_succ_self k)
  have hklt := h.held_lt k hheld
  have hget : P[k]? = some P[k] := List.getElem?_eq_getElem hklt
  have hsucc : startOf P (k + 1) = startOf P k + P[k].bodyLen := offset_succ hget
  have hlen := hP.lt P[k] (List.mem_of_getElem? hget)
  have hk := hnear k (Nat.le_of_lt_succ hmn') hheld
  simp only [HALF_WINDOW] at hk
  omega

/-- One call of `recv` with a packet of the stream: it delivers from the frontier, or from
the closest buffered packet beyond it. -/
theorem Skips.step (hP : Stream base P) (h : Skips base P r n) (hfrom : FromStream P r d)
    (hrecv : r.session.recvPacket timeout d.2 d.1 = (ready, s)) :
    ∃ m n', n ≤ m ∧ m ≤ n' ∧ ready = (P.take n').drop m ∧ Skips base P (r.note d ready s) n' ∧
      (m = n ∧ ¬ r.session.SkipsOn timeout d.2 d.1 ∨
        r.session.SkipsOn timeout d.2 d.1 ∧ n < m ∧ m < n' ∧
          (r.session.bufferAhead d.2 d.1).nextStart = some (keyOf base P m) ∧
          ∀ key ∈ r.session.buffered d.1, ∃ j, m ≤ j ∧
            startOf P j ≤ startOf P n + HALF_WINDOW ∧ key = keyOf base P j) := by
  obtain ⟨i, hp, hfwd, hback⟩ := hfrom
  obtain ⟨held, hassembles⟩ := h.assembles
  have hwindow : InWindow P n i := by
    rw [h.moved] at hfwd hback
    exact ⟨by omega, by omega⟩
  have hnear : ∀ j, held j ∨ j = i → startOf P j ≤ startOf P n + HALF_WINDOW := by
    rintro j (hj | rfl)
    · exact hassembles.near j hj
    · exact hwindow.1
  -- the three cases without a skip are those of strict mode
  have hordered (hnot : ¬ r.session.SkipsOn timeout d.2 d.1)
      (hcases : (r.session.Ignores d.1 ∧ ready = [] ∧ s.recv = r.session.recv ∧
          s.pending = r.session.pending) ∨
        (r.session.IsAhead d.1 ∧ ready = [] ∧ s.recv = r.session.recv ∧
          s.pending = r.session.buffered d.1) ∨
        (r.session.IsNext d.1 ∧
          Drains (r.session.buffered d.1) r.session.recv ready s.recv s.pending)) :
      ∃ n', n ≤ n' ∧ ready = (P.take n').drop n ∧ Skips base P (r.note d ready s) n' := by
    obtain ⟨n', hn, rfl, hassembles'⟩ := hassembles.receive_ordered hP hp hwindow hcases
    refine ⟨n', hn, rfl, h.note (Nat.le_refl n) hn hassembles' ?_⟩
    rcases Nat.lt_or_eq_of_le hn with hlt | rfl
    · exact hassembles'.frontier_lt hP hlt fun j _ hj => hnear j hj
    · omega
  rcases recvPacket_spec hrecv with ⟨hignores, hnil, hsame⟩ | ⟨hahead, hstay, hnil, hsame⟩ |
    ⟨hnext, hdrained⟩ | ⟨hahead, hskip, start, hstart, hdrained⟩
  · have hnot : ¬ r.session.SkipsOn timeout d.2 d.1 :=
      fun hskips => not_isAhead_of_ignores hignores hskips.1
    obtain ⟨n', hn, hready, hskips⟩ :=
      hordered hnot (.inl ⟨hignores, hnil, hsame.recv, hsame.pending⟩)
    exact ⟨n, n', Nat.le_refl n, hn, hready, hskips, .inl ⟨rfl, hnot⟩⟩
  · have hnot : ¬ r.session.SkipsOn timeout d.2 d.1 :=
      fun hskips => absurd (hskips.2.symm.trans hstay) (by decide)
    obtain ⟨n', hn, hready, hskips⟩ :=
      hordered hnot (.inr (.inl ⟨hahead, hnil, hsame.recv, hsame.pending⟩))
    exact ⟨n, n', Nat.le_refl n, hn, hready, hskips, .inl ⟨rfl, hnot⟩⟩
  · have hnot : ¬ r.session.SkipsOn timeout d.2 d.1 := fun hskips => hskips.1.2.1 hnext.2.1
    obtain ⟨n', hn, hready, hskips⟩ := hordered hnot (.inr (.inr ⟨hnext, hdrained.drains⟩))
    exact ⟨n, n', Nat.le_refl n, hn, hready, hskips, .inl ⟨rfl, hnot⟩⟩
  · obtain ⟨m, n', hnm, hmn', rfl, hmin, rfl, hassembles'⟩ :=
      hassembles.skip hP hp hwindow hahead hstart hdrained.drains
    refine ⟨m, n', Nat.le_of_lt hnm, Nat.le_of_lt hmn', rfl, ?_,
      .inr ⟨⟨hahead, hskip⟩, hnm, hmn', hstart, hmin⟩⟩
    refine h.note (Nat.le_of_lt hnm) (Nat.le_of_lt hmn') hassembles' ?_
    refine hassembles'.frontier_lt hP hmn' fun j hmj hj => ?_
    rcases hj with hj | rfl | hj
    · exact hnear j (.inl hj)
    · exact hnear j (.inr rfl)
    · exact absurd hmj (Nat.not_le.mpr hj)

end Step

/-! ## Order -/

/-- The stream of the packets `P`, from the receive offset of a session. -/
theorem stream_of_tiles {s : PTCPSession} {P : List PTCPPacket}
    (hlen : ∀ p ∈ P, 1 ≤ p.body.len ∧ p.body.len ≤ MAX_BODY)
    (htiles : Tiles PTCPPacket.sent PTCPPacket.bodyLen s.recv P) : Stream s.recv.toNat P where
  tiles := by rwa [SeqNum.wrap_toNat]
  pos p hp := (hlen p hp).1
  lt p hp := Nat.lt_of_le_of_lt (hlen p hp).2 (by decide)

theorem Skips.of_run {base : Nat} {P : List PTCPPacket} {timeout : Duration} {r₀ r : Receiver}
    {n : Nat} {deliveries : List Delivery} (hP : Stream base P) (h : Skips base P r₀ n)
    (hfrom : Run.Along (Receiver.step timeout) (FromStream P) deliveries r₀)
    (hrun : Run.run (Receiver.step timeout) deliveries r₀ = some r) : ∃ n, Skips base P r n := by
  refine Run.run_invariant_along (I := fun r => ∃ n, Skips base P r n) ⟨n, h⟩ ?_ hfrom hrun
  rintro d r r' hfrom ⟨n, h⟩ hstep
  obtain ⟨ready, s, hrecv, rfl⟩ := Receiver.step_eq_some hstep
  obtain ⟨_, n', _, _, _, hskips, _⟩ := h.step hP hfrom hrecv
  exact ⟨n', hskips⟩

/-- A skip from the offset of `r`, by a call with `d` that leads to `r'`: it goes to a
buffered start with nothing buffered before it, and a packet that starts there is the first
that the call delivers. -/
structure SkipsTo (r : Receiver) (d : Delivery) (r' : Receiver) (start : U32) : Prop where
  next : (r.session.bufferAhead d.2 d.1).nextStart = some start
  between : ∀ key ∈ r.session.buffered d.1,
    (start - r.session.recv).toNat ≤ (key - r.session.recv).toNat
  delivers : ∃ packet rest, packet.sent = start ∧ r'.delivered = r.delivered ++ packet :: rest

/-- Whatever the order, the losses and the duplicates of the arrivals: a session that may
skip gaps delivers a subsequence of the stream, its offset never moves back, and a skip
passes over nothing that is buffered. -/
theorem skip_recv_ordered (timeout : Duration) {P : List PTCPPacket} {s₀ : PTCPSession}
    {now : Instant} {deliveries : List Delivery} {r : Receiver} (hpending : s₀.pending = ∅)
    (hlen : ∀ p ∈ P, 1 ≤ p.body.len ∧ p.body.len ≤ MAX_BODY)
    (htiles : Tiles PTCPPacket.sent PTCPPacket.bodyLen s₀.recv P)
    (hfrom : Run.Along (Receiver.step timeout) (FromStream P) deliveries (.start s₀ now))
    (hrun : Run.run (Receiver.step timeout) deliveries (.start s₀ now) = some r) :
    r.delivered.Sublist P ∧
      ∀ d r', FromStream P r d → r.step timeout d = some r' →
        r'.delivered.Sublist P ∧ r.moved ≤ r'.moved ∧
        (r.session.SkipsOn timeout d.2 d.1 → ∃ start, SkipsTo r d r' start) := by
  have hP := stream_of_tiles hlen htiles
  obtain ⟨n, h⟩ := (skips_start hpending (SeqNum.wrap_toNat _).symm).of_run hP hfrom hrun
  refine ⟨h.delivered.trans (List.take_sublist n P), fun d r' hfrom hstep => ?_⟩
  obtain ⟨ready, s, hrecv, rfl⟩ := Receiver.step_eq_some hstep
  obtain ⟨m, n', hnm, hmn', hready, h', hskips⟩ := h.step hP hfrom hrecv
  refine ⟨h'.delivered.trans (List.take_sublist n' P), ?_, fun hon => ?_⟩
  · have hle : startOf P n ≤ startOf P n' := offset_mono (Nat.le_trans hnm hmn')
    rw [h.moved, h'.moved]
    omega
  · rcases hskips with ⟨_, hnot⟩ | ⟨_, hnm, hmn', hstart, hbetween⟩
    · exact absurd hon hnot
    obtain ⟨_, hold⟩ := h.assembles
    obtain ⟨_, hnew⟩ := h'.assembles
    have hmlt : m < P.length := Nat.lt_of_lt_of_le hmn' hnew.frontier.le
    refine ⟨keyOf _ P m, hstart, ?_, ?_⟩
    · intro key hkey
      obtain ⟨j, hmj, hjnear, rfl⟩ := hbetween key hkey
      have hnmle : startOf P n ≤ startOf P m := offset_mono (Nat.le_of_lt hnm)
      have hmjle : startOf P m ≤ startOf P j := offset_mono hmj
      simp only [HALF_WINDOW] at hjnear
      rw [hold.recv_eq, toNat_keyOf_sub hnmle (by omega), toNat_keyOf_sub (by omega) (by omega)]
      omega
    · have hmtake : m < (P.take n').length := by
        rw [List.length_take]
        omega
      refine ⟨P[m], (P.take n').drop (m + 1), hP.sent_eq (List.getElem?_eq_getElem hmlt), ?_⟩
      show r.delivered ++ ready = _
      rw [hready, List.drop_eq_getElem_cons hmtake, List.getElem_take]

/-- A stream of two commands, the second a recovery command. -/
def recoveryStream : List PTCPPacket :=
  [⟨0xFFFFFFFE, 0, 0, 0, 0, .command [10, 0, 0, 0]⟩,
    ⟨2, 0, 0x0100FFEB, 1, 0, .command [10, 0, 0, 0]⟩]

/-- Without the first of them, the second makes the session skip over the wrap. -/
theorem skip_recv_ordered_recovery :
    ∃ r d r', Receiver.step (gapTimeout none) r d = some r' ∧ r'.delivered.Sublist recoveryStream ∧
      r.moved ≤ r'.moved ∧ ∃ start, SkipsTo r d r' start := by
  have hrun := @skip_recv_ordered (gapTimeout none) recoveryStream (fromState 0 0 0xFFFFFFFE 0 0 0)
    0 [] _ rfl (by decide) (by decide) trivial rfl
  have hstep := hrun.2 (recoveryStream[1], 7) _ ⟨1, rfl, by decide, by decide⟩ rfl
  exact ⟨_, _, _, rfl, hstep.1, hstep.2.1, hstep.2.2 ⟨by decide, by decide⟩⟩

end DahuaBridge
