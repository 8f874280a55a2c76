import DahuaBridge.Ptcp.Receive

/-!
# Strict-ordering receive

A peer sends a stream of packets `P` whose bodies tile a byte stream. This module
follows the reorder buffer of a session in strict mode (`allow_gap_skip = false`)
through arrivals of these packets in any order, with losses and duplicates.

* `Stream`: the packets of one stream, with its unwrapped base offset.
* `Assembles`: the invariant. The receive offset is the start of the first packet
  not held, and the buffer has exactly the held packets beyond it.
* `Assembles.recv`: one call of `recv` keeps it.
* `strict_recv_exact`: over a whole run the session has delivered the longest
  prefix of `P` that has arrived.
-/

namespace DahuaBridge

open Tiling PTCPSession

/-- The most that one UDP datagram can carry after the PTCP header. -/
def MAX_BODY : Nat := 65511

/-- How far from the receive offset an arriving packet may start. -/
def HALF_WINDOW : Nat := 2 ^ 31 - 65536

/-- Packets with non-empty bodies that tile a byte stream from `base`. -/
structure Stream (base : Nat) (P : List PTCPPacket) : Prop where
  tiles : Tiles PTCPPacket.sent PTCPPacket.bodyLen (SeqNum.wrap 32 base) P
  pos : ∀ p ∈ P, 0 < p.bodyLen
  lt : ∀ p ∈ P, p.bodyLen < 2 ^ 16

/-- The unwrapped start of packet `i`, from the base of the stream. -/
abbrev startOf (P : List PTCPPacket) (i : Nat) : Nat := offset PTCPPacket.bodyLen P i

/-- The counter value at which packet `i` of the stream starts. -/
abbrev keyOf (base : Nat) (P : List PTCPPacket) (i : Nat) : U32 :=
  SeqNum.wrap 32 (base + startOf P i)

section Stream

variable {base : Nat} {P : List PTCPPacket} {i j n : Nat} {p : PTCPPacket}

theorem Stream.sent_eq (hP : Stream base P) (hp : P[i]? = some p) : p.sent = keyOf base P i :=
  hP.tiles.pos_eq hp

theorem Stream.endOf_eq (hP : Stream base P) (hp : P[i]? = some p) :
    endOf p = keyOf base P (i + 1) := by
  rw [endOf, hP.sent_eq hp, lengthU32, ← SeqNum.wrap_add, keyOf, startOf, startOf,
    offset_succ hp, Nat.add_assoc]
  rfl

/-- A stream goes on with a packet that starts where it ends. -/
theorem Stream.append (hP : Stream base P) (hsent : p.sent = keyOf base P P.length)
    (hpos : 0 < p.bodyLen) (hlt : p.bodyLen < 2 ^ 16) : Stream base (P ++ [p]) where
  tiles := by
    refine tiles_append.mpr ⟨hP.tiles, ?_, trivial⟩
    rw [hsent, keyOf, startOf, offset_length, SeqNum.wrap_add]
  pos q hq := by
    rcases List.mem_append.mp hq with hq | hq
    · exact hP.pos q hq
    · rwa [List.mem_singleton.mp hq]
  lt q hq := by
    rcases List.mem_append.mp hq with hq | hq
    · exact hP.lt q hq
    · rwa [List.mem_singleton.mp hq]

/-- Nearby starts are told apart by their wrapped counters. -/
theorem Stream.key_inj (hP : Stream base P) (hi : i < P.length) (hj : j ≤ P.length)
    (hij : startOf P i < startOf P j + 2 ^ 32) (hji : startOf P j < startOf P i + 2 ^ 32)
    (h : keyOf base P i = keyOf base P j) : i = j := by
  have hsum : base + startOf P i = base + startOf P j := SeqNum.wrap_inj (by omega) (by omega) h
  exact offset_inj hP.pos hi hj (Nat.add_left_cancel hsum)

/-- Within half a window the code's order on counters is the order of starts. -/
theorem sequenceAfter_key_iff {m n : Nat} (hm : m < n + 2 ^ 31) (hn : n ≤ m + 2 ^ 31) :
    sequenceAfter (SeqNum.wrap 32 m) (SeqNum.wrap 32 n) = true ↔ n < m := by
  rw [sequenceAfter, decide_eq_true_iff]
  exact SeqNum.after_wrap_iff (by omega) (by omega)

end Stream

/-! ## The invariant -/

/-- The receive offset and the buffer of a session that holds the packets `held`
of the stream and has delivered the first `n`. -/
structure Assembles (base : Nat) (P : List PTCPPacket) (held : Nat → Prop) (n : Nat)
    (recv : U32) (pending : Pending) : Prop where
  frontier : IsFrontier held P.length n
  held_lt : ∀ i, held i → i < P.length
  near : ∀ i, held i → startOf P i ≤ startOf P n + HALF_WINDOW
  recv_eq : recv = keyOf base P n
  pending_iff : ∀ key p, pending.lookup key = some p ↔
    ∃ i, n < i ∧ held i ∧ P[i]? = some p ∧ key = keyOf base P i

section Assembles

variable {base : Nat} {P : List PTCPPacket} {held held' : Nat → Prop} {i n m : Nat}
  {recv recv' : U32} {pending pending' : Pending} {ready : List PTCPPacket} {p : PTCPPacket}

theorem Assembles.congr (h : Assembles base P held n recv pending)
    (hiff : ∀ i, held' i ↔ held i) : Assembles base P held' n recv pending := by
  obtain rfl : held' = held := funext fun i => propext (hiff i)
  exact h

theorem assembles_start {base : Nat} {P : List PTCPPacket} {recv : U32} {pending : Pending}
    (hrecv : recv = SeqNum.wrap 32 base) (hpending : pending = ∅) :
    Assembles base P (fun _ => False) 0 recv pending where
  frontier := ⟨Nat.zero_le _, fun i hi => absurd hi (Nat.not_lt_zero i), fun _ => id⟩
  held_lt _ h := h.elim
  near _ h := h.elim
  recv_eq := by rw [hrecv, keyOf, startOf, offset_zero, Nat.add_zero]
  pending_iff := by simp [hpending]

/-- The buffer has the held packets from `m` on, each under its own start. -/
def Buffers (base : Nat) (P : List PTCPPacket) (held : Nat → Prop) (m : Nat) (pending : Pending) :
    Prop :=
  ∀ key p, pending.lookup key = some p ↔
    ∃ i, m ≤ i ∧ held i ∧ P[i]? = some p ∧ key = keyOf base P i

/-- From packet `m` on, only packet `m` itself starts where it does. -/
theorem eq_of_keyOf_eq (hP : Stream base P) (hm : m ≤ P.length) (hlt : ∀ i, held i → i < P.length)
    (hnear : ∀ i, held i → startOf P i ≤ startOf P m + HALF_WINDOW) (hi : m ≤ i) (hheld : held i)
    (hkey : keyOf base P m = keyOf base P i) : i = m := by
  have hfwd := hnear i hheld
  have hge : startOf P m ≤ startOf P i := offset_mono hi
  exact hP.key_inj (hlt i hheld) hm (by simp only [HALF_WINDOW] at *; omega) (by omega) hkey.symm

/-- What is left of the buffer once packet `m` is taken out. -/
theorem Buffers.erase (hpending : Buffers base P held m pending)
    (hat : ∀ i, m ≤ i → held i → keyOf base P m = keyOf base P i → i = m) :
    Buffers base P held (m + 1) (pending.erase (keyOf base P m)) := by
  intro key p
  constructor
  · intro h
    have hne : key ≠ keyOf base P m := by
      rintro rfl
      simp at h
    rw [AList.lookup_erase_ne hne] at h
    obtain ⟨j, hj, hheld, hget, hkey⟩ := (hpending _ _).mp h
    have hjm : j ≠ m := fun he => hne (he ▸ hkey)
    exact ⟨j, Nat.lt_of_le_of_ne hj hjm.symm, hheld, hget, hkey⟩
  · rintro ⟨j, hj, hheld, hget, rfl⟩
    have hne : keyOf base P j ≠ keyOf base P m := by
      intro he
      exact Nat.ne_of_gt hj (hat j (Nat.le_of_succ_le hj) hheld he.symm)
    rw [AList.lookup_erase_ne hne]
    exact (hpending _ _).mpr ⟨j, Nat.le_of_succ_le hj, hheld, hget, rfl⟩

/-- The drain loop, started at packet `m` with the held packets from `m` on in the
buffer, delivers up to the frontier. -/
theorem drains_assembles (hP : Stream base P) (hm : m ≤ P.length) (hbelow : ∀ i < m, held i)
    (hlt : ∀ i, held i → i < P.length)
    (hnear : ∀ i, held i → startOf P i ≤ startOf P m + HALF_WINDOW)
    (hpending : Buffers base P held m pending)
    (h : Drains pending (keyOf base P m) ready recv' pending') :
    ∃ n, m ≤ n ∧ ready = (P.take n).drop m ∧ Assembles base P held n recv' pending' := by
  generalize hrecv : keyOf base P m = recv at h
  induction h generalizing m with
  | @done pending recv hnone =>
    subst hrecv
    have hstop : ¬ held m := by
      intro hheld
      have hmlt := hlt m hheld
      have hget : P[m]? = some P[m] := List.getElem?_eq_getElem hmlt
      rw [(hpending _ _).mpr ⟨m, Nat.le_refl m, hheld, hget, rfl⟩] at hnone
      cases hnone
    refine ⟨m, Nat.le_refl m, by simp, ⟨hm, hbelow, fun _ => hstop⟩, hlt, hnear, rfl, ?_⟩
    intro key p
    rw [hpending]
    constructor
    · rintro ⟨i, hi, hheld, hrest⟩
      have hne : m ≠ i := fun he => hstop (he ▸ hheld)
      exact ⟨i, Nat.lt_of_le_of_ne hi hne, hheld, hrest⟩
    · rintro ⟨i, hi, hrest⟩
      exact ⟨i, Nat.le_of_lt hi, hrest⟩
  | @next pending pending' recv recv' packet ready hlookup _ ih =>
    subst hrecv
    have hat : ∀ i, m ≤ i → held i → keyOf base P m = keyOf base P i → i = m :=
      fun _ => eq_of_keyOf_eq hP hm hlt hnear
    -- the entry at the receive offset is packet `m` itself
    obtain ⟨i, hi, hheld, hget, hkey⟩ := (hpending _ _).mp hlookup
    obtain rfl := hat i hi hheld hkey
    have hsucc : startOf P (i + 1) = startOf P i + packet.bodyLen := offset_succ hget
    have hnext : keyOf base P i + lengthU32 packet.body.len = keyOf base P (i + 1) := by
      rw [lengthU32, ← SeqNum.wrap_add, keyOf, hsucc, Nat.add_assoc]
      rfl
    have hbelow' : ∀ j < i + 1, held j := by
      intro j hj
      rcases Nat.lt_succ_iff_lt_or_eq.mp hj with hj | rfl
      · exact hbelow j hj
      · exact hheld
    have hnear' : ∀ j, held j → startOf P j ≤ startOf P (i + 1) + HALF_WINDOW := by
      intro j hj
      have hfwd := hnear j hj
      omega
    obtain ⟨n, hn, hready, hassembles⟩ :=
      ih (hlt i hheld) hbelow' hnear' (hpending.erase hat) hnext.symm
    refine ⟨n, Nat.le_of_succ_le hn, ?_, hassembles⟩
    have htake : (P.take n)[i]? = some packet := by
      rw [List.getElem?_take_of_lt hn, hget]
    obtain ⟨hlt', hget'⟩ := List.getElem?_eq_some_iff.mp htake
    rw [hready, List.drop_eq_getElem_cons hlt', hget']

/-- A packet that starts within half a window of the receive offset `startOf P n`. -/
def InWindow (P : List PTCPPacket) (n i : Nat) : Prop :=
  startOf P i ≤ startOf P n + HALF_WINDOW ∧ startOf P n ≤ startOf P i + HALF_WINDOW

/-- A packet that `recv` ignores, from within the window, was held already. -/
theorem Assembles.held_of_ignores {s : PTCPSession} (hP : Stream base P)
    (h : Assembles base P held n s.recv s.pending) (hp : P[i]? = some p)
    (hwindow : InWindow P n i) (hignores : s.Ignores p) : held i := by
  obtain ⟨hfwd, hback⟩ := hwindow
  have hi : i < P.length := (List.getElem?_eq_some_iff.mp hp).1
  have hpos := hP.pos p (List.mem_of_getElem? hp)
  have hlt := hP.lt p (List.mem_of_getElem? hp)
  have hsucc : startOf P (i + 1) = startOf P i + p.bodyLen := offset_succ hp
  simp only [HALF_WINDOW] at hfwd hback
  rcases hignores with hzero | ⟨hne, hafter⟩ | hend | ⟨_, hmem⟩
  · exact absurd hzero (Nat.ne_of_gt hpos)
  · -- stale: it starts before the receive offset
    rw [hP.sent_eq hp, h.recv_eq] at hne hafter
    have hle : startOf P i ≤ startOf P n := by
      by_contra hlt
      have := (sequenceAfter_key_iff (m := base + startOf P i) (n := base + startOf P n)
        (by omega) (by omega)).mpr (by omega)
      rw [this] at hafter
      cases hafter
    have hne' : startOf P i ≠ startOf P n := by
      intro heq
      exact hne (by rw [keyOf, keyOf, heq])
    exact h.frontier.below i (lt_of_offset_lt (Nat.lt_of_le_of_ne hle hne'))
  · -- its end is not beyond the receive offset
    rw [hP.endOf_eq hp, h.recv_eq] at hend
    have hle : startOf P (i + 1) ≤ startOf P n := by
      by_contra hlt
      have := (sequenceAfter_key_iff (m := base + startOf P (i + 1)) (n := base + startOf P n)
        (by omega) (by omega)).mpr (by omega)
      rw [this] at hend
      cases hend
    exact h.frontier.below i (lt_of_offset_lt (show startOf P i < startOf P n by omega))
  · -- the buffer has a packet with this start, which is packet `i`
    obtain ⟨q, hq⟩ := Option.isSome_iff_exists.mp (AList.lookup_isSome.mpr hmem)
    obtain ⟨j, hj, hheld, _, hkey⟩ := (h.pending_iff _ _).mp hq
    rw [hP.sent_eq hp] at hkey
    have hnear := h.near j hheld
    have hge : startOf P n ≤ startOf P j := offset_mono (Nat.le_of_lt hj)
    simp only [HALF_WINDOW] at hnear
    obtain rfl := hP.key_inj hi (Nat.le_of_lt (h.held_lt j hheld)) (by omega) (by omega) hkey
    exact hheld

/-- The buffer once packet `i` has joined it. -/
theorem Assembles.buffered_iff {s : PTCPSession} (hP : Stream base P)
    (h : Assembles base P held n s.recv s.pending) (hp : P[i]? = some p)
    (hwindow : InWindow P n i) (key : U32) (q : PTCPPacket) :
    (s.buffered p).lookup key = some q ↔
      ∃ j, (n < j ∧ held j ∨ j = i) ∧ P[j]? = some q ∧ key = keyOf base P j := by
  obtain ⟨hfwd, hback⟩ := hwindow
  have hi : i < P.length := (List.getElem?_eq_some_iff.mp hp).1
  rw [buffered, hP.sent_eq hp]
  by_cases hkey : key = keyOf base P i
  · subst hkey
    rw [AList.lookup_insert]
    constructor
    · rintro ⟨⟩
      exact ⟨i, .inr rfl, hp, rfl⟩
    · rintro ⟨j, ⟨hj, hheld⟩ | rfl, hget, hkey⟩
      · -- a buffered packet at this start is packet `i` itself
        have hnear := h.near j hheld
        have hge : startOf P n ≤ startOf P j := offset_mono (Nat.le_of_lt hj)
        simp only [HALF_WINDOW] at hfwd hback hnear
        obtain rfl := hP.key_inj hi (Nat.le_of_lt (h.held_lt j hheld)) (by omega) (by omega) hkey
        rw [← hp, hget]
      · rw [← hp, hget]
  · rw [AList.lookup_insert_ne hkey, h.pending_iff]
    constructor
    · rintro ⟨j, hj, hheld, hrest⟩
      exact ⟨j, .inl ⟨hj, hheld⟩, hrest⟩
    · rintro ⟨j, ⟨hj, hheld⟩ | rfl, hget, hkey'⟩
      · exact ⟨j, hj, hheld, hget, hkey'⟩
      · exact absurd hkey' hkey

/-- A packet that `recv` finds ahead of its offset lies beyond the frontier. -/
theorem Assembles.lt_of_isAhead {s : PTCPSession} (hP : Stream base P)
    (h : Assembles base P held n s.recv s.pending) (hp : P[i]? = some p)
    (hwindow : InWindow P n i) (hahead : s.IsAhead p) : n < i := by
  obtain ⟨hfwd, hback⟩ := hwindow
  obtain ⟨_, _, hafter, _, _⟩ := hahead
  rw [hP.sent_eq hp, h.recv_eq] at hafter
  simp only [HALF_WINDOW] at hfwd hback
  have hgt : startOf P n < startOf P i := by
    have := (sequenceAfter_key_iff (by omega) (by omega)).mp hafter
    omega
  exact lt_of_offset_lt hgt

/-- One call of `recv` that skips no gap, with packet `i` of the stream, keeps the
invariant and delivers what lies between the old and the new frontier. -/
theorem Assembles.receive_ordered {s s' : PTCPSession} (hP : Stream base P)
    (h : Assembles base P held n s.recv s.pending) (hp : P[i]? = some p) (hwindow : InWindow P n i)
    (hcases : (s.Ignores p ∧ ready = [] ∧ s'.recv = s.recv ∧ s'.pending = s.pending) ∨
      (s.IsAhead p ∧ ready = [] ∧ s'.recv = s.recv ∧ s'.pending = s.buffered p) ∨
      (s.IsNext p ∧ Drains (s.buffered p) s.recv ready s'.recv s'.pending)) :
    ∃ n', n ≤ n' ∧ ready = (P.take n').drop n ∧
      Assembles base P (fun j => held j ∨ j = i) n' s'.recv s'.pending := by
  have hi : i < P.length := (List.getElem?_eq_some_iff.mp hp).1
  have hsent := hP.sent_eq hp
  have hbuffered := h.buffered_iff hP hp hwindow
  have hlt : ∀ j, held j ∨ j = i → j < P.length := by
    rintro j (hj | rfl)
    · exact h.held_lt j hj
    · exact hi
  have hnear : ∀ j, held j ∨ j = i → startOf P j ≤ startOf P n + HALF_WINDOW := by
    rintro j (hj | rfl)
    · exact h.near j hj
    · exact hwindow.1
  rcases hcases with
    ⟨hignores, rfl, hrecv', hpending'⟩ | ⟨hahead, rfl, hrecv', hpending'⟩ | ⟨hnext, hdrains⟩
  · -- ignored: the packet was held, so nothing changes
    have hheld := h.held_of_ignores hP hp hwindow hignores
    refine ⟨n, Nat.le_refl n, by simp, ?_⟩
    rw [hrecv', hpending']
    refine h.congr fun j => ⟨?_, Or.inl⟩
    rintro (hj | rfl)
    · exact hj
    · exact hheld
  · -- buffered: it lies beyond the frontier, which stays
    have hni := h.lt_of_isAhead hP hp hwindow hahead
    refine ⟨n, Nat.le_refl n, by simp, h.frontier.insert_ne (Nat.ne_of_gt hni), hlt, hnear, ?_, ?_⟩
    · rw [hrecv', h.recv_eq]
    · intro key q
      rw [hpending', hbuffered]
      constructor
      · rintro ⟨j, ⟨hj, hheld⟩ | rfl, hrest⟩
        · exact ⟨j, hj, .inl hheld, hrest⟩
        · exact ⟨j, hni, .inr rfl, hrest⟩
      · rintro ⟨j, hj, hheld | rfl, hrest⟩
        · exact ⟨j, .inl ⟨hj, hheld⟩, hrest⟩
        · exact ⟨j, .inr rfl, hrest⟩
  · -- delivered: it is the packet at the frontier
    obtain ⟨hfwd, hback⟩ := hwindow
    obtain ⟨_, hrecv', _⟩ := hnext
    simp only [HALF_WINDOW] at hfwd hback
    obtain rfl : i = n := by
      rw [hsent, h.recv_eq] at hrecv'
      exact hP.key_inj hi h.frontier.le (by omega) (by omega) hrecv'
    rw [h.recv_eq] at hdrains
    refine drains_assembles hP h.frontier.le (fun j hj => .inl (h.frontier.below j hj)) hlt hnear ?_
      hdrains
    intro key q
    rw [hbuffered]
    constructor
    · rintro ⟨j, ⟨hj, hheld⟩ | rfl, hrest⟩
      · exact ⟨j, Nat.le_of_lt hj, .inl hheld, hrest⟩
      · exact ⟨j, Nat.le_refl j, .inr rfl, hrest⟩
    · rintro ⟨j, hj, hheld, hrest⟩
      rcases Nat.lt_or_eq_of_le hj with hlt | rfl
      · exact ⟨j, hheld.imp (fun hheld => ⟨hlt, hheld⟩) id, hrest⟩
      · exact ⟨i, .inr rfl, hrest⟩

/-- One call of `recv` in strict mode, with packet `i` of the stream, keeps the
invariant and delivers what lies between the old and the new frontier. -/
theorem Assembles.receive {s s' : PTCPSession} {timeout : Duration} {now : Instant}
    (hP : Stream base P) (h : Assembles base P held n s.recv s.pending)
    (hstrict : s.allowGapSkip = false) (hp : P[i]? = some p) (hwindow : InWindow P n i)
    (hrecv : s.recvPacket timeout now p = (ready, s')) :
    ∃ n', n ≤ n' ∧ ready = (P.take n').drop n ∧
      Assembles base P (fun j => held j ∨ j = i) n' s'.recv s'.pending :=
  h.receive_ordered hP hp hwindow (recvPacket_strict hstrict hrecv)

/-- The stream may grow: a packet not yet received changes nothing. -/
theorem Assembles.append (h : Assembles base P held n recv pending) (q : PTCPPacket) :
    Assembles base (P ++ [q]) held n recv pending := by
  have hstart : ∀ i, i ≤ P.length → startOf (P ++ [q]) i = startOf P i := fun _ => offset_append
  have hn := h.frontier.le
  refine ⟨⟨?_, h.frontier.below, ?_⟩, ?_, ?_, ?_, ?_⟩
  · simp only [List.length_append]
    omega
  · intro _ hheld
    exact h.frontier.stops (h.held_lt n hheld) hheld
  · intro i hi
    have := h.held_lt i hi
    simp only [List.length_append]
    omega
  · intro i hi
    rw [hstart i (Nat.le_of_lt (h.held_lt i hi)), hstart n hn]
    exact h.near i hi
  · rw [h.recv_eq, keyOf, keyOf, hstart n hn]
  · intro key p
    rw [h.pending_iff]
    constructor
    · rintro ⟨i, hi, hheld, hget, rfl⟩
      have hlt := h.held_lt i hheld
      refine ⟨i, hi, hheld, ?_, ?_⟩
      · rw [List.getElem?_append_left hlt, hget]
      · rw [keyOf, keyOf, hstart i (Nat.le_of_lt hlt)]
    · rintro ⟨i, hi, hheld, hget, rfl⟩
      have hlt := h.held_lt i hheld
      refine ⟨i, hi, hheld, ?_, ?_⟩
      · rwa [List.getElem?_append_left hlt] at hget
      · rw [keyOf, keyOf, hstart i (Nat.le_of_lt hlt)]

end Assembles

/-! ## Runs -/

/-- `Receives P s₀ arrivals delivered s`: from `s₀` the packets of `P` with the
indices `arrivals` came in, each within the window, and `delivered` is all that
`recv` returned. -/
inductive Receives (P : List PTCPPacket) (s₀ : PTCPSession) :
    List Nat → List PTCPPacket → PTCPSession → Prop
  | start : Receives P s₀ [] [] s₀
  | arrive {arrivals : List Nat} {delivered : List PTCPPacket} {s : PTCPSession} {i : Nat}
      {packet : PTCPPacket} (timeout : Duration) (now : Instant) :
      Receives P s₀ arrivals delivered s →
      P[i]? = some packet →
      startOf P i < total PTCPPacket.bodyLen delivered + HALF_WINDOW →
      total PTCPPacket.bodyLen delivered < startOf P i + HALF_WINDOW →
      Receives P s₀ (arrivals ++ [i]) (delivered ++ (s.recvPacket timeout now packet).1)
        (s.recvPacket timeout now packet).2

/-- The invariant over a whole run. -/
theorem Receives.assembles {base : Nat} {P delivered : List PTCPPacket} {arrivals : List Nat}
    {s₀ s : PTCPSession} (hP : Stream base P) (hstrict : s₀.allowGapSkip = false)
    (hpending : s₀.pending = ∅) (hbase : s₀.recv = SeqNum.wrap 32 base)
    (h : Receives P s₀ arrivals delivered s) :
    s.allowGapSkip = false ∧
      ∃ n, delivered = P.take n ∧ Assembles base P (· ∈ arrivals) n s.recv s.pending := by
  induction h with
  | start =>
    exact ⟨hstrict, 0, by simp, (assembles_start hbase hpending).congr fun i => by simp⟩
  | @arrive arrivals delivered s i packet timeout now _ hp hfwd hback ih =>
    obtain ⟨hs, n, rfl, hassembles⟩ := ih
    cases hrecv : s.recvPacket timeout now packet with | mk ready s' =>
    obtain ⟨n', hn, rfl, hassembles'⟩ :=
      hassembles.receive hP hs hp ⟨Nat.le_of_lt hfwd, Nat.le_of_lt hback⟩ hrecv
    refine ⟨(recvPacket_sameSender hrecv).allowGapSkip.trans hs, n', ?_, hassembles'.congr fun j => by simp⟩
    have htake : P.take n = (P.take n').take n := by rw [List.take_take, Nat.min_eq_left hn]
    rw [htake, List.take_append_drop]

/-- In strict mode, whatever the order, the losses and the duplicates of the
arrivals, `recv` has returned exactly the longest prefix of the stream all of
whose packets have arrived, and the receive offset is the end of that prefix. -/
theorem strict_recv_exact {P delivered : List PTCPPacket} {arrivals : List Nat}
    {s₀ s : PTCPSession} (hstrict : s₀.allowGapSkip = false) (hpending : s₀.pending = ∅)
    (hlen : ∀ p ∈ P, 1 ≤ p.body.len ∧ p.body.len ≤ MAX_BODY)
    (htiles : Tiles PTCPPacket.sent PTCPPacket.bodyLen s₀.recv P)
    (h : Receives P s₀ arrivals delivered s) :
    ∃ n, IsFrontier (· ∈ arrivals) P.length n ∧ delivered = P.take n ∧
      s.recv = s₀.recv + lengthU32 (total PTCPPacket.bodyLen (P.take n)) := by
  have hP : Stream s₀.recv.toNat P :=
    ⟨by rwa [SeqNum.wrap_toNat], fun p hp => (hlen p hp).1, fun p hp =>
      Nat.lt_of_le_of_lt (hlen p hp).2 (by decide)⟩
  obtain ⟨_, n, hdelivered, hassembles⟩ :=
    h.assembles hP hstrict hpending (SeqNum.wrap_toNat _).symm
  refine ⟨n, hassembles.frontier, hdelivered, ?_⟩
  rw [hassembles.recv_eq, keyOf, SeqNum.wrap_add, SeqNum.wrap_toNat]
  rfl

/-- Three packets of a stream whose counters wrap. -/
def wrappingStream : List PTCPPacket :=
  [⟨0xFFFFFFFE, 0, 0, 0, 0, .command [1, 2, 3, 4]⟩, ⟨2, 0, 0, 0, 0, .command [5, 6, 7, 8]⟩,
    ⟨6, 0, 0, 0, 0, .heartbeat⟩]

/-- A strict session that waits for it. -/
def wrappingSession : PTCPSession := (fromState 0 0 0xFFFFFFFE 0 0 0).setAllowGapSkip false

/-- The last two packets arrive swapped, one of them twice. -/
theorem strict_recv_exact_swapped :
    ∃ (delivered : List PTCPPacket) (s : PTCPSession) (n : Nat),
      IsFrontier (· ∈ [0, 2, 2, 1]) 3 n ∧ delivered = wrappingStream.take n ∧
      s.recv = wrappingSession.recv +
        lengthU32 (total PTCPPacket.bodyLen (wrappingStream.take n)) := by
  have h₁ : Receives wrappingStream wrappingSession [] [] wrappingSession := .start
  have h₂ := h₁.arrive 0 7 (i := 0) rfl (by decide) (by decide)
  have h₃ := h₂.arrive 0 8 (i := 2) rfl (by decide) (by decide)
  have h₄ := h₃.arrive 0 8 (i := 2) rfl (by decide) (by decide)
  have h₅ := h₄.arrive 0 9 (i := 1) rfl (by decide) (by decide)
  obtain ⟨n, h⟩ := strict_recv_exact rfl rfl (by decide) (by decide) h₅
  exact ⟨_, _, n, h⟩

end DahuaBridge
