import Mathlib.Algebra.Order.Group.Multiset
import Mathlib.Tactic.Abel
import DahuaBridge.Ptcp.Receive

/-!
# What happens to a received packet

For packets of any shape, in strict mode: every non-empty packet that `recv` was
given has been delivered, is in the buffer, or was thrown away, and no packet is
in two of these places.

* `Keyed`: each buffered packet is stored under its own start.
* `Drains.held`, `Drains.tiles`: the drain loop moves packets from the buffer to
  the caller, and what it hands out is contiguous.
* `Conserved`: the account over a run, kept by `Conserved.receive`.
* `Conserved.perm_of_total_eq`: a session whose offset has moved by the length of
  all it was given has delivered all of it.
-/

namespace DahuaBridge

open Tiling PTCPSession

/-! ## The packets in the buffer -/

/-- The packets in the buffer. -/
def heldPackets (pending : Pending) : Multiset PTCPPacket := pending.entries.map Sigma.snd

/-- Each buffered packet is stored under its own start. -/
def Keyed (pending : Pending) : Prop :=
  ∀ key packet, pending.lookup key = some packet → packet.sent = key

theorem heldPackets_erase {pending : Pending} {key : U32} {packet : PTCPPacket}
    (h : pending.lookup key = some packet) :
    heldPackets pending = packet ::ₘ heldPackets (pending.erase key) := by
  have hmem : key ∈ pending.entries.keys := AList.lookup_isSome.mp (by rw [h]; rfl)
  obtain ⟨q, l₁, l₂, hl₁, hentries, herase⟩ := List.exists_of_kerase hmem
  have hq : q = packet := by
    have hin : (⟨key, q⟩ : Sigma fun _ : U32 => PTCPPacket) ∈ pending.entries := by
      rw [hentries]
      exact List.mem_append_right _ List.mem_cons_self
    have hlookup : pending.lookup key = some q := AList.mem_lookup_iff.mpr hin
    exact Option.some.inj (hlookup.symm.trans h)
  have hrest : (pending.erase key).entries = l₁ ++ l₂ := herase
  rw [heldPackets, heldPackets, hrest, hentries, hq, List.map_append, List.map_append,
    List.map_cons, Multiset.cons_coe, Multiset.coe_eq_coe]
  exact List.perm_middle

/-- An insertion keeps what was there, but for a packet with the same key. -/
theorem exists_heldPackets_insert (pending : Pending) (key : U32) (packet : PTCPPacket) :
    ∃ lost, packet ::ₘ heldPackets pending = heldPackets (pending.insert key packet) + lost := by
  have hinsert : heldPackets (pending.insert key packet) =
      packet ::ₘ heldPackets (pending.erase key) := rfl
  cases hlookup : pending.lookup key with
  | none =>
    have hentries : (pending.erase key).entries = pending.entries :=
      List.kerase_of_notMem_keys (AList.lookup_eq_none.mp hlookup)
    refine ⟨0, ?_⟩
    rw [hinsert, add_zero, heldPackets, heldPackets, hentries]
  | some old =>
    refine ⟨{old}, ?_⟩
    rw [hinsert, heldPackets_erase hlookup, Multiset.cons_swap, ← Multiset.singleton_add old,
      add_comm]

theorem Keyed.insert {pending : Pending} (h : Keyed pending) (packet : PTCPPacket) :
    Keyed (pending.insert packet.sent packet) := by
  intro key q hq
  by_cases hkey : key = packet.sent
  · rw [hkey, AList.lookup_insert] at hq
    rw [hkey, Option.some.inj hq]
  · rw [AList.lookup_insert_ne hkey] at hq
    exact h key q hq

theorem Keyed.erase {pending : Pending} (h : Keyed pending) (key : U32) :
    Keyed (pending.erase key) := by
  intro key' q hq
  by_cases hkey : key' = key
  · rw [hkey, AList.lookup_erase] at hq
    cases hq
  · rw [AList.lookup_erase_ne hkey] at hq
    exact h key' q hq

/-! ## The drain loop -/

namespace PTCPSession

variable {pending pending' : Pending} {recv recv' : U32} {ready : List PTCPPacket}

/-- The loop moves packets from the buffer to its result. -/
theorem Drains.held (h : Drains pending recv ready recv' pending') :
    heldPackets pending = ↑ready + heldPackets pending' := by
  induction h with
  | done _ => rw [Multiset.coe_nil, zero_add]
  | next hlookup _ ih =>
    rw [heldPackets_erase hlookup, ih, ← Multiset.cons_coe, Multiset.cons_add]

/-- What the loop hands out is contiguous, from the old to the new offset. -/
theorem Drains.tiles (h : Drains pending recv ready recv' pending') (hkeyed : Keyed pending) :
    Tiles PTCPPacket.sent PTCPPacket.bodyLen recv ready ∧
      recv' = recv + SeqNum.wrap 32 (total PTCPPacket.bodyLen ready) ∧ Keyed pending' := by
  induction h with
  | done _ => exact ⟨trivial, (BitVec.add_zero _).symm, hkeyed⟩
  | @next pending _ recv _ packet _ hlookup _ ih =>
    obtain ⟨htiles, hrecv', hkeyed'⟩ := ih (hkeyed.erase recv)
    refine ⟨⟨hkeyed recv packet hlookup, htiles⟩, ?_, hkeyed'⟩
    rw [hrecv', total_cons, SeqNum.wrap_add, BitVec.add_assoc]
    rfl

end PTCPSession

/-! ## The account of a run -/

/-- The packets with non-empty bodies. -/
def nonEmpty (packets : List PTCPPacket) : List PTCPPacket :=
  packets.filter fun packet => 0 < packet.bodyLen

/-- The account of a strict session that started at `base`: where each of the
packets `received` has gone. -/
structure Conserved (base : Nat) (received delivered : List PTCPPacket) (s : PTCPSession) :
    Prop where
  strict : s.allowGapSkip = false
  keyed : Keyed s.pending
  tiles : Tiles PTCPPacket.sent PTCPPacket.bodyLen (SeqNum.wrap 32 base) delivered
  recv_eq : s.recv = SeqNum.wrap 32 (base + total PTCPPacket.bodyLen delivered)
  account : ∃ lost : Multiset PTCPPacket,
    (nonEmpty received : Multiset PTCPPacket) = delivered + heldPackets s.pending + lost

theorem conserved_start {base : Nat} {s : PTCPSession} (hstrict : s.allowGapSkip = false)
    (hpending : s.pending = ∅) (hrecv : s.recv = SeqNum.wrap 32 base) :
    Conserved base [] [] s where
  strict := hstrict
  keyed := by simp [Keyed, hpending]
  tiles := trivial
  recv_eq := hrecv
  account := ⟨0, by simp [nonEmpty, heldPackets, hpending]⟩

section Conserved

variable {base : Nat} {received delivered ready : List PTCPPacket} {s s' : PTCPSession}
  {packet : PTCPPacket}

/-- Only the receiving side matters to the account. -/
theorem Conserved.of_same (h : Conserved base received delivered s) (hrecv : s'.recv = s.recv)
    (hpending : s'.pending = s.pending) (hstrict : s'.allowGapSkip = s.allowGapSkip) :
    Conserved base received delivered s' where
  strict := hstrict.trans h.strict
  keyed := hpending ▸ h.keyed
  tiles := h.tiles
  recv_eq := hrecv.trans h.recv_eq
  account := hpending ▸ h.account

theorem nonEmpty_append_singleton (received : List PTCPPacket) (packet : PTCPPacket) :
    nonEmpty (received ++ [packet]) =
      if 0 < packet.bodyLen then nonEmpty received ++ [packet] else nonEmpty received := by
  rw [nonEmpty, List.filter_append]
  split
  · next hpos => simp [nonEmpty, hpos]
  · next hpos => simp [nonEmpty, hpos]

/-- One call of `recv`, with any packet, keeps the account. -/
theorem Conserved.receive {timeout : Duration} {now : Instant}
    (h : Conserved base received delivered s)
    (hrecv : s.recvPacket timeout now packet = (ready, s')) :
    Conserved base (received ++ [packet]) (delivered ++ ready) s' := by
  obtain ⟨lost, haccount⟩ := h.account
  have hsame := (recvPacket_sameSender hrecv).allowGapSkip
  rcases recvPacket_strict h.strict hrecv with
    ⟨_, rfl, hrecv', hpending'⟩ | ⟨hahead, rfl, hrecv', hpending'⟩ | ⟨hnext, hdrains⟩
  · -- ignored: the packet joins what was lost
    rw [List.append_nil]
    refine ⟨hsame.trans h.strict, hpending' ▸ h.keyed, h.tiles, hrecv'.trans h.recv_eq, ?_⟩
    rw [hpending', nonEmpty_append_singleton]
    split
    · refine ⟨lost + {packet}, ?_⟩
      rw [← Multiset.coe_add, haccount, Multiset.coe_singleton, add_assoc]
    · exact ⟨lost, haccount⟩
  · -- buffered
    obtain ⟨lost', hlost'⟩ := exists_heldPackets_insert s.pending packet.sent packet
    have hpos : 0 < packet.bodyLen := hahead.1
    rw [List.append_nil]
    refine ⟨hsame.trans h.strict, ?_, h.tiles, hrecv'.trans h.recv_eq, lost' + lost, ?_⟩
    · rw [hpending']
      exact h.keyed.insert packet
    · rw [nonEmpty_append_singleton, if_pos hpos, ← Multiset.coe_add, haccount, hpending', buffered,
        Multiset.coe_singleton]
      rw [← Multiset.singleton_add] at hlost'
      calc (delivered + heldPackets s.pending + lost + {packet} : Multiset PTCPPacket)
          = delivered + ({packet} + heldPackets s.pending) + lost := by abel
        _ = delivered + (heldPackets (s.pending.insert packet.sent packet) + lost') + lost := by
          rw [hlost']
        _ = _ := by abel
  · -- delivered, with what follows it in the buffer
    obtain ⟨lost', hlost'⟩ := exists_heldPackets_insert s.pending packet.sent packet
    have hpos : 0 < packet.bodyLen := hnext.1
    have hheld : heldPackets (s.pending.insert packet.sent packet) =
      ready + heldPackets s'.pending := hdrains.held
    obtain ⟨htiles, hoffset, hkeyed⟩ := hdrains.tiles (h.keyed.insert packet)
    rw [h.recv_eq] at htiles hoffset
    refine ⟨hsame.trans h.strict, hkeyed, ?_, ?_, lost' + lost, ?_⟩
    · refine tiles_append.mpr ⟨h.tiles, ?_⟩
      rwa [← SeqNum.wrap_add]
    · rw [hoffset, ← SeqNum.wrap_add, total_append, Nat.add_assoc]
    · rw [nonEmpty_append_singleton, if_pos hpos, ← Multiset.coe_add, ← Multiset.coe_add, haccount,
        Multiset.coe_singleton]
      rw [← Multiset.singleton_add] at hlost'
      calc (delivered + heldPackets s.pending + lost + {packet} : Multiset PTCPPacket)
          = delivered + ({packet} + heldPackets s.pending) + lost := by abel
        _ = delivered + (ready + heldPackets s'.pending + lost') + lost := by rw [hlost', hheld]
        _ = _ := by abel

/-- What was delivered, and the rest of what was received, as lists. -/
theorem Conserved.exists_rest (h : Conserved base received delivered s) :
    ∃ rest, (nonEmpty received).Perm (delivered ++ rest) ∧
      total PTCPPacket.bodyLen received =
        total PTCPPacket.bodyLen delivered + total PTCPPacket.bodyLen rest := by
  obtain ⟨lost, haccount⟩ := h.account
  obtain ⟨rest, hrest⟩ := Quot.exists_rep (heldPackets s.pending + lost)
  have hperm : (nonEmpty received).Perm (delivered ++ rest) := by
    rw [← Multiset.coe_eq_coe, haccount, add_assoc, ← hrest, ← Multiset.coe_add]
    rfl
  refine ⟨rest, hperm, ?_⟩
  have hsum : total PTCPPacket.bodyLen (nonEmpty received) =
      total PTCPPacket.bodyLen received := total_filter_pos received
  rw [← hsum, total_perm hperm, total_append]

theorem Conserved.total_le (h : Conserved base received delivered s) :
    total PTCPPacket.bodyLen delivered ≤ total PTCPPacket.bodyLen received := by
  obtain ⟨rest, _, htotal⟩ := h.exists_rest
  exact htotal ▸ Nat.le_add_right _ _

/-- A session whose offset has moved by the length of all that it was given has
delivered all of it. -/
theorem Conserved.perm_of_total_eq (h : Conserved base received delivered s)
    (htotal : total PTCPPacket.bodyLen delivered = total PTCPPacket.bodyLen received) :
    delivered.Perm (nonEmpty received) := by
  obtain ⟨rest, hperm, hsum⟩ := h.exists_rest
  have hpos : ∀ p ∈ rest, 0 < p.bodyLen := fun p hp => by
    have hmem := hperm.mem_iff.mpr (List.mem_append_right delivered hp)
    simpa using List.of_mem_filter hmem
  obtain rfl := eq_nil_of_total_eq_zero hpos (by omega)
  rw [List.append_nil] at hperm
  exact hperm.symm

end Conserved

end DahuaBridge
