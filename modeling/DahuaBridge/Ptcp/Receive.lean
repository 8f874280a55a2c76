import DahuaBridge.Ptcp.Session

/-!
# What one `recv` call does

`recvPacket_spec` says once, for every session and packet, which of four things
a call of `PTCPSession::recv` does: it ignores the packet, buffers it, delivers
from the current offset, or skips a gap. The drain loop is described by the
relation `Drains`, which later proofs use by induction.

The remaining lemmas are the frame: what `recv` leaves alone.
-/

namespace DahuaBridge

namespace PTCPSession

/-! ## The drain loop -/

/-- `Drains pending recv ready recv' pending'`: starting at `recv`, the loop takes
`ready` out of the buffer and stops at `recv'`, where nothing is buffered. -/
inductive Drains : Pending → U32 → List PTCPPacket → U32 → Pending → Prop
  | done {pending : Pending} {recv : U32} :
      pending.lookup recv = none → Drains pending recv [] recv pending
  | next {pending pending' : Pending} {recv recv' : U32} {packet : PTCPPacket}
      {ready : List PTCPPacket} :
      pending.lookup recv = some packet →
      Drains (pending.erase recv) (recv + lengthU32 packet.body.len) ready recv' pending' →
      Drains pending recv (packet :: ready) recv' pending'

theorem length_erase_lt {pending : Pending} {key : U32} {packet : PTCPPacket}
    (h : pending.lookup key = some packet) :
    (pending.erase key).entries.length < pending.entries.length := by
  have hmem : key ∈ pending.keys := AList.mem_keys.mpr (AList.lookup_isSome.mp (by simp [h]))
  have hkeys : (pending.erase key).keys.length = pending.keys.length - 1 := by
    rw [AList.keys_erase, List.length_erase_of_mem hmem]
  have hpos := List.length_pos_of_mem hmem
  simp only [AList.keys, List.keys, List.length_map] at hkeys hpos
  omega

theorem drainLoop_drains {fuel : Nat} {pending : Pending} {recv : U32}
    (hfuel : pending.entries.length ≤ fuel) :
    Drains pending recv (drainLoop fuel pending recv).1 (drainLoop fuel pending recv).2.1
      (drainLoop fuel pending recv).2.2 := by
  induction fuel generalizing pending recv with
  | zero =>
    have hempty : pending.entries = [] := List.length_eq_zero_iff.mp (by omega)
    exact .done (by simp [AList.lookup, hempty])
  | succ fuel ih =>
    cases hlookup : pending.lookup recv with
    | none => simpa only [drainLoop, hlookup] using Drains.done hlookup
    | some packet =>
      have hlt := length_erase_lt hlookup
      simpa only [drainLoop, hlookup] using Drains.next hlookup (ih (by omega))

theorem drains_of_drainContiguous {s s' : PTCPSession} {now : Instant} {ready : List PTCPPacket}
    (h : s.drainContiguous now = (ready, s')) :
    Drains s.pending s.recv ready s'.recv s'.pending := by
  have hdrains : Drains s.pending s.recv (s.drainContiguous now).1 (s.drainContiguous now).2.recv
      (s.drainContiguous now).2.pending := drainLoop_drains (Nat.le_refl _)
  rwa [h] at hdrains

/-- The loop delivers something if a packet is buffered at the receive offset. -/
theorem Drains.length_pos {pending pending' : Pending} {recv recv' : U32} {packet : PTCPPacket}
    {ready : List PTCPPacket} (h : Drains pending recv ready recv' pending')
    (hlookup : pending.lookup recv = some packet) : 0 < ready.length := by
  cases h with
  | done hnone =>
    rw [hlookup] at hnone
    cases hnone
  | next _ _ => exact Nat.succ_pos _

/-- From a buffer with one packet the loop takes that packet out. -/
theorem Drains.recv_of_single {pending' : Pending} {recv recv' : U32} {packet : PTCPPacket}
    {ready : List PTCPPacket}
    (h : Drains ((∅ : Pending).insert recv packet) recv ready recv' pending') :
    recv' = recv + lengthU32 packet.body.len := by
  have hself : ((∅ : Pending).insert recv packet).lookup recv = some packet := AList.lookup_insert _
  have hrest : ∀ key, (((∅ : Pending).insert recv packet).erase recv).lookup key = none := by
    intro key
    by_cases hkey : key = recv
    · rw [hkey, AList.lookup_erase]
    · rw [AList.lookup_erase_ne hkey, AList.lookup_insert_ne hkey, AList.lookup_empty]
  generalize (∅ : Pending).insert recv packet = pending at h hself hrest
  cases h with
  | done hnone =>
    rw [hself] at hnone
    cases hnone
  | next hlookup h =>
    rw [hself] at hlookup
    obtain rfl := Option.some.inj hlookup
    generalize pending.erase recv = pending at h hrest
    cases h with
    | done _ => rfl
    | next hlookup _ =>
      rw [hrest] at hlookup
      cases hlookup

/-! ## The closest buffered start -/

theorem mem_candidates {s : PTCPSession} {key : U32} :
    key ∈ s.pending.keys.filter (sequenceAfter · s.recv) ↔
      key ∈ s.pending ∧ sequenceAfter key s.recv = true := by
  rw [List.mem_filter, AList.mem_keys]

/-- The start that a skip goes to is buffered, ahead of the receive offset, and no
buffered start ahead of the offset is closer. -/
theorem nextStart_eq_some {s : PTCPSession} {start : U32} (h : s.nextStart = some start) :
    start ∈ s.pending ∧ sequenceAfter start s.recv = true ∧
      ∀ key ∈ s.pending, sequenceAfter key s.recv = true →
        (start - s.recv).toNat ≤ (key - s.recv).toNat := by
  have hmin : start ∈ (s.pending.keys.filter (sequenceAfter · s.recv)).argmin
      (fun start => (start - s.recv).toNat) := h
  generalize hdist : (fun start : U32 => (start - s.recv).toNat) = distance at hmin
  obtain ⟨hmem, hafter⟩ := mem_candidates.mp (List.argmin_mem hmin)
  refine ⟨hmem, hafter, fun key hkey hkeyafter => ?_⟩
  have hle := List.le_of_mem_argmin (mem_candidates.mpr ⟨hkey, hkeyafter⟩) hmin
  rw [← hdist] at hle
  exact hle

/-- With a start buffered ahead of the offset there is one to skip to. -/
theorem exists_nextStart {s : PTCPSession} {key : U32} (hmem : key ∈ s.pending)
    (hafter : sequenceAfter key s.recv = true) : ∃ start, s.nextStart = some start := by
  refine Option.ne_none_iff_exists'.mp fun hnone => ?_
  rw [nextStart, List.argmin_eq_none] at hnone
  exact List.not_mem_nil (hnone ▸ mem_candidates.mpr ⟨hmem, hafter⟩)

/-! ## The cases of a call -/

/-- `recv` drops the packet: it is empty, stale, a duplicate, or buffered already. -/
def Ignores (s : PTCPSession) (packet : PTCPPacket) : Prop :=
  packet.body.len = 0 ∨
  (packet.sent ≠ s.recv ∧ sequenceAfter packet.sent s.recv = false) ∨
  sequenceAfter (endOf packet) s.recv = false ∨
  (packet.sent ≠ s.recv ∧ packet.sent ∈ s.pending)

/-- The packet starts ahead of the receive offset and is not buffered yet. -/
def IsAhead (s : PTCPSession) (packet : PTCPPacket) : Prop :=
  0 < packet.body.len ∧ packet.sent ≠ s.recv ∧ sequenceAfter packet.sent s.recv = true ∧
  sequenceAfter (endOf packet) s.recv = true ∧ packet.sent ∉ s.pending

/-- The packet starts at the receive offset. -/
def IsNext (s : PTCPSession) (packet : PTCPPacket) : Prop :=
  0 < packet.body.len ∧ packet.sent = s.recv ∧ sequenceAfter (endOf packet) s.recv = true

/-- The buffer with one more packet, under its own start. -/
def buffered (s : PTCPSession) (packet : PTCPPacket) : Pending :=
  s.pending.insert packet.sent packet

/-- The receiving side is the same. -/
structure SameReceiver (s s' : PTCPSession) : Prop where
  recv : s'.recv = s.recv
  pending : s'.pending = s.pending
  gapPackets : s'.gapPackets = s.gapPackets
  gapSince : s'.gapSince = s.gapSince

/-- `drain_contiguous` has run on `s`. The start of a gap is forgotten only with the
last packet of the buffer. -/
structure Drained (s : PTCPSession) (ready : List PTCPPacket) (s' : PTCPSession) : Prop where
  drains : Drains s.pending s.recv ready s'.recv s'.pending
  gapPackets : s'.gapPackets = if s'.pending.entries.isEmpty then 0 else 1
  gapSince : s'.gapSince = if s'.pending.entries.isEmpty then none else s.gapSince

theorem drained_of_drainContiguous {s s' : PTCPSession} {now : Instant} {ready : List PTCPPacket}
    (h : s.drainContiguous now = (ready, s')) : s.Drained ready s' := by
  have hdrains := drains_of_drainContiguous h
  obtain rfl : (s.drainContiguous now).2 = s' := by rw [h]
  exact ⟨hdrains, rfl, rfl⟩

/-- Every call of `recv` ignores the packet, buffers it, delivers from the
receive offset, or skips to the closest buffered start and delivers from there. -/
theorem recvPacket_spec {timeout : Duration} {s s' : PTCPSession} {now : Instant}
    {packet : PTCPPacket} {ready : List PTCPPacket}
    (h : s.recvPacket timeout now packet = (ready, s')) :
    (s.Ignores packet ∧ ready = [] ∧ s.SameReceiver s') ∨
    (s.IsAhead packet ∧ (s.bufferAhead now packet).skipsGap timeout now packet = false ∧
      ready = [] ∧ (s.bufferAhead now packet).SameReceiver s') ∨
    (s.IsNext packet ∧ Drained { s with pending := s.buffered packet } ready s') ∨
    (s.IsAhead packet ∧ (s.bufferAhead now packet).skipsGap timeout now packet = true ∧
      ∃ start, (s.bufferAhead now packet).nextStart = some start ∧
        Drained { s.bufferAhead now packet with recv := start } ready s') := by
  simp only [recvPacket] at h
  split at h
  · next hlen =>
    cases h
    exact .inl ⟨.inl hlen, rfl, rfl, rfl, rfl, rfl⟩
  next hlen =>
  split at h
  · next hstale =>
    cases h
    exact .inl ⟨.inr (.inl (by simpa [acknowledgeSent] using hstale)), rfl, rfl, rfl, rfl, rfl⟩
  next hstale =>
  split at h
  · next hold =>
    cases h
    exact .inl ⟨.inr (.inr (.inl (by simpa [acknowledgeSent] using hold))), rfl, rfl, rfl, rfl, rfl⟩
  next hold =>
  have hend : sequenceAfter (endOf packet) s.recv = true := by simpa [acknowledgeSent] using hold
  split at h
  · next hnext =>
    obtain ⟨hdrains, hpackets, hsince⟩ := drained_of_drainContiguous h
    exact .inr (.inr (.inl ⟨⟨by omega, hnext, hend⟩, hdrains, hpackets, hsince⟩))
  next hnext =>
  have hafter : sequenceAfter packet.sent s.recv = true := by
    by_contra hfalse
    exact hstale ⟨hnext, by simpa [acknowledgeSent] using hfalse⟩
  split at h
  · next hmem =>
    cases h
    exact .inl ⟨.inr (.inr (.inr ⟨hnext, hmem⟩)), rfl, rfl, rfl, rfl, rfl⟩
  next hmem =>
  have hahead : s.IsAhead packet := ⟨by omega, hnext, hafter, hend, hmem⟩
  split at h
  · next hskip =>
    split at h
    · next hnone =>
      -- the packet itself is buffered ahead of the offset
      obtain ⟨start, hstart⟩ := exists_nextStart (s := s.bufferAhead now packet)
        (AList.mem_insert _ |>.mpr (.inl rfl)) hafter
      cases hnone.symm.trans hstart
    · next start hstart =>
      obtain ⟨hdrains, hpackets, hsince⟩ := drained_of_drainContiguous h
      exact .inr (.inr (.inr ⟨hahead, hskip, start, hstart, hdrains, hpackets, hsince⟩))
  · next hskip =>
    cases h
    exact .inr (.inl ⟨hahead, Bool.eq_false_iff.mpr hskip, rfl, rfl, rfl, rfl, rfl⟩)

/-- The same cases, without the bookkeeping of the gap. -/
theorem recvPacket_cases {timeout : Duration} {s s' : PTCPSession} {now : Instant}
    {packet : PTCPPacket} {ready : List PTCPPacket}
    (h : s.recvPacket timeout now packet = (ready, s')) :
    (s.Ignores packet ∧ ready = [] ∧ s'.recv = s.recv ∧ s'.pending = s.pending) ∨
    (s.IsAhead packet ∧ ready = [] ∧ s'.recv = s.recv ∧ s'.pending = s.buffered packet) ∨
    (s.IsNext packet ∧ Drains (s.buffered packet) s.recv ready s'.recv s'.pending) ∨
    (s.IsAhead packet ∧ (s.bufferAhead now packet).skipsGap timeout now packet = true ∧
      ∃ start, (s.bufferAhead now packet).nextStart = some start ∧
        Drains (s.buffered packet) start ready s'.recv s'.pending) := by
  rcases recvPacket_spec h with ⟨hignores, rfl, hsame⟩ | ⟨hahead, _, rfl, hsame⟩ |
    ⟨hnext, hdrained⟩ | ⟨hahead, hskip, start, hstart, hdrained⟩
  · exact .inl ⟨hignores, rfl, hsame.recv, hsame.pending⟩
  · exact .inr (.inl ⟨hahead, rfl, hsame.recv, hsame.pending⟩)
  · exact .inr (.inr (.inl ⟨hnext, hdrained.drains⟩))
  · exact .inr (.inr (.inr ⟨hahead, hskip, start, hstart, hdrained.drains⟩))

/-- The start of a gap is kept, or it is the instant of a call that finds its packet
beyond a gap. -/
theorem recvPacket_gapSince {timeout : Duration} {s s' : PTCPSession} {now since : Instant}
    {packet : PTCPPacket} {ready : List PTCPPacket}
    (h : s.recvPacket timeout now packet = (ready, s')) (hsince : s'.gapSince = some since) :
    s.gapSince = some since ∨ s.gapSince = none ∧ s.IsAhead packet ∧ since = now := by
  have hbuffer (hahead : s.IsAhead packet) (h : (s.bufferAhead now packet).gapSince = some since) :
      s.gapSince = some since ∨ s.gapSince = none ∧ s.IsAhead packet ∧ since = now := by
    simp only [bufferAhead] at h
    cases hold : s.gapSince with
    | some since' =>
      rw [hold] at h
      exact .inl h
    | none =>
      rw [hold] at h
      exact .inr ⟨rfl, hahead, (Option.some.inj h).symm⟩
  have hdrained {t : PTCPSession} (h : t.Drained ready s') : t.gapSince = some since := by
    rw [h.gapSince] at hsince
    split at hsince
    · cases hsince
    · exact hsince
  rcases recvPacket_spec h with ⟨_, _, hsame⟩ | ⟨hahead, _, _, hsame⟩ | ⟨_, hnext⟩ |
    ⟨hahead, _, _, _, hskip⟩
  · exact .inl (hsame.gapSince ▸ hsince)
  · exact hbuffer hahead (hsame.gapSince ▸ hsince)
  · have hold := hdrained hnext
    exact .inl hold
  · have hold := hdrained hskip
    exact hbuffer hahead hold

/-- The call of `recv` skips a gap. -/
def SkipsOn (s : PTCPSession) (timeout : Duration) (now : Instant) (packet : PTCPPacket) : Prop :=
  s.IsAhead packet ∧ (s.bufferAhead now packet).skipsGap timeout now packet = true

theorem not_isAhead_of_ignores {s : PTCPSession} {packet : PTCPPacket} (h : s.Ignores packet) :
    ¬ s.IsAhead packet := by
  rintro ⟨hpos, _, hafter, hend, hmem⟩
  rcases h with hzero | ⟨_, hstale⟩ | hold | ⟨_, hbuffered⟩
  · exact absurd hzero (Nat.ne_of_gt hpos)
  · exact absurd (hafter.symm.trans hstale) (by decide)
  · exact absurd (hend.symm.trans hold) (by decide)
  · exact hmem hbuffered

theorem not_isNext_of_ignores {s : PTCPSession} {packet : PTCPPacket} (h : s.Ignores packet) :
    ¬ s.IsNext packet := by
  rintro ⟨hpos, hnext, hend⟩
  rcases h with hzero | ⟨hne, _⟩ | hold | ⟨hne, _⟩
  · exact absurd hzero (Nat.ne_of_gt hpos)
  · exact hne hnext
  · exact absurd (hend.symm.trans hold) (by decide)
  · exact hne hnext

/-- In strict mode `recv` never skips. -/
theorem recvPacket_strict {timeout : Duration} {s s' : PTCPSession} {now : Instant}
    {packet : PTCPPacket} {ready : List PTCPPacket} (hstrict : s.allowGapSkip = false)
    (h : s.recvPacket timeout now packet = (ready, s')) :
    (s.Ignores packet ∧ ready = [] ∧ s'.recv = s.recv ∧ s'.pending = s.pending) ∨
    (s.IsAhead packet ∧ ready = [] ∧ s'.recv = s.recv ∧ s'.pending = s.buffered packet) ∨
    (s.IsNext packet ∧ Drains (s.buffered packet) s.recv ready s'.recv s'.pending) := by
  rcases recvPacket_cases h with h | h | h | ⟨_, hskip, _⟩
  · exact .inl h
  · exact .inr (.inl h)
  · exact .inr (.inr h)
  · simp [skipsGap, bufferAhead, hstrict] at hskip

/-- An empty packet only acknowledges. -/
theorem recvPacket_empty {s s' : PTCPSession} {timeout : Duration} {now : Instant}
    {packet : PTCPPacket} {ready : List PTCPPacket} (hstrict : s.allowGapSkip = false)
    (hempty : packet.body.len = 0) (h : s.recvPacket timeout now packet = (ready, s')) :
    ready = [] ∧ s'.recv = s.recv ∧ s'.pending = s.pending := by
  rcases recvPacket_strict hstrict h with ⟨_, hrest⟩ | ⟨⟨hpos, _⟩, _⟩ | ⟨⟨hpos, _⟩, _⟩
  · exact hrest
  · exact absurd hempty (Nat.ne_of_gt hpos)
  · exact absurd hempty (Nat.ne_of_gt hpos)

/-- A packet at the receive offset of a session with nothing buffered moves the
offset by its decoded length. -/
theorem recvPacket_next_recv {timeout : Duration} {s : PTCPSession} {now : Instant}
    {packet : PTCPPacket} (hpending : s.pending = ∅) (hsent : packet.sent = s.recv)
    (hlen : packet.body.len < 2 ^ 31) :
    (s.recvPacket timeout now packet).2.recv = s.recv + lengthU32 packet.body.len := by
  rcases recvPacket_cases (Prod.eta (s.recvPacket timeout now packet)).symm with
    ⟨hignores, _, hrecv, _⟩ | ⟨⟨_, hne, _⟩, _⟩ | ⟨_, hdrains⟩ | ⟨⟨_, hne, _⟩, _⟩
  · -- only an empty body is ignored here
    have hzero : packet.body.len = 0 := by
      by_contra hpos
      have hend : sequenceAfter (endOf packet) s.recv = true := by
        rw [sequenceAfter, decide_eq_true_iff, endOf, hsent, lengthU32, ← SeqNum.wrap_toNat s.recv,
          ← SeqNum.wrap_add]
        exact SeqNum.after_wrap (by omega) (by omega)
      rcases hignores with h | ⟨h, _⟩ | h | ⟨h, _⟩
      · exact hpos h
      · exact h hsent
      · simp [hend] at h
      · exact h hsent
    rw [hrecv, hzero]
    exact (BitVec.add_zero _).symm
  · exact absurd hsent hne
  · rw [buffered, hpending, hsent] at hdrains
    exact hdrains.recv_of_single
  · exact absurd hsent hne

/-! ## What `recv` leaves alone -/

/-- The sending side after `recv`: only the acknowledgement and `rmid` change it. -/
structure SameSender (s s' : PTCPSession) (packet : PTCPPacket) : Prop where
  sent : s'.sent = s.sent
  count : s'.count = s.count
  id : s'.id = s.id
  rmid : s'.rmid = packet.lmid
  sentWindow : s'.sentWindow = (s.acknowledgeSent packet.recv).sentWindow
  allowGapSkip : s'.allowGapSkip = s.allowGapSkip

theorem recvPacket_sameSender {timeout : Duration} {s s' : PTCPSession} {now : Instant}
    {packet : PTCPPacket} {ready : List PTCPPacket}
    (h : s.recvPacket timeout now packet = (ready, s')) : SameSender s s' packet := by
  obtain rfl : (s.recvPacket timeout now packet).2 = s' := by rw [h]
  simp only [recvPacket]
  repeat' split
  all_goals exact ⟨rfl, rfl, rfl, rfl, rfl, rfl⟩

end PTCPSession

end DahuaBridge
