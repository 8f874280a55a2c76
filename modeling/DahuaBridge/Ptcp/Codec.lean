import DahuaBridge.Lib.Run
import DahuaBridge.Ptcp.Session

/-!
# What the parsers accept

`PTCPPacket::parse` against `serialize`, and against arbitrary bytes.

* `parse_serialize`: a packet is read back from the bytes that `serialize` writes,
  for every header and every body of `Encodable`.
* `parse_isSome_iff`: the parsers assert and index without a check of their own.
  `parse` returns exactly on the datagrams of `WellFormed`; on all others it panics.
* `receiveAll_isSome_iff`: a panic ends the task `dh_reader`, so the task outlives
  exactly the runs of well-formed datagrams.
-/

namespace DahuaBridge

/-! ## Reading a `u32` -/

theorem toNat_append_byte {n : Nat} (x : BitVec n) (b : UInt8) :
    (x ++ b.toBitVec).toNat = x.toNat * 256 + b.toNat := by
  rw [BitVec.toNat_append, Nat.shiftLeft_eq, Nat.mul_comm,
    ← Nat.two_pow_add_eq_or_of_lt b.toBitVec.isLt, UInt8.toNat_toBitVec, Nat.mul_comm]

theorem toNat_fromBeBytes (b0 b1 b2 b3 : UInt8) : (fromBeBytes b0 b1 b2 b3).toNat =
    ((b0.toNat * 256 + b1.toNat) * 256 + b2.toNat) * 256 + b3.toNat := by
  unfold fromBeBytes
  rw [toNat_append_byte, toNat_append_byte, toNat_append_byte, UInt8.toNat_toBitVec]

/-- The byte of a `u32` that starts at bit `start`. -/
theorem toNat_byte (v : U32) (start : Nat) :
    (⟨v.extractLsb' start 8⟩ : UInt8).toNat = v.toNat / 2 ^ start % 256 := by
  show (v.extractLsb' start 8).toNat = _
  rw [BitVec.extractLsb'_toNat, Nat.shiftRight_eq_div_pow]

theorem fromBeBytes_toBeBytes (v : U32) :
    fromBeBytes ⟨v.extractLsb' 24 8⟩ ⟨v.extractLsb' 16 8⟩ ⟨v.extractLsb' 8 8⟩ ⟨v.extractLsb' 0 8⟩ =
      v := by
  apply BitVec.eq_of_toNat_eq
  have hlt := v.isLt
  rw [toNat_fromBeBytes, toNat_byte, toNat_byte, toNat_byte, toNat_byte]
  omega

/-- The four indices are in range, or the read panics. -/
theorem u32At_isSome_iff {data : Bytes} {i : Nat} : (u32At data i).isSome ↔ i + 4 ≤ data.length := by
  simp only [u32At, Option.isSome_iff_exists, Option.bind_eq_bind, Option.bind_eq_some_iff,
    List.getElem?_eq_some_iff]
  constructor
  · rintro ⟨_, _, _, _, _, _, _, _, ⟨h3, _⟩, _⟩
    omega
  · intro h
    exact ⟨_, _, ⟨by omega, rfl⟩, _, ⟨by omega, rfl⟩, _, ⟨by omega, rfl⟩, _, ⟨by omega, rfl⟩, rfl⟩

/-! ## Round trip -/

/-- The length word of a payload: a tag byte over the length. -/
theorem toNat_header {n : Nat} (h : n ≤ 65535) :
    ((0x10000000 : U32) ||| lengthU32 n).toNat = 0x10000000 + n := by
  have hn : (lengthU32 n).toNat = n := by
    simp only [lengthU32, SeqNum.wrap, BitVec.toNat_ofNat]
    omega
  rw [BitVec.toNat_or, hn]
  exact (Nat.two_pow_add_eq_or_of_lt (i := 28) (b := n) (by omega) 1).symm

theorem toNat_and_ffff (v : U32) : (v &&& 0xFFFF).toNat = v.toNat % 65536 := by
  rw [BitVec.toNat_and]
  exact Nat.and_two_pow_sub_one_eq_mod v.toNat 16

theorem PTCPPayload.parse_serialize {p : PTCPPayload} (h : p.data.length ≤ 65535) :
    PTCPPayload.parse p.serialize = some p := by
  have hheader := toNat_header h
  have hlength : ((0x10000000 : U32) ||| lengthU32 p.data.length) &&& 0xFFFF =
      lengthU32 p.data.length := by
    apply BitVec.eq_of_toNat_eq
    rw [toNat_and_ffff, hheader, lengthU32, SeqNum.wrap, BitVec.toNat_ofNat]
    omega
  have htag : (⟨((0x10000000 : U32) ||| lengthU32 p.data.length).extractLsb' 24 8⟩ : UInt8) =
      0x10 := by
    apply UInt8.toNat_inj.mp
    rw [toNat_byte, hheader]
    show _ = 16
    omega
  simp only [PTCPPayload.serialize]
  generalize (0x10000000 : U32) ||| lengthU32 p.data.length = header at hlength htag
  generalize hbytes : toBeBytes header ++ toBeBytes p.realm ++ toBeBytes 0 ++ p.data = bytes
  have hfirst : bytes[0]? = some 0x10 := hbytes ▸ congrArg some htag
  have hheader : u32At bytes 0 = some header := hbytes ▸ congrArg some (fromBeBytes_toBeBytes header)
  have hrealm : u32At bytes 4 = some p.realm :=
    hbytes ▸ congrArg some (fromBeBytes_toBeBytes p.realm)
  have hpadding : u32At bytes 8 = some 0 := hbytes ▸ congrArg some (fromBeBytes_toBeBytes 0)
  have hdrop : bytes.drop 12 = p.data := hbytes ▸ rfl
  have hlen : 12 ≤ bytes.length := hbytes ▸ Nat.le_add_left ..
  unfold PTCPPayload.parse
  simp only [hfirst, hheader, hrealm, hpadding, hdrop, guard, if_pos hlen, if_true]
  show (if header &&& 0xFFFF = lengthU32 p.data.length then some () else none).bind
    (fun _ => some p) = some p
  rw [if_pos hlength]
  rfl

/-- The bodies that are read back from the bytes that `serialize` writes. A command's
bytes must not carry the tag of another body, and the length word of a payload has 16 bits. -/
def PTCPBody.Encodable : PTCPBody → Prop
  | .command data => 4 ≤ data.length ∧ ∀ tag ∈ data.head?, tag ∉ [0x00, 0x10, 0x11, 0x12, 0x13]
  | .payload p => p.data.length ≤ 65535
  | _ => True

instance : DecidablePred PTCPBody.Encodable := fun body => by
  haveI hhead (data tags : Bytes) : Decidable (∀ tag ∈ data.head?, tag ∉ tags) :=
    Option.decidableForallMem data.head?
  cases body <;> unfold PTCPBody.Encodable <;> infer_instance

/-- `status.as_bytes()` decodes to `status`. -/
theorem fromUtf8Lossy_asBytes (s : String) : fromUtf8Lossy (asBytes s) = s := by
  rw [fromUtf8Lossy, asBytes, Utf8.lossy_encode, String.ofList_toList]

/-- A payload carries its tag, as its own parser has checked. -/
theorem PTCPPayload.parse_tag {data : Bytes} {p : PTCPPayload}
    (h : PTCPPayload.parse data = some p) : ∃ rest, data = 0x10 :: rest ∧ 4 ≤ data.length := by
  simp only [parse, Option.bind_eq_bind, Option.bind_eq_some_iff] at h
  obtain ⟨_, hlen, _, htag, _⟩ := h
  have hlen : 12 ≤ data.length := by simpa using hlen
  have htag : data[0]? = some 0x10 := by simpa using htag
  cases data with
  | nil => cases htag
  | cons tag rest => exact ⟨rest, by rw [Option.some.inj htag], by omega⟩

theorem PTCPBody.parse_serialize {body : PTCPBody} (h : body.Encodable) :
    PTCPBody.parse body.serialize = some body := by
  cases body with
  | sync => rfl
  | heartbeat => rfl
  | empty => rfl
  | command data =>
    obtain ⟨hlen, htag⟩ := h
    cases data with
    | nil => exact absurd hlen (by decide)
    | cons tag rest =>
      have htag := htag tag rfl
      simp only [List.mem_cons, List.not_mem_nil, or_false, not_or] at htag
      obtain ⟨h0, h10, h11, h12, h13⟩ := htag
      rw [serialize, parse]
      simp only [guard, if_pos hlen, if_neg h0, if_neg h10, if_neg h11, if_neg h12, if_neg h13]
      rfl
  | payload p =>
    have hparse := PTCPPayload.parse_serialize h
    obtain ⟨rest, hrest, hlen⟩ := PTCPPayload.parse_tag hparse
    rw [serialize]
    rw [hrest] at hparse hlen ⊢
    simp only [parse, guard, if_pos hlen, hparse]
    rfl
  | bind realm port =>
    have hrealm : u32At (serialize (.bind realm port)) 4 = some realm :=
      congrArg some (fromBeBytes_toBeBytes realm)
    have hport : u32At (serialize (.bind realm port)) 12 = some port :=
      congrArg some (fromBeBytes_toBeBytes port)
    exact congrArg₂ (fun realm port : Option U32 => do
      let realm ← realm
      let port ← port
      some (PTCPBody.bind realm port)) hrealm hport
  | status realm text =>
    have hrealm : u32At (serialize (.status realm text)) 4 = some realm :=
      congrArg some (fromBeBytes_toBeBytes realm)
    have hlen : 12 ≤ (serialize (.status realm text)).length := Nat.le_add_left ..
    have hdrop : (serialize (.status realm text)).drop 12 = asBytes text := rfl
    have hcons : ∃ rest, serialize (.status realm text) = 0x12 :: rest := ⟨_, rfl⟩
    obtain ⟨rest, hrest⟩ := hcons
    rw [hrest] at hrealm hlen hdrop ⊢
    simp only [parse, guard, if_pos hlen, if_pos (Nat.le_trans (by decide : 4 ≤ 12) hlen), hrealm,
      hdrop, fromUtf8Lossy_asBytes]
    rfl

theorem PTCPPacket.parse_serialize_some {p : PTCPPacket} (h : p.body.Encodable) :
    PTCPPacket.parse p.serialize = some p := by
  have hbody := PTCPBody.parse_serialize h
  have hsent : u32At p.serialize 4 = some p.sent := congrArg some (fromBeBytes_toBeBytes p.sent)
  have hrecv : u32At p.serialize 8 = some p.recv := congrArg some (fromBeBytes_toBeBytes p.recv)
  have hpid : u32At p.serialize 12 = some p.pid := congrArg some (fromBeBytes_toBeBytes p.pid)
  have hlmid : u32At p.serialize 16 = some p.lmid := congrArg some (fromBeBytes_toBeBytes p.lmid)
  have hrmid : u32At p.serialize 20 = some p.rmid := congrArg some (fromBeBytes_toBeBytes p.rmid)
  have hdrop : p.serialize.drop 24 = p.body.serialize := rfl
  have hmagic : p.serialize.take 4 = magic := rfl
  have hlen : 24 ≤ p.serialize.length := Nat.le_add_left ..
  unfold PTCPPacket.parse
  simp only [guard, if_pos hlen, if_pos hmagic, hsent, hrecv, hpid, hlmid, hrmid, hdrop, hbody]
  rfl

/-- Every packet with an encodable body is read back from the bytes that `serialize`
writes, and these are as many as `len` says. -/
theorem packet_round_trip (p : PTCPPacket) (h : p.body.Encodable) :
    PTCPPacket.parse p.serialize = some p ∧ p.serialize.length = 24 + p.body.len :=
  ⟨PTCPPacket.parse_serialize_some h, PTCPPacket.length_serialize p⟩

/-- A payload packet whose header fields use all four bytes. -/
def roundTripPacket : PTCPPacket :=
  ⟨0x01020304, 0xFFFFFFFF, 0x0000FFFE, 0x80000000, 7, .payload ⟨0xDEADBEEF, [0x24, 0, 0xFF]⟩⟩

theorem packet_round_trip_payload :
    PTCPPacket.parse roundTripPacket.serialize = some roundTripPacket ∧
      roundTripPacket.serialize.length = 24 + roundTripPacket.body.len :=
  packet_round_trip roundTripPacket (by decide)

/-! ## Arbitrary bytes -/

/-- The length in the last two bytes of a payload's first word. -/
def lengthField (body : Bytes) : Nat := (body.getD 2 0).toNat * 256 + (body.getD 3 0).toNat

/-- The body bytes on which every assertion holds and every index is in range. -/
def WellFormedBody : Bytes → Prop
  | [] => True
  | tag :: rest =>
    let body := tag :: rest
    4 ≤ body.length ∧
      if tag = 0x10 then
        12 ≤ body.length ∧ (body.drop 8).take 4 = [0, 0, 0, 0] ∧
          lengthField body = body.length - 12
      else if tag = 0x11 then 16 ≤ body.length
      else if tag = 0x12 then 12 ≤ body.length
      else True

instance : DecidablePred WellFormedBody := fun body => by
  cases body <;> unfold WellFormedBody <;> infer_instance

/-- A datagram that `ptcp_read` can take: a PTCP header and a well-formed body. -/
def WellFormed (d : Bytes) : Prop := 24 ≤ d.length ∧ d.take 4 = magic ∧ WellFormedBody (d.drop 24)

instance : DecidablePred WellFormed := fun _ => by unfold WellFormed; infer_instance

theorem getElem?_eq_getD {data : Bytes} {i : Nat} (h : i < data.length) :
    data[i]? = some (data.getD i 0) := by
  rw [List.getD_eq_getElem?_getD, List.getElem?_eq_getElem h, Option.getD_some]

/-- The value at an index that is in range. -/
theorem u32At_eq {data : Bytes} {i : Nat} (h : i + 4 ≤ data.length) :
    u32At data i = some (fromBeBytes (data.getD i 0) (data.getD (i + 1) 0) (data.getD (i + 2) 0)
      (data.getD (i + 3) 0)) := by
  rw [u32At, getElem?_eq_getD (by omega : i < data.length),
    getElem?_eq_getD (by omega : i + 1 < data.length),
    getElem?_eq_getD (by omega : i + 2 < data.length),
    getElem?_eq_getD (by omega : i + 3 < data.length)]
  rfl

theorem take_drop_eq {data : Bytes} {i : Nat} (h : i + 4 ≤ data.length) :
    (data.drop i).take 4 =
      [data.getD i 0, data.getD (i + 1) 0, data.getD (i + 2) 0, data.getD (i + 3) 0] := by
  apply List.ext_getElem?
  intro j
  rw [List.getElem?_take, List.getElem?_drop]
  match j with
  | 0 => exact getElem?_eq_getD (by omega)
  | 1 => exact getElem?_eq_getD (by omega)
  | 2 => exact getElem?_eq_getD (by omega)
  | 3 => exact getElem?_eq_getD (by omega)
  | j + 4 => simp

theorem fromBeBytes_eq_zero_iff {b0 b1 b2 b3 : UInt8} :
    fromBeBytes b0 b1 b2 b3 = 0 ↔ [b0, b1, b2, b3] = [0, 0, 0, 0] := by
  rw [← BitVec.toNat_inj, toNat_fromBeBytes]
  simp only [List.cons.injEq, and_true, ← UInt8.toNat_inj]
  show _ = 0 ↔ _ = 0 ∧ _ = 0 ∧ _ = 0 ∧ _ = 0
  omega

theorem and_ffff_eq_iff {b0 b1 b2 b3 : UInt8} {n : Nat} (h : n ≤ 65535) :
    fromBeBytes b0 b1 b2 b3 &&& 0xFFFF = lengthU32 n ↔ b2.toNat * 256 + b3.toNat = n := by
  have h2 := b2.toNat_lt
  have h3 := b3.toNat_lt
  rw [← BitVec.toNat_inj, toNat_and_ffff, toNat_fromBeBytes, lengthU32, SeqNum.wrap,
    BitVec.toNat_ofNat]
  omega

theorem isSome_bind_iff {α β : Type} {o : Option α} {f : α → Option β} {P : Prop}
    (hf : ∀ a, (f a).isSome ↔ P) : (o.bind f).isSome ↔ o.isSome ∧ P := by
  cases o with
  | none => simp only [Option.bind_none, Option.isSome_none, Bool.false_eq_true, false_and]
  | some a => simp only [Option.bind_some, hf a, Option.isSome_some, true_and]

theorem isSome_guard_bind {α : Type} {P : Prop} [Decidable P] {f : Unit → Option α} :
    ((guard P : Option Unit).bind f).isSome ↔ P ∧ (f ()).isSome := by
  by_cases h : P
  · rw [guard, if_pos h]
    exact (and_iff_right h).symm
  · rw [guard, if_neg h]
    exact iff_of_false Bool.false_ne_true fun hsome => h hsome.1

/-- The checks of `PTCPPayload::parse`, on the bytes of one datagram. -/
theorem PTCPPayload.parse_isSome_iff {data : Bytes} (hsize : data.length ≤ 65535)
    (htag : data[0]? = some 0x10) :
    (PTCPPayload.parse data).isSome ↔ 12 ≤ data.length ∧ (data.drop 8).take 4 = [0, 0, 0, 0] ∧
      lengthField data = data.length - 12 := by
  simp only [parse, Option.bind_eq_bind, isSome_guard_bind]
  refine and_congr_right fun hlen => ?_
  rw [u32At_eq (by omega : 0 + 4 ≤ data.length), u32At_eq (by omega : 4 + 4 ≤ data.length),
    u32At_eq (by omega : 8 + 4 ≤ data.length)]
  simp only [htag, true_and, Option.bind_some, isSome_guard_bind, Option.isSome_some, and_true]
  have hdata : (data.drop 12).length ≤ 65535 := Nat.le_trans (List.drop_sublist 12 data).length_le hsize
  rw [take_drop_eq (by omega), ← fromBeBytes_eq_zero_iff, lengthField, ← List.length_drop,
    ← @and_ffff_eq_iff (data.getD 0 0) (data.getD 1 0) _ _ _ hdata]

theorem PTCPBody.parse_isSome_iff {data : Bytes} (hsize : data.length ≤ 65535) :
    (PTCPBody.parse data).isSome ↔ WellFormedBody data := by
  cases data with
  | nil => exact ⟨fun _ => trivial, fun _ => rfl⟩
  | cons tag rest =>
    have hfirst : (tag :: rest)[0]? = some tag := rfl
    simp only [WellFormedBody, parse]
    generalize tag :: rest = data at *
    simp only [Option.bind_eq_bind, isSome_guard_bind]
    refine and_congr_right fun hlen => ?_
    split
    · next htag =>
      subst htag
      exact ⟨fun _ => trivial, fun _ => rfl⟩
    split
    · next htag =>
      subst htag
      rw [Option.map_eq_map, Option.isSome_map]
      exact PTCPPayload.parse_isSome_iff hsize hfirst
    split
    · -- `Bind` is read at 4 and at 12
      have hport (realm : U32) :
          ((u32At data 12).bind fun port => some (bind realm port)).isSome ↔ 16 ≤ data.length := by
        rw [isSome_bind_iff fun _ => iff_true_intro rfl, and_true, u32At_isSome_iff]
      rw [isSome_bind_iff hport, u32At_isSome_iff]
      omega
    split
    · -- `Status` is read at 4, and its text from 12 on
      have htext (realm : U32) : ((guard (12 ≤ data.length) : Option Unit).bind fun _ =>
          some (status realm (fromUtf8Lossy (data.drop 12)))).isSome ↔ 12 ≤ data.length := by
        rw [isSome_guard_bind, Option.isSome_some, and_iff_left rfl]
      rw [isSome_bind_iff htext, u32At_isSome_iff]
      omega
    split
    · exact ⟨fun _ => trivial, fun _ => rfl⟩
    · exact ⟨fun _ => trivial, fun _ => rfl⟩

theorem PTCPPacket.parse_isSome_iff {d : Bytes} (hsize : d.length ≤ 65535) :
    (PTCPPacket.parse d).isSome ↔ WellFormed d := by
  simp only [parse, WellFormed, Option.bind_eq_bind, isSome_guard_bind]
  refine and_congr_right fun hlen => and_congr_right fun _ => ?_
  rw [u32At_eq (by omega : 4 + 4 ≤ d.length), u32At_eq (by omega : 8 + 4 ≤ d.length),
    u32At_eq (by omega : 12 + 4 ≤ d.length), u32At_eq (by omega : 16 + 4 ≤ d.length),
    u32At_eq (by omega : 20 + 4 ≤ d.length)]
  simp only [Option.bind_some]
  rw [isSome_bind_iff fun _ => iff_true_intro rfl, and_true]
  exact PTCPBody.parse_isSome_iff (by rw [List.length_drop]; omega)

/-! ## The receive task -/

/-- One round of `dh_reader`, up to the delivery of the packets; `none` is a panic of the
parser. `now` is the instant of `recv`, and `later` that of `send`. -/
def PTCPSession.receiveDatagram (timeout : Duration) (s : PTCPSession) (now later : Instant)
    (d : Bytes) : Option (List PTCPPacket × PTCPSession) := do
  let packet ← PTCPPacket.parse d
  let shouldAck := packet.body ≠ .empty
  let (packets, s) := s.recvPacket timeout now packet
  some (packets, if shouldAck then (s.send later .empty).2 else s)

/-- A datagram with the instants of its `recv` and `send`. -/
abbrev Arrival := Bytes × Instant × Instant

/-- The session of `dh_reader` after a run of datagrams; `none` is a task that has panicked. -/
def receiveAll (timeout : Duration) (s : PTCPSession) (datagrams : List Arrival) :
    Option PTCPSession :=
  Run.run (fun s x => (s.receiveDatagram timeout x.2.1 x.2.2 x.1).map Prod.snd) datagrams s

theorem receiveDatagram_isSome_iff {timeout : Duration} {s : PTCPSession} {now later : Instant}
    {d : Bytes} (hsize : d.length ≤ 65535) :
    (s.receiveDatagram timeout now later d).isSome ↔ WellFormed d := by
  rw [← PTCPPacket.parse_isSome_iff hsize]
  exact (isSome_bind_iff fun _ => iff_true_intro rfl).trans (iff_of_eq (and_true _))

/-- The task outlives a run exactly if every datagram is well-formed. -/
theorem receiveAll_isSome_iff {timeout : Duration} {s : PTCPSession}
    {datagrams : List Arrival} (hsize : ∀ x ∈ datagrams, x.1.length ≤ 65535) :
    (receiveAll timeout s datagrams).isSome ↔ ∀ x ∈ datagrams, WellFormed x.1 := by
  induction datagrams generalizing s with
  | nil => exact iff_of_true rfl fun _ h => absurd h List.not_mem_nil
  | cons x rest ih =>
    obtain ⟨d, now, later⟩ := x
    obtain ⟨hd, hrest⟩ := List.forall_mem_cons.mp hsize
    have hcons := isSome_bind_iff (f := fun s => receiveAll timeout s rest)
      (o := (s.receiveDatagram timeout now later d).map Prod.snd) fun _ => ih hrest
    rw [Option.isSome_map, receiveDatagram_isSome_iff hd] at hcons
    rw [List.forall_mem_cons]
    exact hcons

/-- The parser returns on a datagram exactly if it is well-formed, and after a run of
datagrams `dh_reader` is there for the next one exactly if all of them were. -/
theorem reader_survives_iff (timeout : Duration) (s : PTCPSession)
    (datagrams : List Arrival) (hsize : ∀ x ∈ datagrams, x.1.length ≤ 65535) :
    (∀ x ∈ datagrams, (PTCPPacket.parse x.1).isSome ↔ WellFormed x.1) ∧
      ((receiveAll timeout s datagrams).isSome ↔ ∀ x ∈ datagrams, WellFormed x.1) :=
  ⟨fun x hx => PTCPPacket.parse_isSome_iff (hsize x hx), receiveAll_isSome_iff hsize⟩

/-- A hole-punch acknowledgement, as the hand-off may leave it in the socket. -/
def holePunchAck : Bytes := [0xFE, 0xFE, 0xFF, 0xE7]

theorem reader_survives_iff_heartbeat :
    (receiveAll 0 (PTCPSession.new 0)
      [(PTCPPacket.serialize ⟨0, 0, 0, 0, 0, .heartbeat⟩, 0, 0)]).isSome :=
  (reader_survives_iff 0 (PTCPSession.new 0)
    [(PTCPPacket.serialize ⟨0, 0, 0, 0, 0, .heartbeat⟩, 0, 0)] (by decide)).2.mpr (by decide)

/-- It is not a packet, and the parser panics on it. -/
theorem holePunchAck_panics : ¬ ∀ d : Bytes, d.length ≤ 65535 → (PTCPPacket.parse d).isSome :=
  fun h => absurd (h holePunchAck (by decide)) (by decide)

end DahuaBridge
