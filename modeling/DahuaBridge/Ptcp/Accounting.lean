import DahuaBridge.Ptcp.Receive

/-!
# Receive accounting against the wire

`PTCPSession::recv` advances its offset by `body.len()`, a number that is
computed from the decoded body. This module compares it with the number of body
bytes that were in the datagram.

* `parse_body`: what a successful `PTCPPacket::parse` says about the datagram.
* `len_parse_iff`: `PTCPBody::len` is the wire length exactly for the bodies of
  `lengthKept`. `Sync`, `Bind` and `Heartbeat` report a constant, whatever
  follows their tag, and `Status` reports the length of its decoded text.
-/

namespace DahuaBridge

/-- The bodies whose decoded length is their length on the wire. -/
def lengthKept (body : Bytes) : Prop :=
  match body with
  | [] => True
  | tag :: _ =>
    if tag = 0x00 then body.length = 4
    else if tag = 0x10 then True
    else if tag = 0x11 then body.length = 20
    else if tag = 0x12 then ∀ width ∈ Utf8.invalidWidths (body.drop 12), width = 3
    else if tag = 0x13 then body.length = 12
    else True

instance : ∀ body : Bytes, Decidable (lengthKept body)
  | [] => instDecidableTrue
  | tag :: rest => by
    unfold lengthKept
    infer_instance

theorem PTCPPayload.parse_data {data : Bytes} {payload : PTCPPayload}
    (h : PTCPPayload.parse data = some payload) :
    12 ≤ data.length ∧ payload.data = data.drop 12 := by
  simp only [parse, Option.bind_eq_bind, Option.bind_eq_some_iff] at h
  obtain ⟨_, hlen, _, _, _, _, _, _, _, _, _, _, _, _, h⟩ := h
  exact ⟨by simpa using hlen, by simp [← Option.some.inj h]⟩

theorem len_status (realm : U32) (bytes : Bytes) :
    (PTCPBody.status realm (fromUtf8Lossy bytes)).len =
      Tiling.total Char.utf8Size (Utf8.lossy bytes) + 12 := by
  simp [PTCPBody.len, fromUtf8Lossy, utf8ByteSize_ofList]

/-- The decoded length is the wire length exactly for the bodies of `lengthKept`. -/
theorem PTCPBody.len_parse_iff {data : Bytes} {body : PTCPBody}
    (h : PTCPBody.parse data = some body) : body.len = data.length ↔ lengthKept data := by
  cases data with
  | nil =>
    obtain rfl : PTCPBody.empty = body := by simpa [parse] using h
    simp [lengthKept, len]
  | cons tag rest =>
    simp only [parse, Option.bind_eq_bind, Option.bind_eq_some_iff] at h
    obtain ⟨_, _, h⟩ := h
    simp only [lengthKept]
    split at h
    · next htag =>
      obtain rfl := Option.some.inj h
      rw [if_pos htag]
      exact eq_comm
    next hSync =>
    rw [if_neg hSync]
    split at h
    · next htag =>
      -- a payload's length field was checked against the datagram
      obtain ⟨p, hp, rfl⟩ := Option.map_eq_some_iff.mp h
      obtain ⟨hlen, hdata⟩ := PTCPPayload.parse_data hp
      rw [if_pos htag]
      simp only [len, hdata, List.length_drop, iff_true]
      omega
    next hPayload =>
    rw [if_neg hPayload]
    split at h
    · next htag =>
      obtain ⟨realm, _, port, _, h⟩ := by
        simpa only [Option.bind_eq_bind, Option.bind_eq_some_iff] using h
      obtain rfl := Option.some.inj h
      rw [if_pos htag]
      exact eq_comm
    next hBind =>
    rw [if_neg hBind]
    split at h
    · next htag =>
      obtain ⟨realm, _, _, hlen, h⟩ := by
        simpa only [Option.bind_eq_bind, Option.bind_eq_some_iff] using h
      obtain rfl := Option.some.inj h
      have hlen : 12 ≤ (tag :: rest).length := by simpa using hlen
      have hdrop : ((tag :: rest).drop 12).length + 12 = (tag :: rest).length := by
        rw [List.length_drop]
        omega
      rw [if_pos htag, len_status, ← hdrop, Nat.add_right_cancel_iff, Utf8.utf8Length_lossy_eq_iff]
    next hStatus =>
    rw [if_neg hStatus]
    split at h
    · next htag =>
      obtain rfl := Option.some.inj h
      rw [if_pos htag]
      exact eq_comm
    next hHeartbeat =>
    rw [if_neg hHeartbeat]
    obtain rfl := Option.some.inj h
    simp [len]

/-- A parsed packet has a full header, and its body is the parsed rest. -/
theorem PTCPPacket.parse_body {d : Bytes} {p : PTCPPacket} (h : PTCPPacket.parse d = some p) :
    24 ≤ d.length ∧ PTCPBody.parse (d.drop 24) = some p.body := by
  simp only [parse, Option.bind_eq_bind, Option.bind_eq_some_iff] at h
  obtain ⟨_, hlen, _, _, _, _, _, _, _, _, _, _, _, _, body, hbody, h⟩ := h
  obtain rfl := Option.some.inj h
  exact ⟨by simpa using hlen, hbody⟩

/-- A decoded body is at most three times as long as the datagram, but for the
constants that short bodies report. -/
theorem PTCPBody.len_parse_le {data : Bytes} {body : PTCPBody}
    (h : PTCPBody.parse data = some body) : body.len ≤ 3 * data.length + 20 := by
  cases data with
  | nil =>
    obtain rfl : PTCPBody.empty = body := by simpa [parse] using h
    simp [len]
  | cons tag rest =>
    simp only [parse, Option.bind_eq_bind, Option.bind_eq_some_iff] at h
    obtain ⟨_, _, h⟩ := h
    split at h
    · obtain rfl := Option.some.inj h
      simp only [len]
      omega
    split at h
    · obtain ⟨p, hp, rfl⟩ := Option.map_eq_some_iff.mp h
      obtain ⟨hlen, hdata⟩ := PTCPPayload.parse_data hp
      simp only [len, hdata, List.length_drop]
      omega
    split at h
    · obtain ⟨realm, _, port, _, h⟩ := by
        simpa only [Option.bind_eq_bind, Option.bind_eq_some_iff] using h
      obtain rfl := Option.some.inj h
      simp only [len]
      omega
    split at h
    · obtain ⟨realm, _, _, hlen, h⟩ := by
        simpa only [Option.bind_eq_bind, Option.bind_eq_some_iff] using h
      obtain rfl := Option.some.inj h
      have hle := Utf8.utf8Length_lossy_le ((tag :: rest).drop 12)
      rw [len_status]
      rw [List.length_drop] at hle
      omega
    split at h
    · obtain rfl := Option.some.inj h
      simp only [len]
      omega
    · obtain rfl := Option.some.inj h
      simp only [len]
      omega

/-- For every datagram that parses, the decoded length is the number of body
bytes on the wire exactly when the body is one of `lengthKept`. Exactly then
`recv` advances its offset by what was on the wire. -/
theorem recv_length_iff_kept {d : Bytes} {p : PTCPPacket} (h : PTCPPacket.parse d = some p) :
    (p.body.len = d.length - 24 ↔ lengthKept (d.drop 24)) ∧
    ∀ (timeout : Duration) (s : PTCPSession) (now : Instant),
      d.length ≤ 65535 → s.pending = ∅ → p.sent = s.recv →
      ((s.recvPacket timeout now p).2.recv = s.recv + lengthU32 (d.length - 24) ↔
        lengthKept (d.drop 24)) := by
  obtain ⟨hheader, hbody⟩ := PTCPPacket.parse_body h
  have hiff : p.body.len = d.length - 24 ↔ lengthKept (d.drop 24) := by
    rw [← PTCPBody.len_parse_iff hbody, List.length_drop]
  refine ⟨hiff, fun timeout s now hsize hpending hsent => ?_⟩
  have hle := PTCPBody.len_parse_le hbody
  rw [List.length_drop] at hle
  rw [PTCPSession.recvPacket_next_recv hpending hsent (by omega), ← hiff]
  constructor
  · intro heq
    exact SeqNum.wrap_inj (by omega) (by omega) (BitVec.add_right_inj _ |>.mp heq)
  · intro heq
    rw [heq]

/-- A `Status` datagram with the text `D`. -/
theorem recv_length_iff_kept_status :
    (PTCPBody.status 7 "D").len = 37 - 24 ∧
    ((PTCPSession.new 0).recvPacket 0 0 ⟨0, 0, 0, 0, 0, .status 7 "D"⟩).2.recv = 0 + 13 :=
  have h : PTCPPacket.parse (magic ++ List.replicate 20 0 ++
      [0x12, 0, 0, 0, 0, 0, 0, 7, 0, 0, 0, 0, 0x44]) = some ⟨0, 0, 0, 0, 0, .status 7 "D"⟩ := by
    decide
  have hkept := recv_length_iff_kept h
  ⟨hkept.1.mpr (by decide), (hkept.2 0 (PTCPSession.new 0) 0 (by decide) rfl rfl).mpr (by decide)⟩

/-- A heartbeat whose body is only its four tag bytes. -/
def shortHeartbeat : Bytes := magic ++ List.replicate 20 0 ++ [0x13, 0, 0, 0]

/-- `recv` counts twelve bytes for it, where the wire had four. -/
theorem shortHeartbeat_length :
    ¬ ∀ d p, PTCPPacket.parse d = some p → p.body.len = d.length - 24 := by
  intro h
  have := h shortHeartbeat ⟨0, 0, 0, 0, 0, .heartbeat⟩ (by decide)
  exact absurd this (by decide)

end DahuaBridge
