import DahuaBridge.Engine.Isolation
import DahuaBridge.Engine.Upstream
import DahuaBridge.Engine.Session
import DahuaBridge.Engine.View
import DahuaBridge.Ptcp.Reassembly

/-!
# The tunnel, end to end

An engine, the network and a camera. The camera sends a stream of packets, which come in in
any order, with losses and duplicates, and it orders what it gets as a strict session does.

* `openedRealms`: a realm is put into `channels` once, when its client connects, so the data
  that is looked up for it is that of one stretch of the camera's stream (`lookedUp_eq`).
* `Tunnel`: the system, and `Tunnel.Joined`, its invariant.
* `tunnel_download`: what an RTSP client has got of the camera's stream.
* `tunnel_upload`: what the camera has got of what an RTSP client has sent.
-/

namespace DahuaBridge.Engine

open Tiling

/-! ## The stretch of a realm -/

def openedRealms (notes : List Note) : List U32 :=
  notes.filterMap fun | .opened realm => some realm | _ => none

def Note.opens (realm : U32) : Note → Bool
  | .opened r => r = realm
  | _ => false

/-- The note says that the realm leaves `channels`. -/
def Note.closes (realm : U32) : Note → Bool
  | .opened _ => false
  | .closed r => r = realm
  | .handled packet =>
    match packet.body with
    | .status r status => r = realm ∧ status = "DISC"
    | _ => false

/-- The packets that `dh_reader` looked at before the client with this realm connected. -/
def packetsBefore (realm : U32) (notes : List Note) : List PTCPPacket :=
  handledPackets (notes.takeWhile fun n => !n.opens realm)

/-- The packets that it looked at from then on until the realm left `channels`. -/
def packetsDuring (realm : U32) (notes : List Note) : List PTCPPacket :=
  handledPackets (((notes.dropWhile fun n => !n.opens realm).drop 1).takeWhile fun n =>
    !n.closes realm)

def payloadsFor (realm : U32) (packets : List PTCPPacket) : List PTCPPacket :=
  packets.filter fun packet =>
    match packet.body with
    | .payload p => p.realm = realm
    | _ => false

/-- The data of the payloads for a realm. -/
def bytesFor (realm : U32) (packets : List PTCPPacket) : Bytes :=
  payloadBytes (payloadsFor realm packets)

section Notes

variable {realm : U32} {notes before after : List Note} {n : Note} {packets : List PTCPPacket}

theorem payloadsFor_append (realm : U32) (packets packets' : List PTCPPacket) :
    payloadsFor realm (packets ++ packets') = payloadsFor realm packets ++ payloadsFor realm packets' :=
  List.filter_append ..

theorem handledPackets_append (notes notes' : List Note) :
    handledPackets (notes ++ notes') = handledPackets notes ++ handledPackets notes' :=
  List.filterMap_append ..

theorem not_opens (h : realm ∉ openedRealms notes) (hn : n ∈ notes) : n.opens realm = false := by
  cases n with
  | opened r =>
    refine decide_eq_false fun hr => h (List.mem_filterMap.mpr ⟨_, hn, ?_⟩)
    rw [hr]
  | closed r => rfl
  | handled packet => rfl

theorem disc_of_closes {packet : PTCPPacket} (h : (Note.handled packet).closes realm = true) :
    packet.body = .status realm "DISC" := by
  unfold Note.closes at h
  cases hbody : packet.body with
  | status r status =>
    simp only [hbody] at h
    obtain ⟨rfl, rfl⟩ := of_decide_eq_true h
    rfl
  | _ =>
    simp only [hbody] at h
    cases h

/-- A realm that is not in `channels` gets no payload. -/
theorem note_of_absent (hn : n.opens realm = false) :
    Track.note realm ⟨false, packets⟩ n = ⟨false, packets⟩ := by
  cases n with
  | opened r => exact if_neg (of_decide_eq_false hn)
  | closed r =>
    simp only [Track.note]
    split <;> rfl
  | handled packet =>
    simp only [Track.note]
    split
    · split <;> rfl
    · exact if_neg fun hboth => Bool.false_ne_true hboth.2
    · rfl

theorem note_of_closes (hn : n.closes realm = true) :
    Track.note realm ⟨true, packets⟩ n = ⟨false, packets⟩ := by
  cases n with
  | opened r => cases hn
  | closed r => exact if_pos (of_decide_eq_true hn)
  | handled packet =>
    unfold Note.closes at hn
    cases hbody : packet.body with
    | status r status =>
      simp only [hbody] at hn
      simp only [Track.note, hbody]
      exact if_pos (of_decide_eq_true hn)
    | _ =>
      simp only [hbody] at hn
      cases hn

theorem note_of_present (hn : n.opens realm = false) (hopen : n.closes realm = false) :
    Track.note realm ⟨true, packets⟩ n =
      ⟨true, packets ++ payloadsFor realm (handledPackets [n])⟩ := by
  cases n with
  | opened r =>
    rw [show payloadsFor realm (handledPackets [.opened r]) = [] from rfl, List.append_nil]
    exact if_neg (of_decide_eq_false hn)
  | closed r =>
    rw [show payloadsFor realm (handledPackets [.closed r]) = [] from rfl, List.append_nil]
    exact if_neg (of_decide_eq_false hopen)
  | handled packet =>
    unfold Note.closes at hopen
    rw [show handledPackets [.handled packet] = [packet] from rfl, payloadsFor]
    cases hbody : packet.body with
    | status r status =>
      simp only [hbody] at hopen
      simp only [Track.note, hbody, if_neg (of_decide_eq_false hopen)]
      rw [List.filter_cons_of_neg (by rw [hbody]; exact Bool.false_ne_true), List.filter_nil,
        List.append_nil]
    | payload p =>
      simp only [Track.note, hbody]
      by_cases hrealm : p.realm = realm
      · rw [if_pos ⟨hrealm, trivial⟩, List.filter_cons_of_pos (by rw [hbody]; exact decide_eq_true hrealm),
          List.filter_nil]
      · rw [if_neg fun hboth => hrealm hboth.1,
          List.filter_cons_of_neg (by rw [hbody]; exact fun htrue => hrealm (of_decide_eq_true htrue)),
          List.filter_nil, List.append_nil]
    | _ =>
      simp only [Track.note, hbody]
      rw [List.filter_cons_of_neg (by rw [hbody]; exact Bool.false_ne_true), List.filter_nil,
        List.append_nil]

theorem foldl_note_absent (h : realm ∉ openedRealms notes) :
    notes.foldl (Track.note realm) ⟨false, packets⟩ = ⟨false, packets⟩ := by
  induction notes with
  | nil => rfl
  | cons n notes ih =>
    rw [List.foldl_cons, note_of_absent (not_opens h List.mem_cons_self)]
    refine ih fun hmem => h ?_
    rw [openedRealms, List.mem_filterMap] at hmem ⊢
    obtain ⟨m, hm, hopened⟩ := hmem
    exact ⟨m, List.mem_cons_of_mem _ hm, hopened⟩

/-- A realm that is in `channels` gets its payloads until it is closed. -/
theorem foldl_note_present (h : realm ∉ openedRealms notes) :
    notes.foldl (Track.note realm) ⟨true, packets⟩ =
      ⟨notes.all fun n => !n.closes realm,
        packets ++ payloadsFor realm (handledPackets (notes.takeWhile fun n => !n.closes realm))⟩ := by
  induction notes generalizing packets with
  | nil => exact congrArg (Track.mk true) (List.append_nil _).symm
  | cons n notes ih =>
    have hrest : realm ∉ openedRealms notes := by
      intro hmem
      rw [openedRealms, List.mem_filterMap] at hmem h
      obtain ⟨m, hm, hopened⟩ := hmem
      exact h ⟨m, List.mem_cons_of_mem _ hm, hopened⟩
    rw [List.foldl_cons, List.all_cons, List.takeWhile_cons]
    cases hcloses : n.closes realm with
    | true =>
      rw [note_of_closes hcloses, foldl_note_absent hrest]
      exact congrArg (Track.mk false) (List.append_nil _).symm
    | false =>
      rw [note_of_present (not_opens h List.mem_cons_self) hcloses, ih hrest, List.append_assoc,
        ← payloadsFor_append, ← handledPackets_append]
      rfl

theorem openedRealms_append (notes notes' : List Note) :
    openedRealms (notes ++ notes') = openedRealms notes ++ openedRealms notes' :=
  List.filterMap_append ..

/-- A realm that is opened once splits the notes. -/
theorem exists_opened (hnodup : (openedRealms notes).Nodup) (hmem : realm ∈ openedRealms notes) :
    ∃ before after, notes = before ++ .opened realm :: after ∧ realm ∉ openedRealms before ∧
      realm ∉ openedRealms after := by
  obtain ⟨n, hn, hopened⟩ := List.mem_filterMap.mp hmem
  obtain ⟨before, after, rfl⟩ := List.append_of_mem hn
  obtain rfl : n = .opened realm := by
    cases n with
    | opened r => rw [Option.some.inj hopened]
    | closed r => cases hopened
    | handled packet => cases hopened
  have hsplit : openedRealms (.opened realm :: after) = realm :: openedRealms after := rfl
  rw [openedRealms_append, hsplit] at hnodup
  have hapart := (List.nodup_append.mp hnodup).2.2
  refine ⟨before, after, rfl, fun hin => ?_, ?_⟩
  · exact hapart realm hin realm List.mem_cons_self rfl
  · exact (List.nodup_cons.mp (List.nodup_append.mp hnodup).2.1).1

theorem takeWhile_split (hbefore : realm ∉ openedRealms before) :
    (before ++ .opened realm :: after).takeWhile (fun n => !n.opens realm) = before ∧
      (before ++ .opened realm :: after).dropWhile (fun n => !n.opens realm) =
        .opened realm :: after := by
  have hall : ∀ n ∈ before, (!n.opens realm) = true := fun n hn => by rw [not_opens hbefore hn]; rfl
  have hself : (Note.opened realm).opens realm = true := decide_eq_true rfl
  rw [List.takeWhile_append_of_pos hall, List.dropWhile_append_of_pos hall, List.takeWhile_cons,
    List.dropWhile_cons, hself]
  exact ⟨List.append_nil _, rfl⟩

/-- The data that was looked up for a realm is that of a stretch of the packets handled. It goes
on as long as the realm is in `channels`. -/
theorem stretch_of_opened (hnodup : (openedRealms notes).Nodup) (hmem : realm ∈ openedRealms notes) :
    lookedUp realm notes = bytesFor realm (packetsDuring realm notes) ∧
      ((track realm notes).present = true ∧
          handledPackets notes = packetsBefore realm notes ++ packetsDuring realm notes ∨
        (track realm notes).present = false ∧ ∃ n rest, n ∈ notes ∧ n.closes realm = true ∧
          handledPackets notes = packetsBefore realm notes ++ packetsDuring realm notes ++
            handledPackets (n :: rest)) := by
  obtain ⟨before, after, rfl, hbefore, hafter⟩ := exists_opened hnodup hmem
  have htrack : track realm (before ++ .opened realm :: after) =
      ⟨after.all fun n => !n.closes realm,
        payloadsFor realm (handledPackets (after.takeWhile fun n => !n.closes realm))⟩ := by
    have hopen : Track.note realm ⟨false, []⟩ (.opened realm) = ⟨true, []⟩ := if_pos rfl
    have hstart : ({} : Track) = ⟨false, []⟩ := rfl
    rw [track, List.foldl_append, hstart, foldl_note_absent hbefore, List.foldl_cons, hopen,
      foldl_note_present hafter, List.nil_append]
  have hhandled : handledPackets (before ++ .opened realm :: after) =
      handledPackets before ++ handledPackets after := handledPackets_append _ _
  obtain ⟨htake, hdrop⟩ := @takeWhile_split realm before after hbefore
  rw [lookedUp, htrack, packetsBefore, packetsDuring, htake, hdrop, List.drop_one, List.tail_cons,
    hhandled]
  refine ⟨rfl, ?_⟩
  cases hall : after.all fun n => !n.closes realm with
  | true =>
    refine .inl ⟨rfl, ?_⟩
    rw [List.takeWhile_eq_self_iff.mpr (List.all_eq_true.mp hall)]
  | false =>
    refine .inr ⟨rfl, ?_⟩
    obtain ⟨n, rest, hrest⟩ : ∃ n rest, after.dropWhile (fun n => !n.closes realm) = n :: rest := by
      refine List.exists_cons_of_ne_nil fun hnil => ?_
      rw [List.all_eq_true.mpr (List.dropWhile_eq_nil_iff.mp hnil)] at hall
      cases hall
    have hcloses : n.closes realm = true := by
      have hfirst := List.head?_dropWhile_not (fun n => !Note.closes realm n) after
      rw [hrest] at hfirst
      simpa using hfirst
    have hafter' : after = after.takeWhile (fun n => !n.closes realm) ++ n :: rest := by
      rw [← hrest, List.takeWhile_append_dropWhile]
    refine ⟨n, rest, ?_, hcloses, ?_⟩
    · rw [hafter']
      exact List.mem_append_right _ (List.mem_cons_of_mem _
        (List.mem_append_right _ List.mem_cons_self))
    · have hsplit := handledPackets_append (after.takeWhile fun n => !n.closes realm) (n :: rest)
      rw [List.append_assoc, ← hsplit, ← hafter']

end Notes

/-! ## Realms are opened once -/

section Opened

variable {config : Config} {base : Nat} {e e' : Engine} {i : Nat} {c : Client}

def opened (e : Engine) : List U32 := openedRealms e.notes

/-- Only a new client opens a realm. -/
theorem opened_step {event : Event} (hne : ∀ service realm, event ≠ .accept service realm)
    (hstep : step config e event = some e') : e'.opened = e.opened := by
  have hnote {n : Note} (hnotes : e'.notes = e.notes ++ [n]) (h : openedRealms [n] = []) :
      e'.opened = e.opened := by
    rw [opened, hnotes, openedRealms_append, h, List.append_nil, opened]
  cases step_footprint hstep with
  | accept service realm hevent _ => exact absurd hevent (hne service realm)
  | task i c _ _ htask =>
    have hnotes := htask.notes
    split at hnotes
    · exact hnote hnotes rfl
    · exact congrArg openedRealms hnotes
  | quiet _ _ hquiet => exact congrArg openedRealms hquiet.notes
  | packet now packet packets _ _ heq => exact hnote (heq ▸ handlePacket_notes) rfl
  | forward now i data packets _ _ heq =>
    subst heq
    rfl
  | removeConn now realm packets _ _ heq =>
    subst heq
    exact congrArg openedRealms signalConn_shared.2

/-- The realms are opened in the order of the clients. -/
theorem realms_step {event : Event} (hdemux : Demux base e) (hslots : Slots e)
    (hopened : e.opened = e.clients.map Client.realm) (hstep : step config e event = some e') :
    e'.opened = e'.clients.map Client.realm := by
  by_cases hne : ∀ service realm, event ≠ .accept service realm
  · have hviews := step_views hdemux.toRegistry hslots hstep
    have hlength := hviews.length hne
    rw [opened_step hne hstep, hopened]
    refine List.ext_getElem? fun i => ?_
    rw [List.getElem?_map, List.getElem?_map]
    cases hc : e.clients[i]? with
    | none =>
      have hnone : e'.clients[i]? = none :=
        List.getElem?_eq_none_iff.mpr (hlength ▸ List.getElem?_eq_none_iff.mp hc)
      rw [hnone]
    | some c =>
      obtain ⟨c', hc', hrealm, -, -⟩ := hviews.step i c hc
      rw [hc', Option.map_some, Option.map_some, hrealm]
  · obtain ⟨service, realm, rfl⟩ : ∃ service realm, event = .accept service realm := by
      simpa only [not_forall, not_not] using hne
    have haccept : e.accept service realm = some e' := by
      unfold Engine.step at hstep
      split at hstep
      · cases hstep
      · exact hstep
    obtain ⟨-, onvifSlots, rfl⟩ := accept_eq_some haccept
    have hmore : openedRealms (e.notes ++ [.opened realm]) = e.opened ++ [realm] :=
      openedRealms_append e.notes [.opened realm]
    show openedRealms (e.notes ++ [.opened realm]) = List.map Client.realm (e.clients ++ [_])
    rw [hmore, hopened, List.map_append]
    rfl

end Opened

/-! ## The system -/

/-- An engine and the receiving side of a camera. -/
structure Tunnel where
  engine : Engine
  camera : PTCPSession
  /-- The packets of the camera's stream that have come in. -/
  arrived : List Nat := []
  /-- The packets of the engine that the camera has got. -/
  got : List Nat := []
  /-- What the camera's session has returned. -/
  delivered : List PTCPPacket := []

inductive TunnelEvent
  | task (event : Event)
  | arrive (now : Instant) (i : Nat)
  /-- A packet without a body, which is in no stream. -/
  | empty (now : Instant) (packet : PTCPPacket)
  | get (timeout : Duration) (now : Instant) (i : Nat)

/-- What the engine sends, less the acknowledgements. -/
def Tunnel.uplink (t : Tunnel) : List PTCPPacket := nonEmpty t.engine.sent

/-- The network loses, repeats, delays and reorders. -/
def Tunnel.step (config : Config) (P : List PTCPPacket) (t : Tunnel) : TunnelEvent → Option Tunnel
  | .task (.receive _ _) => none
  | .task event => (Engine.step config t.engine event).map fun engine => { t with engine }
  | .arrive now i =>
    match P[i]? with
    | some packet =>
      (Engine.step config t.engine (.receive now packet)).map fun engine =>
        { t with engine, arrived := t.arrived ++ [i] }
    | none => none
  | .empty now packet =>
    if packet.bodyLen = 0 then
      (Engine.step config t.engine (.receive now packet)).map fun engine => { t with engine }
    else none
  | .get timeout now i =>
    match t.uplink[i]? with
    | some packet =>
      let (packets, camera) := t.camera.recvPacket timeout now packet
      some { t with camera, delivered := t.delivered ++ packets, got := t.got ++ [i] }
    | none => none

/-- A packet comes in near the offset of its receiver. -/
def Tunnel.Near (P : List PTCPPacket) (t : Tunnel) : TunnelEvent → Prop
  | .arrive _ i => InWindow P t.engine.delivered.length i
  | .get _ _ i => InWindow t.uplink t.delivered.length i
  | _ => True

instance (P : List PTCPPacket) (n i : Nat) : Decidable (InWindow P n i) :=
  inferInstanceAs (Decidable (_ ∧ _))

instance (P : List PTCPPacket) (t : Tunnel) : ∀ event, Decidable (t.Near P event)
  | .task _ => .isTrue trivial
  | .arrive _ i => inferInstanceAs (Decidable (InWindow P t.engine.delivered.length i))
  | .empty _ _ => .isTrue trivial
  | .get _ _ i => inferInstanceAs (Decidable (InWindow t.uplink t.delivered.length i))

/-- The state of the two ends after the handshake, and the stream of the camera. -/
structure Tunnel.Agreed (session camera : PTCPSession) (P : List PTCPPacket) : Prop where
  strict : session.allowGapSkip = false
  pending : session.pending = ∅
  stream : Stream session.recv.toNat P
  cameraStrict : camera.allowGapSkip = false
  cameraPending : camera.pending = ∅
  cameraRecv : camera.recv = session.sent

def Tunnel.start (session camera : PTCPSession) : Tunnel := { engine := Engine.start session, camera }

/-! ## The invariant -/

/-- A strict session that has got the packets `held` of a stream has delivered a prefix. -/
structure Follows (base : Nat) (P : List PTCPPacket) (held : List Nat)
    (delivered : List PTCPPacket) (s : PTCPSession) : Prop where
  strict : s.allowGapSkip = false
  delivered_eq : delivered = P.take delivered.length
  assembles : Assembles base P (· ∈ held) delivered.length s.recv s.pending

section Follows

variable {base i : Nat} {P delivered : List PTCPPacket} {held : List Nat} {s s' : PTCPSession}
  {packet : PTCPPacket}

theorem follows_start (hstrict : s.allowGapSkip = false) (hpending : s.pending = ∅)
    (hrecv : s.recv = SeqNum.wrap 32 base) : Follows base P [] [] s where
  strict := hstrict
  delivered_eq := rfl
  assembles := (assembles_start hrecv hpending).congr fun i => by simp

theorem Follows.of_same (h : Follows base P held delivered s) (hrecv : s'.recv = s.recv)
    (hpending : s'.pending = s.pending) (hstrict : s'.allowGapSkip = s.allowGapSkip) :
    Follows base P held delivered s' where
  strict := hstrict.trans h.strict
  delivered_eq := h.delivered_eq
  assembles := by rw [hrecv, hpending]; exact h.assembles

theorem Follows.receive {timeout : Duration} {now : Instant} (hP : Stream base P)
    (h : Follows base P held delivered s) (hp : P[i]? = some packet)
    (hwindow : InWindow P delivered.length i) :
    Follows base P (held ++ [i]) (delivered ++ (s.recvPacket timeout now packet).1)
      (s.recvPacket timeout now packet).2 := by
  cases hrecv : s.recvPacket timeout now packet with | mk ready s' =>
  obtain ⟨n, hn, rfl, hassembles⟩ := h.assembles.receive hP h.strict hp hwindow hrecv
  have hall : delivered ++ (P.take n).drop delivered.length = P.take n := by
    have htake : P.take delivered.length = (P.take n).take delivered.length := by
      rw [List.take_take, Nat.min_eq_left hn]
    nth_rewrite 1 [h.delivered_eq]
    rw [htake, List.take_append_drop]
  have hlength : (P.take n).length = n := List.length_take_of_le hassembles.frontier.le
  refine ⟨(PTCPSession.recvPacket_sameSender hrecv).allowGapSkip.trans h.strict, ?_, ?_⟩
  · rw [hall, hlength]
  · rw [hall, hlength]
    exact hassembles.congr fun j => by simp

/-- The stream goes on. -/
theorem Follows.append (h : Follows base P held delivered s) (q : PTCPPacket) :
    Follows base (P ++ [q]) held delivered s where
  strict := h.strict
  delivered_eq := by
    rw [List.take_append_of_le_length h.assembles.frontier.le]
    exact h.delivered_eq
  assembles := h.assembles.append q

/-- A packet without a body is ignored. -/
theorem Follows.empty {timeout : Duration} {now : Instant} (h : Follows base P held delivered s)
    (hempty : packet.bodyLen = 0) :
    Follows base P held (delivered ++ (s.recvPacket timeout now packet).1)
      (s.recvPacket timeout now packet).2 := by
  cases hrecv : s.recvPacket timeout now packet with | mk ready s' =>
  have hstrict := (PTCPSession.recvPacket_sameSender hrecv).allowGapSkip
  rcases PTCPSession.recvPacket_strict h.strict hrecv with
    ⟨_, rfl, hrecv', hpending'⟩ | ⟨hahead, _⟩ | ⟨hnext, _⟩
  · rw [List.append_nil]
    exact h.of_same hrecv' hpending' hstrict
  · exact absurd hempty (Nat.ne_of_gt hahead.1)
  · exact absurd hempty (Nat.ne_of_gt hnext.1)

end Follows

/-- What holds of the two ends in every run. -/
structure Tunnel.Joined (config : Config) (down up : Nat) (P : List PTCPPacket) (t : Tunnel) :
    Prop where
  demux : Demux down t.engine
  slots : Slots t.engine
  mux : Mux config (SeqNum.wrap 32 up) t.engine
  small : Small t.engine
  opened : t.engine.opened = t.engine.clients.map Client.realm
  follows : Follows down P t.arrived t.engine.delivered t.engine.session
  stream : Stream up t.uplink
  heard : Follows up t.uplink t.got t.delivered t.camera

section Joined

variable {config : Config} {down up i : Nat} {P : List PTCPPacket} {t t' : Tunnel} {e e' : Engine}
  {event : Event} {packet : PTCPPacket}

theorem joined_start {session camera : PTCPSession} (h : Tunnel.Agreed session camera P) :
    (Tunnel.start session camera).Joined config session.recv.toNat session.sent.toNat P where
  demux := demux_start h.strict h.pending
  slots := slots_start session
  mux := by rw [SeqNum.wrap_toNat]; exact mux_start session
  small := small_start session
  opened := rfl
  follows := follows_start h.strict h.pending (SeqNum.wrap_toNat _).symm
  stream := ⟨trivial, fun _ hp => (List.not_mem_nil hp).elim, fun _ hp => (List.not_mem_nil hp).elim⟩
  heard := follows_start h.cameraStrict h.cameraPending
    (h.cameraRecv.trans (SeqNum.wrap_toNat _).symm)

/-- The engine does not switch the mode. -/
theorem callOf_ne_setAllowGapSkip {allow : Bool} :
    e.callOf event ≠ some (.setAllowGapSkip allow) := by
  intro h
  unfold Engine.callOf at h
  split at h
  · obtain ⟨_, _, hcall⟩ := Option.map_eq_some_iff.mp h
    cases hcall
  · cases h
  · split at h <;> cases h
  · cases h
  · cases h

/-- A step that receives nothing leaves the receiving side as it is. -/
theorem quiet_step (hne : ∀ now packet, event ≠ .receive now packet)
    (hstep : step config e event = some e') :
    e'.session.recv = e.session.recv ∧ e'.session.pending = e.session.pending ∧
      e'.session.allowGapSkip = e.session.allowGapSkip ∧ e'.delivered = e.delivered := by
  have heffect := step_effect hstep
  cases hcall : e.callOf event with
  | none =>
    rw [hcall] at heffect
    have hsession : e'.session = e.session := heffect.session
    rw [hsession]
    exact ⟨rfl, rfl, rfl, heffect.delivered.trans (List.append_nil _)⟩
  | some call =>
    rw [hcall] at heffect
    have hsession := heffect.session
    have hdelivered := heffect.delivered
    cases call with
    | recv now packet => exact absurd (event_of_recv hcall) (hne now packet)
    | setAllowGapSkip allow => exact absurd hcall callOf_ne_setAllowGapSkip
    | _ =>
      rw [hsession, hdelivered]
      exact ⟨rfl, rfl, rfl, List.append_nil _⟩

/-- What is sent goes on with the stream. -/
theorem sent_step (hmux : Mux config (SeqNum.wrap 32 up) e) (hsmall : Small e)
    (hP : Stream up (nonEmpty e.sent)) (hstep : step config e event = some e') :
    nonEmpty e'.sent = nonEmpty e.sent ∨
      ∃ q, nonEmpty e'.sent = nonEmpty e.sent ++ [q] ∧ Stream up (nonEmpty e.sent ++ [q]) := by
  have heffect := step_effect hstep
  cases hcall : e.callOf event with
  | none =>
    rw [hcall] at heffect
    exact .inl (congrArg nonEmpty (heffect.sent.trans (List.append_nil _)))
  | some call =>
    rw [hcall] at heffect
    have hsent := heffect.sent
    cases call with
    | send now body =>
      have hmore : e'.sent = e.sent ++ [(e.session.send now body).1] := hsent
      rw [hmore, nonEmpty_append_singleton]
      split
      · next hpos =>
        refine .inr ⟨_, rfl, hP.append ?_ hpos ?_⟩
        · have hnext : e.session.sent = SeqNum.wrap 32 up + _ := hmux.outbound.next
          have htotal : total PTCPPacket.bodyLen (nonEmpty e.sent) =
            total PTCPPacket.bodyLen e.sent := total_filter_pos e.sent
          show e.session.sent = _
          rw [hnext, keyOf, startOf, offset_length, htotal, SeqNum.wrap_add]
        · exact Nat.lt_of_le_of_lt (hsmall.sends hcall) (by decide)
      · exact .inl rfl
    | _ => exact .inl (congrArg nonEmpty (hsent.trans (List.append_nil _)))

/-- A step of the engine, with what it received, if anything, put into `arrived`. -/
theorem Tunnel.Joined.engine {arrived : List Nat} (h : t.Joined config down up P)
    (hstep : Engine.step config t.engine event = some e')
    (hfollows : Follows down P arrived e'.delivered e'.session) :
    Tunnel.Joined config down up P { t with engine := e', arrived } := by
  have hstream := sent_step h.mux h.small h.stream hstep
  refine ⟨h.demux.step hstep, h.slots.step hstep, h.mux.step hstep, h.small.step hstep,
    realms_step h.demux h.slots h.opened hstep, hfollows, ?_, ?_⟩
  · show Stream up (nonEmpty e'.sent)
    rcases hstream with hsame | ⟨q, hmore, hlonger⟩
    · exact hsame ▸ h.stream
    · exact hmore ▸ hlonger
  · show Follows up (nonEmpty e'.sent) t.got t.delivered t.camera
    rcases hstream with hsame | ⟨q, hmore, -⟩
    · exact hsame ▸ h.heard
    · exact hmore ▸ h.heard.append q

theorem Tunnel.Joined.step {event : TunnelEvent} (hP : Stream down P)
    (h : t.Joined config down up P) (hnear : t.Near P event)
    (hstep : t.step config P event = some t') :
    t'.Joined config down up P := by
  unfold Tunnel.step at hstep
  cases event with
  | task event =>
    have hquiet {e' : Engine} (hne : ∀ now packet, event ≠ .receive now packet)
        (htask : Engine.step config t.engine event = some e') :
        Tunnel.Joined config down up P { t with engine := e' } := by
      obtain ⟨hrecv, hpending, hstrict, hdelivered⟩ := quiet_step hne htask
      refine h.engine htask ?_
      rw [hdelivered]
      exact h.follows.of_same hrecv hpending hstrict
    cases event with
    | receive now packet => cases hstep
    | _ =>
      obtain ⟨e', htask, rfl⟩ := Option.map_eq_some_iff.mp hstep
      exact hquiet (fun _ _ heq => by cases heq) htask
  | arrive now i =>
    dsimp only at hstep
    split at hstep
    · next packet hp =>
      obtain ⟨e', htask, rfl⟩ := Option.map_eq_some_iff.mp hstep
      have heffect := step_effect htask
      refine h.engine htask ?_
      rw [heffect.delivered, heffect.session]
      exact h.follows.receive hP hp hnear
    · cases hstep
  | empty now packet =>
    dsimp only at hstep
    split at hstep
    · next hempty =>
      obtain ⟨e', htask, rfl⟩ := Option.map_eq_some_iff.mp hstep
      have heffect := step_effect htask
      refine h.engine htask ?_
      rw [heffect.delivered, heffect.session]
      exact h.follows.empty hempty
    · cases hstep
  | get timeout now i =>
    dsimp only at hstep
    split at hstep
    · next packet hp =>
      cases hstep
      exact { h with heard := h.heard.receive h.stream hp hnear }
    · cases hstep

end Joined

/-! ## Runs -/

/-- A realm that is in `channels` has a sender for its client. -/
theorem hasSender_of_mem {base i : Nat} {e : Engine} {c : Client} (h : Registry base e)
    (hc : e.clients[i]? = some c) (hmem : c.realm ∈ e.channels) : e.hasSender i = true := by
  obtain ⟨j, hlookup⟩ := Option.isSome_iff_exists.mp (AList.lookup_isSome.mpr hmem)
  obtain ⟨d, hd, hrealm⟩ := h.registered _ _ hlookup
  obtain rfl := index_inj h.realms hd hc hrealm
  exact hasSender_iff.mpr (.inl ⟨_, hlookup⟩)

theorem present_iff_mem {base : Nat} {e : Engine} (h : Registry base e) (realm : U32) :
    (track realm e.notes).present = true ↔ realm ∈ e.channels := by
  rw [h.present, AList.lookup_isSome]

/-- Whatever the network and the tasks do, the engine has delivered the longest prefix of the
camera's stream that has come in, and an RTSP client gets the data for its realm in one stretch
of it, which starts when the client connects: its socket has taken a prefix of that data, has
taken all of it whenever the engine is idle, and has taken all of it when `process_writer` has
returned without an error. The stretch goes on as long as the client's entry is in `channels`;
if the client has not closed itself, it ends at the camera's `DISC` for its realm. -/
theorem tunnel_download {config : Config} {session camera : PTCPSession} {P : List PTCPPacket}
    {events : List TunnelEvent} {t : Tunnel} (hagreed : Tunnel.Agreed session camera P)
    (hnear : Run.Along (Tunnel.step config P) (Tunnel.Near P) events (Tunnel.start session camera))
    (hrun : Run.run (Tunnel.step config P) events (Tunnel.start session camera) = some t) :
    ∃ n, IsFrontier (· ∈ t.arrived) P.length n ∧ t.engine.delivered = P.take n ∧
      ∀ (i : Nat) (c : Client), t.engine.clients[i]? = some c → c.service = .rtsp →
        ∃ during rest,
          P.take n = packetsBefore c.realm t.engine.notes ++ during ++ rest ∧
          c.written <+: bytesFor c.realm during ∧
          (t.engine.dhReader = .reading → c.writer = .receiving → c.rx = [] →
            c.written = bytesFor c.realm during) ∧
          (c.writer = .closed →
            c.written = bytesFor c.realm during ∧ c.realm ∉ t.engine.channels) ∧
          (c.realm ∈ t.engine.channels → t.engine.dhReader = .reading → rest = []) ∧
          (c.realm ∉ t.engine.channels → .closed c.realm ∉ t.engine.notes →
            ∃ packet later, rest = packet :: later ∧ packet.body = .status c.realm "DISC") := by
  have hjoined : t.Joined config session.recv.toNat session.sent.toNat P :=
    Run.run_invariant_along (joined_start hagreed)
      (fun _ _ _ hnear h hstep => h.step hagreed.stream hnear hstep) hnear hrun
  have hregistry := hjoined.demux.toRegistry
  refine ⟨_, hjoined.follows.assembles.frontier, hjoined.follows.delivered_eq,
    fun i c hc hservice => ?_⟩
  have hnodup : t.engine.opened.Nodup := hjoined.opened ▸ hregistry.realms
  have hmem : c.realm ∈ t.engine.opened :=
    hjoined.opened ▸ List.mem_map_of_mem (List.mem_of_getElem? hc)
  have hbalanced := (hjoined.demux.flow i c hc hservice).balanced
  obtain ⟨hlooked, hstretch⟩ := stretch_of_opened hnodup hmem
  rw [hlooked] at hbalanced
  have hidle (hreading : t.engine.dhReader = .reading) (hwriter : c.writer = .receiving)
      (hrx : c.rx = []) : c.written = bytesFor c.realm (packetsDuring c.realm t.engine.notes) := by
    have hall := hbalanced.of_not_failed (hwriter ▸ fun h => by cases h)
      (hwriter ▸ fun h => by cases h)
    have hnone : t.engine.inFlight i = [] := by unfold inFlight; rw [hreading]
    have hempty : c.waiting = [] := by unfold Client.waiting; rw [hwriter, hrx]; rfl
    rwa [hempty, hnone, List.append_nil, List.append_nil] at hall
  have hclosed (hwriter : c.writer = .closed) :
      c.written = bytesFor c.realm (packetsDuring c.realm t.engine.notes) ∧
        c.realm ∉ t.engine.channels := by
    unfold Client.Balanced at hbalanced
    rw [hwriter] at hbalanced
    refine ⟨hbalanced.1, fun hin => ?_⟩
    rw [hasSender_of_mem hregistry hc hin] at hbalanced
    cases hbalanced.2
  refine ⟨packetsDuring c.realm t.engine.notes, ?_⟩
  rw [← hjoined.follows.delivered_eq, ← hregistry.handled]
  rcases hstretch with ⟨hpresent, hhandled⟩ | ⟨habsent, n, later, hn, hcloses, hhandled⟩
  · -- the realm is still in `channels`
    have hin := (present_iff_mem hregistry c.realm).mp hpresent
    exact ⟨t.engine.dhReader.left, by rw [hhandled], hbalanced.written_prefix, hidle, hclosed,
      fun _ hreading => by rw [hreading]; rfl, fun hout => absurd hin hout⟩
  · -- it has left
    refine ⟨handledPackets (n :: later) ++ t.engine.dhReader.left,
      by rw [hhandled, List.append_assoc], hbalanced.written_prefix, hidle, hclosed,
      fun hin _ => ?_, fun _ hnot => ?_⟩
    · rw [(present_iff_mem hregistry c.realm).mpr hin] at habsent
      cases habsent
    · cases n with
      | opened r => cases hcloses
      | closed r =>
        obtain rfl : r = c.realm := of_decide_eq_true hcloses
        exact absurd hn hnot
      | handled packet => exact ⟨packet, _, rfl, disc_of_closes hcloses⟩

/-- What the camera sends: it takes the connection, sends two bytes and ends it. -/
def cameraStream : List PTCPPacket := [
  ⟨0, 0, 0, 0, 0, .status 7 "CONN"⟩, ⟨16, 0, 0, 0, 0, .payload ⟨7, [1, 2]⟩⟩,
  ⟨30, 0, 0, 0, 0, .status 7 "DISC"⟩]

theorem cameraStream_stream : Stream 0 cameraStream where
  tiles := by decide
  pos := by decide
  lt := by decide

def tunnelSession : PTCPSession := (PTCPSession.new 0).setAllowGapSkip false

theorem tunnelSession_agreed : Tunnel.Agreed tunnelSession tunnelSession cameraStream where
  strict := rfl
  pending := rfl
  stream := cameraStream_stream
  cameraStrict := rfl
  cameraPending := rfl
  cameraRecv := rfl

/-- The first two packets come in swapped, one of them twice, and the client sends a byte. -/
def oneTunnel : List TunnelEvent := [
  .task (.accept .rtsp 7), .task (.handleClient 0 none), .task (.handleClient 0 none),
  .task .dhWriterRecv, .task (.dhWriterSend 1), .get 0 1 0,
  .arrive 2 1, .task (.dhReader 2), .task (.dhReader 2), .empty 2 ⟨0, 0, 0, 0, 0, .empty⟩,
  .task (.dhReader 2), .arrive 3 0, .task (.dhReader 3), .task (.dhReader 3), .task (.dhReader 3),
  .task (.dhReader 3), .task (.dhReader 3), .arrive 3 1, .task (.dhReader 3), .task (.dhReader 3),
  .task (.handleClient 0 none), .task (.processWriter 0), .task (.clientWrite 0 2),
  .task (.clientRead 0 [9]), .task (.processReader 0), .task .dhWriterRecv, .task (.dhWriterSend 4),
  .get 0 5 1]

theorem oneTunnel_near : Run.Along (Tunnel.step ⟨554, gapTimeout none⟩ cameraStream)
    (Tunnel.Near cameraStream) oneTunnel (Tunnel.start tunnelSession tunnelSession) := by
  decide +kernel

set_option maxRecDepth 8000 in
theorem tunnel_download_oneTunnel : ∃ t n,
    Run.run (Tunnel.step ⟨554, gapTimeout none⟩ cameraStream) oneTunnel
      (Tunnel.start tunnelSession tunnelSession) = some t ∧
    IsFrontier (· ∈ [1, 0, 1]) 3 n ∧ t.engine.delivered = cameraStream.take n ∧ ∃ during rest,
      cameraStream.take n = packetsBefore 7 t.engine.notes ++ during ++ rest ∧
      rest = [] ∧ [1, 2] = bytesFor 7 during := by
  obtain ⟨n, hn, hdelivered, hclients⟩ := @tunnel_download ⟨554, gapTimeout none⟩ tunnelSession
    tunnelSession cameraStream oneTunnel _ tunnelSession_agreed oneTunnel_near rfl
  obtain ⟨during, rest, htake, -, hidle, -, hgoesOn, -⟩ := hclients 0 _ rfl rfl
  have hrest := hgoesOn (by decide +kernel) rfl
  exact ⟨_, n, rfl, hn, hdelivered, during, rest, htake, hrest, hidle rfl rfl rfl⟩

/-- A stream that ends with `DISC` does not go on. -/
theorem clientStream_ended {realm port : U32} {gone left : List Bytes} {ended : Bool}
    {bodies : List PTCPBody} (h : clientStream realm port gone true ++ bodies =
      clientStream realm port (gone ++ left) ended) : left = [] ∧ ended = true := by
  have hcut : .status realm "DISC" :: bodies =
      left.map (fun data => PTCPBody.payload { realm, data }) ++
        if ended then [.status realm "DISC"] else [] := by
    simpa [clientStream] using h
  cases left with
  | nil =>
    cases ended with
    | true => exact ⟨rfl, rfl⟩
    | false => cases hcut
  | cons data left => cases hcut

theorem len_pos_of_realmOf {realm : U32} {body : PTCPBody} (h : realmOf body = some realm) :
    0 < body.len := by
  cases body with
  | payload p => exact Nat.succ_pos _
  | bind r port => exact Nat.succ_pos _
  | status r status => exact Nat.succ_pos _
  | _ => cases h

/-- An acknowledgement is for no realm. -/
theorem bodiesFor_nonEmpty (realm : U32) (packets : List PTCPPacket) :
    bodiesFor realm ((nonEmpty packets).map PTCPPacket.body) =
      bodiesFor realm (packets.map PTCPPacket.body) := by
  unfold bodiesFor nonEmpty
  rw [List.filter_map, List.filter_map, List.filter_filter]
  refine congrArg _ (List.filter_congr fun packet _ => ?_)
  rw [Bool.and_eq_left_iff_imp]
  intro hrealm
  exact decide_eq_true (len_pos_of_realmOf (of_decide_eq_true hrealm))

theorem held_of_ended {reader : ProcessReader} (h : reader.ended = true) : reader.held = [] := by
  cases reader <;> first | rfl | cases h

/-- Whatever the network and the tasks do, the camera has got the longest prefix of what the
engine has sent that has come in. For the realm of an RTSP client that is a bind, then a prefix of
what the client has sent, then at most one `DISC`. A camera that has got the `DISC`, or everything
while nothing is on its way, has got all that the client has sent. -/
theorem tunnel_upload {config : Config} {session camera : PTCPSession} {P : List PTCPPacket}
    {events : List TunnelEvent} {t : Tunnel} (hagreed : Tunnel.Agreed session camera P)
    (hnear : Run.Along (Tunnel.step config P) (Tunnel.Near P) events (Tunnel.start session camera))
    (hrun : Run.run (Tunnel.step config P) events (Tunnel.start session camera) = some t) :
    ∃ n, IsFrontier (· ∈ t.got) t.uplink.length n ∧ t.delivered = t.uplink.take n ∧
      ∀ realm, (∃ packet ∈ t.delivered, realmOf packet.body = some realm) →
        ∃ c ∈ t.engine.clients, c.realm = realm ∧ (c.service = .rtsp → ∃ chunks ended,
          bodiesFor realm (t.delivered.map PTCPPacket.body) =
            clientStream realm config.remotePort chunks ended ∧
          chunks.flatten <+: c.readBytes ∧
          (ended = true → chunks.flatten = c.readBytes) ∧
          (n = t.uplink.length → t.engine.queued = [] → c.reader.held = [] →
            chunks.flatten = c.readBytes)) := by
  have hjoined : t.Joined config session.recv.toNat session.sent.toNat P :=
    Run.run_invariant_along (joined_start hagreed)
      (fun _ _ _ hnear h hstep => h.step hagreed.stream hnear hstep) hnear hrun
  refine ⟨_, hjoined.heard.assembles.frontier, hjoined.heard.delivered_eq, fun realm hgot => ?_⟩
  let later := t.uplink.drop t.delivered.length
  have hsplit : t.engine.outgoing realm = bodiesFor realm (t.delivered.map PTCPPacket.body) ++
      (bodiesFor realm (later.map PTCPPacket.body) ++ bodiesFor realm t.engine.queued) := by
    have huplink : t.uplink = t.delivered ++ later :=
      calc t.uplink = t.uplink.take t.delivered.length ++ later := (List.take_append_drop _ _).symm
        _ = t.delivered ++ later := congrArg (· ++ later) hjoined.heard.delivered_eq.symm
    have hsent : bodiesFor realm t.engine.sentBodies =
      bodiesFor realm (t.uplink.map PTCPPacket.body) := (bodiesFor_nonEmpty realm t.engine.sent).symm
    rw [outgoing, bodiesFor_append, hsent, huplink, List.map_append, bodiesFor_append,
      List.append_assoc]
  have hne : bodiesFor realm (t.delivered.map PTCPPacket.body) ≠ [] := by
    obtain ⟨packet, hpacket, hrealm⟩ := hgot
    exact List.ne_nil_of_mem
      (List.mem_filter.mpr ⟨List.mem_map_of_mem hpacket, decide_eq_true hrealm⟩)
  have hout : t.engine.outgoing realm ≠ [] := hsplit ▸ List.append_ne_nil_of_left_ne_nil hne _
  obtain ⟨c, hc, rfl⟩ : ∃ c ∈ t.engine.clients, c.realm = realm := by
    by_contra hnone
    exact hout (hjoined.mux.unknown realm fun c hc hrealm => hnone ⟨c, hc, hrealm⟩)
  refine ⟨c, hc, rfl, fun hservice => ?_⟩
  obtain ⟨i, hi⟩ := List.mem_iff_getElem?.mp hc
  have hupload := hjoined.mux.upload i c hi hservice
  have hbound : c.handler.unbound = false :=
    Bool.eq_false_iff.mpr fun hunbound => hout (hupload.unbound hunbound).1
  obtain ⟨chunks, hbodies, -, hall⟩ := hupload.bound hbound
  rw [hsplit] at hbodies
  obtain ⟨gone, left, ended, rfl, hgone, hleft⟩ := clientStream_split hbodies hne
  rw [List.flatten_append] at hall
  refine ⟨gone, ended, hgone, ⟨left.flatten ++ c.reader.held, by rw [← List.append_assoc, hall]⟩,
    fun hended => ?_, fun hn hqueued hheld => ?_⟩
  · rw [hgone, hended] at hbodies
    obtain ⟨rfl, hreader⟩ := clientStream_ended hbodies
    rwa [held_of_ended hreader, List.flatten_nil, List.append_nil, List.append_nil] at hall
  · have hlater : later = [] := List.drop_eq_nil_of_le (Nat.le_of_eq hn.symm)
    rw [hlater, hqueued] at hleft
    have hnone : left.flatten = [] := hleft.symm
    rwa [hheld, hnone, List.append_nil, List.append_nil] at hall

theorem oneTunnel_delivered : (Run.run (Tunnel.step ⟨554, gapTimeout none⟩ cameraStream) oneTunnel
    (Tunnel.start tunnelSession tunnelSession)).map (fun t => t.delivered.map PTCPPacket.body) =
      some [.bind 7 554, .payload ⟨7, [9]⟩] := by
  decide +kernel

theorem tunnel_upload_oneTunnel : ∃ t,
    Run.run (Tunnel.step ⟨554, gapTimeout none⟩ cameraStream) oneTunnel
      (Tunnel.start tunnelSession tunnelSession) = some t ∧
    t.delivered.map PTCPPacket.body = [.bind 7 554, .payload ⟨7, [9]⟩] ∧
    ∃ c ∈ t.engine.clients, c.realm = 7 ∧ (c.service = .rtsp → ∃ chunks ended,
      bodiesFor 7 (t.delivered.map PTCPPacket.body) = clientStream 7 554 chunks ended ∧
      chunks.flatten <+: c.readBytes) := by
  obtain ⟨t, hrun, hbodies⟩ := Option.map_eq_some_iff.mp oneTunnel_delivered
  refine ⟨t, hrun, hbodies, ?_⟩
  obtain ⟨n, -, -, hrealms⟩ := tunnel_upload tunnelSession_agreed oneTunnel_near hrun
  have hbind : PTCPBody.bind 7 554 ∈ t.delivered.map PTCPPacket.body :=
    hbodies ▸ List.mem_cons_self
  obtain ⟨packet, hpacket, hbody⟩ := List.mem_map.mp hbind
  obtain ⟨c, hc, hrealm, hstream⟩ := hrealms 7 ⟨packet, hpacket, hbody ▸ rfl⟩
  refine ⟨c, hc, hrealm, fun hservice => ?_⟩
  obtain ⟨chunks, ended, hchunks, hprefix, -, -⟩ := hstream hservice
  exact ⟨chunks, ended, hchunks, hprefix⟩

end DahuaBridge.Engine
