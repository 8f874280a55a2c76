import DahuaBridge.Engine.Step
import DahuaBridge.Ptcp.Conservation

/-!
# From the camera to the clients

`dh_reader` takes the packets in stream order and gives the data of each payload to the
client whose realm is in `channels` at that moment. What the socket of an RTSP client has
taken is a prefix of the data that was looked up for its realm while the realm was there.

* `track`: what a sequence of notes says about one realm.
* `Demux`: the invariant. For every RTSP client, the bytes written, the bytes on their way
  and the bytes looked up are the same.
* `Demux.step`: every step keeps it.
-/

namespace DahuaBridge.Engine

open Tiling

/-! ## What the notes say about a realm -/

/-- Whether the realm is in `channels`, and the payloads that were looked up while it was. -/
structure Track where
  present : Bool := false
  packets : List PTCPPacket := []

def Track.note (realm : U32) (t : Track) : Note → Track
  | .opened r => if r = realm then { t with present := true } else t
  | .closed r => if r = realm then { t with present := false } else t
  | .handled packet =>
    match packet.body with
    | .status r status => if r = realm ∧ status = "DISC" then { t with present := false } else t
    | .payload p =>
      if p.realm = realm ∧ t.present then { t with packets := t.packets ++ [packet] } else t
    | _ => t

def track (realm : U32) (notes : List Note) : Track := notes.foldl (Track.note realm) {}

@[simp] theorem track_concat (realm : U32) (notes : List Note) (n : Note) :
    track realm (notes ++ [n]) = (track realm notes).note realm n := by
  rw [track, List.foldl_append]
  rfl

/-- The note is about the realm. -/
def Note.concerns (realm : U32) : Note → Bool
  | .opened r => r = realm
  | .closed r => r = realm
  | .handled packet =>
    match packet.body with
    | .status r _ => r = realm
    | .payload p => p.realm = realm
    | _ => false

/-- Notes about other realms do not matter. -/
theorem Track.note_of_not_concerns {realm : U32} {n : Note} (t : Track)
    (h : n.concerns realm = false) : t.note realm n = t := by
  cases n with
  | opened r => exact if_neg (of_decide_eq_false h)
  | closed r => exact if_neg (of_decide_eq_false h)
  | handled packet =>
    unfold Note.concerns at h
    unfold Track.note
    cases hbody : packet.body with
    | status r status =>
      simp only [hbody] at h ⊢
      exact if_neg fun hboth => of_decide_eq_false h hboth.1
    | payload p =>
      simp only [hbody] at h ⊢
      exact if_neg fun hboth => of_decide_eq_false h hboth.1
    | _ => simp only [hbody]

/-- The packets that `dh_reader` has looked at. -/
def handledPackets (notes : List Note) : List PTCPPacket :=
  notes.filterMap fun | .handled packet => some packet | _ => none

theorem handledPackets_concat (notes : List Note) (n : Note) :
    handledPackets (notes ++ [n]) = handledPackets notes ++ handledPackets [n] :=
  List.filterMap_append ..

/-- A note adds at most the packet that it is about. -/
theorem Track.packets_note (realm : U32) (t : Track) (n : Note) :
    (t.note realm n).packets = t.packets ∨
      ∃ packet, n = .handled packet ∧ (t.note realm n).packets = t.packets ++ [packet] := by
  cases n with
  | opened r =>
    simp only [Track.note]
    split <;> exact .inl rfl
  | closed r =>
    simp only [Track.note]
    split <;> exact .inl rfl
  | handled packet =>
    simp only [Track.note]
    split
    · split <;> exact .inl rfl
    · split
      · exact .inr ⟨packet, rfl, rfl⟩
      · exact .inl rfl
    · exact .inl rfl

/-- What was looked up for a realm is part of what was handled, in the same order. -/
theorem track_sublist (realm : U32) (notes : List Note) :
    (track realm notes).packets.Sublist (handledPackets notes) := by
  induction notes using List.reverseRecOn with
  | nil => exact List.Sublist.refl []
  | append_singleton notes n ih =>
    rw [track_concat, handledPackets_concat]
    rcases (track realm notes).packets_note realm n with hsame | ⟨packet, rfl, hmore⟩
    · rw [hsame]
      exact ih.trans (List.sublist_append_left _ _)
    · rw [hmore]
      exact ih.append (List.Sublist.refl [packet])

/-- The data of payloads, one after the other. -/
def payloadBytes (packets : List PTCPPacket) : Bytes :=
  packets.flatMap fun packet =>
    match packet.body with
    | .payload p => p.data
    | _ => []

/-- The bytes that were looked up for a realm. -/
def lookedUp (realm : U32) (notes : List Note) : Bytes := payloadBytes (track realm notes).packets

/-! ## The invariant -/

/-- What `process_writer` has taken from the channel or will take, and not written yet. -/
def Client.waiting (c : Client) : Bytes :=
  (match c.writer with | .writing left => left | _ => []) ++ c.rx.flatten

/-- The data that `dh_reader` holds for client `i`. -/
def inFlight (e : Engine) (i : Nat) : Bytes :=
  match e.dhReader with
  | .forward j data _ => if j = i then data else []
  | _ => []

/-- What was looked up for the realm of an RTSP client is written, waits, or is in the hands
of `dh_reader`. -/
def Client.Balanced (c : Client) (looked held : Bytes) (sender : Bool) : Prop :=
  match c.writer with
  | .notSpawned => c.written ++ c.waiting ++ held = looked
  | .receiving => c.written ++ c.waiting ++ held = looked
  | .writing _ => c.written ++ c.waiting ++ held = looked
  | .closed => c.written = looked ∧ sender = false
  | .failed => c.written <+: looked
  | _ => False

structure Client.Flow (c : Client) (looked held : Bytes) (sender : Bool) : Prop where
  spawned : c.handler ≠ .done → c.writer = .notSpawned
  balanced : c.Balanced looked held sender

/-- The maps, the notes and the stream belong together. -/
structure Registry (base : Nat) (e : Engine) : Prop where
  realms : (e.clients.map Client.realm).Nodup
  stream : ∃ received, Conserved base received e.delivered e.session
  handled : handledPackets e.notes ++ e.dhReader.left = e.delivered
  registered : ∀ realm i, e.channels.lookup realm = some i →
    ∃ c, e.clients[i]? = some c ∧ c.realm = realm
  present : ∀ realm, (track realm e.notes).present = (e.channels.lookup realm).isSome
  unknown : ∀ realm, (∀ c ∈ e.clients, c.realm ≠ realm) → (track realm e.notes).packets = []
  forwards : ∀ i data packets, e.dhReader = .forward i data packets → i < e.clients.length

structure Demux (base : Nat) (e : Engine) : Prop extends Registry base e where
  flow : ∀ (i : Nat) (c : Client), e.clients[i]? = some c → c.service = .rtsp →
    c.Flow (lookedUp c.realm e.notes) (e.inFlight i) (e.hasSender i)

section Demux

variable {base : Nat} {e e' : Engine} {i j : Nat} {c c' : Client}

theorem demux_start {s : PTCPSession} (hstrict : s.allowGapSkip = false) (hpending : s.pending = ∅) :
    Demux s.recv.toNat (start s) where
  realms := List.nodup_nil
  stream := ⟨[], conserved_start hstrict hpending (SeqNum.wrap_toNat _).symm⟩
  handled := rfl
  registered _ _ h := by cases h
  present _ := rfl
  unknown _ _ := rfl
  forwards _ _ _ h := by cases h
  flow i c h := by
    rw [start, List.getElem?_nil] at h
    cases h

theorem hasSender_iff : e.hasSender i = true ↔ (∃ realm, e.channels.lookup realm = some i) ∨
    ∃ data packets, e.dhReader = .forward i data packets := by
  unfold hasSender
  rw [Bool.or_eq_true, List.any_eq_true]
  refine or_congr ⟨?_, ?_⟩ ?_
  · rintro ⟨⟨realm, k⟩, hmem, hk⟩
    obtain rfl : k = i := of_decide_eq_true hk
    exact ⟨realm, AList.mem_lookup_iff.mpr hmem⟩
  · rintro ⟨realm, hlookup⟩
    exact ⟨⟨realm, i⟩, AList.mem_lookup_iff.mp hlookup, decide_eq_true rfl⟩
  · cases hreader : e.dhReader with
    | forward k data packets =>
      constructor
      · intro hk
        obtain rfl : k = i := of_decide_eq_true hk
        exact ⟨data, packets, rfl⟩
      · rintro ⟨_, _, heq⟩
        cases heq
        exact decide_eq_true rfl
    | _ => exact iff_of_false Bool.false_ne_true fun ⟨_, _, heq⟩ => by cases heq

/-- `dh_reader` has no sender of a client in its hands. -/
def DhReader.isFree : DhReader → Bool
  | .forward _ _ _ => false
  | _ => true

theorem inFlight_of_isFree (h : e.dhReader.isFree = true) : e.inFlight i = [] := by
  unfold inFlight
  cases hreader : e.dhReader with
  | forward j data packets =>
    rw [hreader] at h
    cases h
  | _ => rfl

theorem hasSender_of_isFree (h : e.dhReader.isFree = true) :
    e.hasSender i = true ↔ ∃ realm, e.channels.lookup realm = some i := by
  rw [hasSender_iff, or_iff_left]
  rintro ⟨data, packets, hreader⟩
  rw [hreader] at h
  cases h

theorem hasSender_congr (hchannels : e'.channels = e.channels) (h : e.dhReader.isFree = true)
    (h' : e'.dhReader.isFree = true) : e'.hasSender i = e.hasSender i := by
  rw [Bool.eq_iff_iff, hasSender_of_isFree h, hasSender_of_isFree h', hchannels]

/-- A step that leaves alone what matters here. -/
theorem Demux.of_shared (h : Demux base e) (hclients : e'.clients = e.clients)
    (hchannels : e'.channels = e.channels) (hnotes : e'.notes = e.notes)
    (hreader : e'.dhReader = e.dhReader ∨ e.dhReader.isFree = true ∧ e'.dhReader.isFree = true ∧
      e'.dhReader.left = e.dhReader.left) (hdelivered : e'.delivered = e.delivered)
    (hrecv : e'.session.recv = e.session.recv) (hpending : e'.session.pending = e.session.pending)
    (hstrict : e'.session.allowGapSkip = e.session.allowGapSkip) : Demux base e' where
  realms := hclients ▸ h.realms
  stream := by
    obtain ⟨received, hconserved⟩ := h.stream
    exact ⟨received, hdelivered ▸ hconserved.of_same hrecv hpending hstrict⟩
  handled := by
    have hleft : e'.dhReader.left = e.dhReader.left := hreader.elim (congrArg _) fun h => h.2.2
    rw [hnotes, hleft, hdelivered, h.handled]
  registered := by rw [hchannels, hclients]; exact h.registered
  present := by rw [hchannels, hnotes]; exact h.present
  unknown := by rw [hclients, hnotes]; exact h.unknown
  forwards j data packets hforward := by
    rw [hclients]
    rcases hreader with hsame | ⟨_, hfree, _⟩
    · exact h.forwards j data packets (hsame.symm.trans hforward)
    · rw [hforward] at hfree
      cases hfree
  flow i c hc hservice := by
    rw [hclients] at hc
    rcases hreader with hsame | ⟨hfree, hfree', _⟩
    · have hheld : e'.inFlight i = e.inFlight i := by unfold inFlight; rw [hsame]
      have hsender : e'.hasSender i = e.hasSender i := by unfold hasSender; rw [hsame, hchannels]
      rw [hnotes, hheld, hsender]
      exact h.flow i c hc hservice
    · have hflow := h.flow i c hc hservice
      rw [inFlight_of_isFree hfree] at hflow
      rw [hnotes, inFlight_of_isFree hfree', hasSender_congr hchannels hfree hfree']
      exact hflow

theorem Registry.setClient (h : Registry base e) (hc : e.clients[i]? = some c)
    (hrealm : c'.realm = c.realm) : Registry base (e.setClient i c') where
  realms := by rw [map_setClient hc hrealm]; exact h.realms
  stream := h.stream
  handled := h.handled
  registered realm j hlookup := by
    obtain ⟨d, hd, hdrealm⟩ := h.registered realm j hlookup
    rw [getElem?_setClient hc]
    split
    · next hij =>
      obtain rfl : c = d := Option.some.inj (hc.symm.trans (hij ▸ hd))
      exact ⟨c', rfl, hrealm.trans hdrealm⟩
    · exact ⟨d, hd, hdrealm⟩
  present := h.present
  unknown realm hnone := by
    refine h.unknown realm fun d hd hdrealm => ?_
    have hmem : realm ∈ (e.setClient i c').clients.map Client.realm := by
      rw [map_setClient hc hrealm]
      exact hdrealm ▸ List.mem_map_of_mem hd
    obtain ⟨d', hd', hdrealm'⟩ := List.mem_map.mp hmem
    exact hnone d' hd' hdrealm'
  forwards j data packets hforward := by
    show j < (e.clients.set i c').length
    rw [List.length_set]
    exact h.forwards j data packets hforward

/-- A step that changes one client. -/
theorem Demux.setClient (h : Demux base e) (hc : e.clients[i]? = some c) (hrealm : c'.realm = c.realm)
    (hflow : c'.service = .rtsp → c'.Flow (lookedUp c.realm e.notes) (e.inFlight i) (e.hasSender i)) :
    Demux base (e.setClient i c') where
  toRegistry := h.toRegistry.setClient hc hrealm
  flow j d hd hservice := by
    rw [getElem?_setClient hc] at hd
    split at hd
    · next hij =>
      obtain rfl := Option.some.inj hd
      obtain rfl := hij
      rw [hrealm]
      exact hflow hservice
    · exact h.flow j d hd hservice

/-- With fewer senders an invariant of the flow stays. -/
theorem Client.Flow.of_sender {looked held : Bytes} {sender sender' : Bool}
    (h : c.Flow looked held sender) (hsender : sender' = true → sender = true) :
    c.Flow looked held sender' := by
  refine ⟨h.spawned, ?_⟩
  have hbalanced := h.balanced
  unfold Client.Balanced at hbalanced ⊢
  cases hwriter : c.writer with
  | closed =>
    rw [hwriter] at hbalanced
    refine ⟨hbalanced.1, Bool.eq_false_iff.mpr fun htrue => ?_⟩
    exact absurd ((hsender htrue).symm.trans hbalanced.2) (by decide)
  | _ =>
    rw [hwriter] at hbalanced
    exact hbalanced

theorem lookup_of_erase {channels : AList fun _ : U32 => Nat} {realm r : U32}
    (h : (channels.erase realm).lookup r = some i) : r ≠ realm ∧ channels.lookup r = some i := by
  by_cases hr : r = realm
  · rw [hr, AList.lookup_erase] at h
    cases h
  · rw [AList.lookup_erase_ne hr] at h
    exact ⟨hr, h⟩

theorem isSome_lookup_erase {channels : AList fun _ : U32 => Nat} {realm r : U32} :
    ((channels.erase realm).lookup r).isSome = if r = realm then false else
      (channels.lookup r).isSome := by
  split
  · next hr => rw [hr, AList.lookup_erase]; rfl
  · next hr => rw [AList.lookup_erase_ne hr]

/-- A note that adds no packet. -/
theorem packets_of_quiet {realm : U32} {notes : List Note} {n : Note}
    (h : ∀ t : Track, (t.note realm n).packets = t.packets) :
    (track realm (notes ++ [n])).packets = (track realm notes).packets := by
  rw [track_concat, h]

/-- A step that takes a realm out of `channels` and notes nothing else about realms. -/
theorem Demux.erase {n : Note} {realm : U32} (h : Demux base e) (hclients : e'.clients = e.clients)
    (hchannels : e'.channels = e.channels.erase realm) (hnotes : e'.notes = e.notes ++ [n])
    (hpackets : ∀ r (t : Track), (t.note r n).packets = t.packets)
    (hpresent : ∀ r (t : Track), (t.note r n).present = if r = realm then false else t.present)
    (hhandled : handledPackets (e.notes ++ [n]) ++ e'.dhReader.left = e.delivered)
    (hreader : e'.dhReader = e.dhReader ∨ e.dhReader.isFree = true ∧ e'.dhReader.isFree = true)
    (hdelivered : e'.delivered = e.delivered) (hsession : e'.session = e.session) :
    Demux base e' where
  realms := hclients ▸ h.realms
  stream := by rw [hdelivered, hsession]; exact h.stream
  handled := by rw [hnotes, hdelivered, hhandled]
  registered r j hlookup := by
    rw [hchannels] at hlookup
    rw [hclients]
    exact h.registered r j (lookup_of_erase hlookup).2
  present r := by
    rw [hnotes, track_concat, hpresent, hchannels, isSome_lookup_erase, h.present]
  unknown r hnone := by
    rw [hclients] at hnone
    rw [hnotes, packets_of_quiet (hpackets r), h.unknown r hnone]
  forwards j data packets hforward := by
    rw [hclients]
    rcases hreader with hsame | ⟨_, hfree⟩
    · exact h.forwards j data packets (hsame.symm.trans hforward)
    · rw [hforward] at hfree
      cases hfree
  flow j c hc hservice := by
    rw [hclients] at hc
    have hheld : e'.inFlight j = e.inFlight j := by
      rcases hreader with hsame | ⟨hfree, hfree'⟩
      · unfold inFlight
        rw [hsame]
      · rw [inFlight_of_isFree hfree, inFlight_of_isFree hfree']
    have hlooked : lookedUp c.realm e'.notes = lookedUp c.realm e.notes := by
      unfold lookedUp
      rw [hnotes, packets_of_quiet (hpackets c.realm)]
    rw [hheld, hlooked]
    refine (h.flow j c hc hservice).of_sender fun hsender => ?_
    rw [hasSender_iff] at hsender ⊢
    rcases hsender with ⟨r, hlookup⟩ | ⟨data, packets, hforward⟩
    · rw [hchannels] at hlookup
      exact .inl ⟨r, (lookup_of_erase hlookup).2⟩
    · rcases hreader with hsame | ⟨_, hfree⟩
      · exact .inr ⟨data, packets, hsame.symm.trans hforward⟩
      · rw [hforward] at hfree
        cases hfree

theorem Demux.removeChannel (h : Demux base e) (realm : U32) : Demux base (e.removeChannel realm) := by
  refine h.erase (n := .closed realm) rfl rfl rfl (fun r t => ?_) (fun r t => ?_) ?_ (.inl rfl) rfl rfl
  · simp only [Track.note]
    split <;> rfl
  · simp only [Track.note, eq_comm (a := realm)]
    split <;> rfl
  · rw [handledPackets_concat]
    exact (List.append_nil (handledPackets e.notes)).symm ▸ h.handled

/-! ## The steps -/

/-- A step of a client that has nothing to do with what it receives. -/
theorem Demux.setSame (h : Demux base e) (hc : e.clients[i]? = some c) (hrealm : c'.realm = c.realm)
    (hservice : c'.service = c.service) (hhandler : c'.handler ≠ .done → c.handler ≠ .done)
    (hwriter : c'.writer = c.writer) (hrx : c'.rx = c.rx) (hwritten : c'.written = c.written) :
    Demux base (e.setClient i c') := by
  refine h.setClient hc hrealm fun hrtsp => ?_
  obtain ⟨hspawned, hbalanced⟩ := h.flow i c hc (hservice ▸ hrtsp)
  refine ⟨fun hdone => hwriter.trans (hspawned (hhandler hdone)), ?_⟩
  unfold Client.Balanced Client.waiting at hbalanced ⊢
  rw [hwriter, hrx, hwritten]
  exact hbalanced

theorem Demux.enqueue {event : PTCPEvent} (h : Demux base e) (hstep : e.enqueue event = some e') :
    Demux base e' := by
  rw [enqueue_eq_some hstep]
  exact h.of_shared rfl rfl rfl (.inl rfl) rfl rfl rfl rfl

theorem Demux.handleClient {config : Config} {localAddress : Option HttpRewriteConfig}
    (h : Demux base e) (hc : e.clients[i]? = some c)
    (hstep : handleClient config e i localAddress c = some e') : Demux base e' := by
  cases hhandler : c.handler with
  | insertConn =>
    simp only [Engine.handleClient, hhandler] at hstep
    cases hstep
    refine Demux.setSame (h.of_shared rfl rfl rfl (.inl rfl) rfl rfl rfl rfl) hc rfl rfl ?_ rfl rfl rfl
    exact fun _ => hhandler ▸ (by decide)
  | sendConnect =>
    simp only [Engine.handleClient, hhandler] at hstep
    have hset : Demux base (e.setClient i { c with handler := .waitConn }) :=
      h.setSame hc rfl rfl (fun _ => hhandler ▸ (by decide)) rfl rfl rfl
    exact hset.enqueue hstep
  | waitConn =>
    cases hconn : c.conn with
    | waiting =>
      simp only [Engine.handleClient, hhandler, hconn] at hstep
      cases hstep
    | dropped =>
      simp only [Engine.handleClient, hhandler, hconn] at hstep
      cases hstep
      refine h.setSame hc rfl rfl ?_ rfl rfl rfl
      exact fun _ => hhandler ▸ (by decide)
    | connected =>
      simp only [Engine.handleClient, hhandler, hconn] at hstep
      cases hstep
      refine Demux.setClient (h.of_shared rfl rfl rfl (.inl rfl) rfl rfl rfl rfl) hc rfl fun hrtsp => ?_
      have hrtsp : c.service = .rtsp := hrtsp
      obtain ⟨hspawned, hbalanced⟩ := h.flow i c hc hrtsp
      have hwriter := hspawned (by rw [hhandler]; exact fun heq => by cases heq)
      refine ⟨fun hdone => absurd rfl hdone, ?_⟩
      unfold Client.Balanced Client.waiting at hbalanced ⊢
      rw [hwriter] at hbalanced
      rw [hrtsp]
      exact hbalanced
  | removeChannel =>
    simp only [Engine.handleClient, hhandler] at hstep
    cases hstep
    refine (h.removeChannel c.realm).setSame hc rfl rfl ?_ rfl rfl rfl
    exact fun _ => hhandler ▸ (by decide)
  | removeConn =>
    simp only [Engine.handleClient, hhandler] at hstep
    cases hstep
    refine Demux.setSame (h.of_shared rfl rfl rfl (.inl rfl) rfl rfl rfl rfl) hc rfl rfl ?_ rfl rfl rfl
    exact fun _ => hhandler ▸ (by decide)
  | exit =>
    simp only [Engine.handleClient, hhandler] at hstep
    cases hstep
    exact h.of_shared rfl rfl rfl (.inl rfl) rfl rfl rfl rfl
  | done =>
    simp only [Engine.handleClient, hhandler] at hstep
    cases hstep

theorem Demux.processReader (h : Demux base e) (hc : e.clients[i]? = some c)
    (hstep : e.processReader i c = some e') : Demux base e' := by
  cases hreader : c.reader with
  | sendData data =>
    simp only [Engine.processReader, hreader] at hstep
    have hset : Demux base (e.setClient i { c with reader := .reading }) :=
      h.setSame hc rfl rfl id rfl rfl rfl
    exact hset.enqueue hstep
  | sendDisconnect =>
    simp only [Engine.processReader, hreader] at hstep
    have hset : Demux base (e.setClient i { c with reader := .removeChannel }) :=
      h.setSame hc rfl rfl id rfl rfl rfl
    exact hset.enqueue hstep
  | removeChannel =>
    simp only [Engine.processReader, hreader] at hstep
    cases hstep
    exact (h.removeChannel c.realm).setSame hc rfl rfl id rfl rfl rfl
  | _ =>
    simp only [Engine.processReader, hreader] at hstep
    cases hstep

theorem Demux.releasePermit (h : Demux base e) : Demux base (e.releasePermit c) := by
  unfold Engine.releasePermit
  split
  · exact h.of_shared rfl rfl rfl (.inl rfl) rfl rfl rfl rfl
  · exact h

@[simp] theorem notes_releasePermit : (e.releasePermit c).notes = e.notes := by
  unfold Engine.releasePermit
  split <;> rfl

@[simp] theorem inFlight_releasePermit : (e.releasePermit c).inFlight i = e.inFlight i := by
  unfold Engine.releasePermit
  split <;> rfl

@[simp] theorem hasSender_releasePermit : (e.releasePermit c).hasSender i = e.hasSender i := by
  unfold Engine.releasePermit
  split <;> rfl

theorem inFlight_of_not_hasSender (h : e.hasSender i = false) : e.inFlight i = [] := by
  unfold inFlight
  cases hreader : e.dhReader with
  | forward j data packets =>
    refine if_neg fun hji => ?_
    have hsender : e.hasSender i = true := hasSender_iff.mpr (.inr ⟨data, packets, hji ▸ hreader⟩)
    exact absurd (hsender.symm.trans h) (by decide)
  | _ => rfl

/-- Only a client with a rewritten answer is at such a point. -/
theorem not_balanced_of_answer {looked held : Bytes} {sender : Bool} (h : c.Balanced looked held sender) :
    (∀ config response, c.writer ≠ .collecting config response) ∧
      (∀ left, c.writer ≠ .answering left) ∧ c.writer ≠ .removeChannel := by
  unfold Client.Balanced at h
  refine ⟨fun config response heq => ?_, fun left heq => ?_, fun heq => ?_⟩ <;>
  · rw [heq] at h
    exact h

/-- The steps that only the writer of an RTSP client takes. -/
theorem Demux.setWriter (h : Demux base e) (hc : e.clients[i]? = some c) (hrealm : c'.realm = c.realm)
    (hservice : c'.service = c.service) (hhandler : c'.handler = c.handler)
    (hspawned : c.writer ≠ .notSpawned)
    (hbalanced : c.Balanced (lookedUp c.realm e.notes) (e.inFlight i) (e.hasSender i) →
      c'.Balanced (lookedUp c.realm e.notes) (e.inFlight i) (e.hasSender i)) :
    Demux base (e.setClient i c') := by
  refine h.setClient hc hrealm fun hrtsp => ?_
  obtain ⟨hnot, hold⟩ := h.flow i c hc (hservice ▸ hrtsp)
  exact ⟨fun hdone => absurd (hnot (hhandler ▸ hdone)) hspawned, hbalanced hold⟩

theorem Demux.processWriter (h : Demux base e) (hc : e.clients[i]? = some c)
    (hstep : e.processWriter i c = some e') : Demux base e' := by
  cases hwriter : c.writer with
  | receiving =>
    have hspawned : c.writer ≠ .notSpawned := hwriter ▸ fun heq => by cases heq
    cases hrx : c.rx with
    | cons data rx =>
      simp only [Engine.processWriter, hwriter, hrx] at hstep
      cases hstep
      refine h.setWriter hc rfl rfl rfl hspawned fun hbalanced => ?_
      simp only [Client.Balanced, Client.waiting, hwriter, hrx, List.nil_append,
        List.flatten_cons] at hbalanced ⊢
      exact hbalanced
    | nil =>
      simp only [Engine.processWriter, hwriter, hrx] at hstep
      split at hstep
      · cases hstep
      · next hsender =>
        cases hstep
        have hclients : (e.releasePermit c).clients[i]? = some c := by rw [clients_releasePermit, hc]
        refine h.releasePermit.setWriter hclients rfl rfl rfl hspawned fun hbalanced => ?_
        rw [notes_releasePermit, inFlight_releasePermit, hasSender_releasePermit] at hbalanced ⊢
        have hsender : e.hasSender i = false := Bool.eq_false_iff.mpr hsender
        simp only [Client.Balanced, Client.waiting, hwriter, hrx, List.flatten_nil,
          List.append_nil, inFlight_of_not_hasSender hsender] at hbalanced ⊢
        exact ⟨hbalanced, hsender⟩
  | collecting config response =>
    have hspawned : c.writer ≠ .notSpawned := hwriter ▸ fun heq => by cases heq
    cases hrx : c.rx with
    | cons data rx =>
      simp only [Engine.processWriter, hwriter, hrx] at hstep
      cases hstep
      exact h.setWriter hc rfl rfl rfl hspawned fun hbalanced =>
        absurd hwriter ((not_balanced_of_answer hbalanced).1 config response)
    | nil =>
      simp only [Engine.processWriter, hwriter, hrx] at hstep
      split at hstep
      · cases hstep
      · cases hstep
        exact h.setWriter hc rfl rfl rfl hspawned fun hbalanced =>
          absurd hwriter ((not_balanced_of_answer hbalanced).1 config response)
  | removeChannel =>
    have hspawned : c.writer ≠ .notSpawned := hwriter ▸ fun heq => by cases heq
    simp only [Engine.processWriter, hwriter] at hstep
    cases hstep
    have hclients : ((e.removeChannel c.realm).releasePermit c).clients[i]? = some c := by
      rw [clients_releasePermit]
      exact hc
    exact (h.removeChannel c.realm).releasePermit.setWriter hclients rfl rfl rfl hspawned
      fun hbalanced => absurd hwriter (not_balanced_of_answer hbalanced).2.2
  | _ =>
    simp only [Engine.processWriter, hwriter] at hstep
    cases hstep

/-- The socket takes the first `n` bytes. -/
theorem Demux.clientWrite {n : Nat} (h : Demux base e) (hc : e.clients[i]? = some c)
    (hstep : e.clientWrite i n c = some e') : Demux base e' := by
  cases hwriter : c.writer with
  | writing left =>
    have hspawned : c.writer ≠ .notSpawned := hwriter ▸ fun heq => by cases heq
    simp only [Engine.clientWrite, hwriter] at hstep
    split at hstep
    · cases hstep
      refine h.setWriter hc rfl rfl rfl hspawned fun hbalanced => ?_
      have hsplit : left.take n ++ left.drop n = left := List.take_append_drop n left
      by_cases hall : left.drop n = []
      · rw [hall, List.append_nil] at hsplit
        simp only [Client.Balanced, Client.waiting, hwriter, if_pos hall, hsplit, List.nil_append,
          List.append_assoc] at hbalanced ⊢
        exact hbalanced
      · simp only [Client.Balanced, Client.waiting, hwriter, if_neg hall] at hbalanced ⊢
        rw [← hbalanced]
        conv_rhs => rw [← hsplit]
        simp only [List.append_assoc]
    · cases hstep
  | answering left =>
    have hspawned : c.writer ≠ .notSpawned := hwriter ▸ fun heq => by cases heq
    simp only [Engine.clientWrite, hwriter] at hstep
    split at hstep
    · cases hstep
      exact h.setWriter hc rfl rfl rfl hspawned fun hbalanced =>
        absurd hwriter ((not_balanced_of_answer hbalanced).2.1 left)
    · cases hstep
  | _ =>
    simp only [Engine.clientWrite, hwriter] at hstep
    cases hstep

theorem Demux.writeError (h : Demux base e) (hc : e.clients[i]? = some c)
    (hstep : e.writeError i c = some e') : Demux base e' := by
  cases hwriter : c.writer with
  | writing left =>
    have hspawned : c.writer ≠ .notSpawned := hwriter ▸ fun heq => by cases heq
    simp only [Engine.writeError, hwriter] at hstep
    cases hstep
    have hclients : (e.releasePermit c).clients[i]? = some c := by rw [clients_releasePermit, hc]
    refine h.releasePermit.setWriter hclients rfl rfl rfl hspawned fun hbalanced => ?_
    simp only [Client.Balanced, hwriter, List.append_assoc] at hbalanced ⊢
    exact hbalanced ▸ List.prefix_append _ _
  | answering left =>
    have hspawned : c.writer ≠ .notSpawned := hwriter ▸ fun heq => by cases heq
    simp only [Engine.writeError, hwriter] at hstep
    cases hstep
    exact h.setWriter hc rfl rfl rfl hspawned fun hbalanced =>
      absurd hwriter ((not_balanced_of_answer hbalanced).2.1 left)
  | _ =>
    simp only [Engine.writeError, hwriter] at hstep
    cases hstep

theorem packets_note_opened (r realm : U32) (t : Track) :
    (t.note r (.opened realm)).packets = t.packets := by
  simp only [Track.note]
  split <;> rfl

/-- A new client, with a realm that no other client has. -/
theorem Demux.join {service : Service} {realm : U32} (h : Demux base e)
    (hfresh : ∀ c ∈ e.clients, c.realm ≠ realm) (hclients : e'.clients = e.clients ++ [{ realm := realm, service := service }])
    (hchannels : e'.channels = e.channels.insert realm e.clients.length)
    (hnotes : e'.notes = e.notes ++ [.opened realm]) (hreader : e'.dhReader = e.dhReader)
    (hdelivered : e'.delivered = e.delivered) (hsession : e'.session = e.session) :
    Demux base e' where
  realms := by
    rw [hclients]
    exact nodup_realms_concat h.realms hfresh
  stream := by rw [hdelivered, hsession]; exact h.stream
  handled := by
    rw [hnotes, handledPackets_concat, hreader, hdelivered]
    exact (List.append_nil (handledPackets e.notes)).symm ▸ h.handled
  registered r j hlookup := by
    rw [hchannels] at hlookup
    rw [hclients]
    by_cases hr : r = realm
    · rw [hr, AList.lookup_insert] at hlookup
      obtain rfl := Option.some.inj hlookup
      exact ⟨_, List.getElem?_concat_length, hr.symm⟩
    · rw [AList.lookup_insert_ne hr] at hlookup
      obtain ⟨c, hc, hrealm⟩ := h.registered r j hlookup
      exact ⟨c, by rw [List.getElem?_append_left (List.getElem?_eq_some_iff.mp hc).1, hc], hrealm⟩
  present r := by
    rw [hnotes, track_concat, hchannels]
    simp only [Track.note]
    split
    · next hr => rw [← hr, AList.lookup_insert]; rfl
    · next hr => rw [AList.lookup_insert_ne (Ne.symm hr), h.present]
  unknown r hnone := by
    rw [hnotes, packets_of_quiet (packets_note_opened _ realm)]
    exact h.unknown r fun c hc => hnone c (hclients ▸ List.mem_append_left _ hc)
  forwards j data packets hforward := by
    rw [hclients, List.length_append]
    exact Nat.lt_of_lt_of_le (h.forwards j data packets (hreader ▸ hforward)) (Nat.le_add_right _ _)
  flow j c hc hservice := by
    have hheld : e'.inFlight j = e.inFlight j := by unfold inFlight; rw [hreader]
    have hlooked : lookedUp c.realm e'.notes = lookedUp c.realm e.notes := by
      unfold lookedUp
      rw [hnotes, packets_of_quiet (packets_note_opened _ realm)]
    rw [hheld, hlooked]
    rw [hclients] at hc
    rcases getElem?_concat_cases hc with ⟨hlt, hold⟩ | ⟨rfl, rfl⟩
    · refine (h.flow j c hold hservice).of_sender fun hsender => ?_
      rw [hasSender_iff] at hsender ⊢
      rcases hsender with ⟨r, hlookup⟩ | ⟨data, packets, hforward⟩
      · rw [hchannels] at hlookup
        by_cases hr : r = realm
        · rw [hr, AList.lookup_insert] at hlookup
          exact absurd (Option.some.inj hlookup) (Nat.ne_of_gt hlt)
        · exact .inl ⟨r, by rwa [AList.lookup_insert_ne hr] at hlookup⟩
      · exact .inr ⟨data, packets, hreader ▸ hforward⟩
    · -- the new client has got nothing yet
      refine ⟨fun _ => rfl, ?_⟩
      have hnothing : e.inFlight e.clients.length = [] := by
        unfold inFlight
        cases hforward : e.dhReader with
        | forward k data packets =>
          exact if_neg (Nat.ne_of_lt (h.forwards k data packets hforward))
        | _ => rfl
      show [] ++ [] ++ e.inFlight e.clients.length = lookedUp realm e.notes
      rw [hnothing, lookedUp, h.unknown realm hfresh]
      rfl

theorem Demux.accept {service : Service} {realm : U32} (h : Demux base e)
    (hstep : e.accept service realm = some e') : Demux base e' := by
  obtain ⟨hfresh, onvifSlots, rfl⟩ := accept_eq_some hstep
  exact h.join hfresh rfl rfl rfl rfl rfl rfl

/-! ## The tasks of the session -/

theorem Demux.sendBody {now : Instant} {body : PTCPBody} (h : Demux base e) :
    Demux base (e.sendBody now body) := h.of_shared rfl rfl rfl (.inl rfl) rfl rfl rfl rfl

theorem Demux.dhWriterRecv (h : Demux base e) (hstep : e.dhWriterRecv = some e') : Demux base e' := by
  unfold Engine.dhWriterRecv at hstep
  split at hstep
  · cases hstep
    exact h.of_shared rfl rfl rfl (.inl rfl) rfl rfl rfl rfl
  · cases hstep

theorem Demux.dhWriterSend {now : Instant} (h : Demux base e) (hstep : e.dhWriterSend now = some e') :
    Demux base e' := by
  unfold Engine.dhWriterSend at hstep
  split at hstep
  · cases hstep
    exact Demux.sendBody (h.of_shared rfl rfl rfl (.inl rfl) rfl rfl rfl rfl)
  · cases hstep

theorem Demux.retransmit {now : Instant} (h : Demux base e) : Demux base (e.retransmit now) :=
  h.of_shared rfl rfl rfl (.inl rfl) rfl rfl rfl rfl

theorem Demux.flow_of_free (h : Demux base e) (hfree : e.dhReader.isFree = true)
    (hfree' : e'.dhReader.isFree = true) (hchannels : e'.channels = e.channels)
    (hc : e.clients[i]? = some c) (hservice : c.service = .rtsp) :
    c.Flow (lookedUp c.realm e.notes) (e'.inFlight i) (e'.hasSender i) := by
  have hflow := h.flow i c hc hservice
  rw [inFlight_of_isFree hfree] at hflow
  rwa [inFlight_of_isFree hfree', hasSender_congr hchannels hfree hfree']

theorem not_forward_of_isFree {r : DhReader} {data : Bytes} {packets : List PTCPPacket} {P : Prop}
    (h : r.isFree = true) (hforward : r = .forward i data packets) : P := by
  rw [hforward] at h
  cases h

/-- What `recv` returns goes on from what it returned before. -/
theorem Demux.receive {config : Config} {now : Instant} {packet : PTCPPacket} (h : Demux base e)
    (hstep : receive config e now packet = some e') : Demux base e' := by
  cases hreader : e.dhReader with
  | reading =>
    simp only [Engine.receive, hreader] at hstep
    cases hstep
    have hfree : e.dhReader.isFree = true := by rw [hreader]; rfl
    have hnext (packets : List PTCPPacket) : (if packet.body = .empty then DhReader.handle packets
        else .acknowledge packets).isFree = true ∧
        (if packet.body = .empty then DhReader.handle packets else .acknowledge packets).left =
          packets := by
      split <;> exact ⟨rfl, rfl⟩
    obtain ⟨received, hconserved⟩ := h.stream
    have hhandled := h.handled
    rw [hreader] at hhandled
    refine ⟨⟨h.realms, ⟨_, hconserved.receive (Prod.eta _).symm⟩, ?_, h.registered, h.present,
      h.unknown, ?_⟩, ?_⟩
    · rw [(hnext _).2, ← hhandled, List.append_assoc]
      rfl
    · exact fun j data packets hforward => not_forward_of_isFree (hnext _).1 hforward
    · exact fun j c hc hservice => h.flow_of_free hfree (hnext _).1 rfl hc hservice
  | _ =>
    simp only [Engine.receive, hreader] at hstep
    cases hstep

/-- A packet that changes nothing for any realm. -/
theorem Demux.pass {packet : PTCPPacket} {packets : List PTCPPacket} (h : Demux base e)
    (hreader : e.dhReader = .handle (packet :: packets))
    (hquiet : ∀ realm, (track realm e.notes).note realm (.handled packet) = track realm e.notes) :
    Demux base { e.note (.handled packet) with dhReader := .handle packets } := by
  have hfree : e.dhReader.isFree = true := by rw [hreader]; rfl
  have htrack (realm : U32) : track realm (e.notes ++ [.handled packet]) = track realm e.notes := by
    rw [track_concat, hquiet]
  have hhandled := h.handled
  rw [hreader] at hhandled
  refine ⟨⟨h.realms, h.stream, ?_, h.registered, fun realm => ?_, fun realm hnone => ?_, ?_⟩, ?_⟩
  · show handledPackets (e.notes ++ [.handled packet]) ++ packets = e.delivered
    rw [handledPackets_concat, List.append_assoc]
    exact hhandled
  · show (track realm (e.notes ++ [.handled packet])).present = _
    rw [htrack]
    exact h.present realm
  · show (track realm (e.notes ++ [.handled packet])).packets = _
    rw [htrack]
    exact h.unknown realm hnone
  · exact fun j data packets hforward => not_forward_of_isFree rfl hforward
  · intro j c hc hservice
    show c.Flow (lookedUp c.realm (e.notes ++ [.handled packet])) _ _
    rw [lookedUp, htrack]
    exact h.flow_of_free hfree rfl rfl hc hservice

/-- The signal to a waiting client changes nothing that it receives. -/
theorem Demux.signalConn {realm : U32} {conn : ConnResult} (h : Demux base e) :
    Demux base (e.signalConn realm conn) := by
  unfold Engine.signalConn
  split
  · next i hlookup =>
    have hsame : Demux base { e with connChannels := e.connChannels.erase realm } :=
      h.of_shared rfl rfl rfl (.inl rfl) rfl rfl rfl rfl
    cases hc : e.clients[i]? with
    | none =>
      have hmodify : (e.clients.modify i fun c => { c with conn }) = e.clients :=
        List.modify_eq_self (List.getElem?_eq_none_iff.mp hc)
      rw [hmodify]
      exact hsame
    | some c =>
      rw [modify_eq_set_of_getElem? hc]
      exact hsame.setSame hc rfl rfl id rfl rfl rfl
  · exact h

/-- The data of a payload is in the hands of `dh_reader`. -/
theorem Client.Flow.hold {looked data : Bytes} {sender : Bool} (h : c.Flow looked [] true) :
    c.Flow (looked ++ data) data sender := by
  refine ⟨h.spawned, ?_⟩
  have hbalanced := h.balanced
  unfold Client.Balanced at hbalanced ⊢
  cases hwriter : c.writer with
  | closed =>
    rw [hwriter] at hbalanced
    exact absurd hbalanced.2 (by decide)
  | failed =>
    rw [hwriter] at hbalanced
    exact hbalanced.trans (List.prefix_append _ _)
  | collecting config response =>
    rw [hwriter] at hbalanced
    exact hbalanced
  | answering left =>
    rw [hwriter] at hbalanced
    exact hbalanced
  | removeChannel =>
    rw [hwriter] at hbalanced
    exact hbalanced
  | _ =>
    rw [hwriter] at hbalanced
    show c.written ++ c.waiting ++ data = looked ++ data
    rw [← hbalanced, List.append_nil]

/-- The data goes from the hands of `dh_reader` into the channel of the client. -/
theorem Client.Flow.send {looked data : Bytes} {sender : Bool} (h : c.Flow looked data true) :
    (c.send data).Flow looked [] sender := by
  refine ⟨by rw [c.send_handler, c.send_writer]; exact h.spawned, ?_⟩
  have hbalanced := h.balanced
  unfold Client.Balanced Client.waiting at hbalanced
  cases hwriter : c.writer with
  | failed =>
    rw [hwriter] at hbalanced
    simp only [Client.send, Client.Balanced, hwriter]
    exact hbalanced
  | closed =>
    rw [hwriter] at hbalanced
    exact absurd hbalanced.2 (by decide)
  | collecting config response =>
    rw [hwriter] at hbalanced
    exact hbalanced.elim
  | answering left =>
    rw [hwriter] at hbalanced
    exact hbalanced.elim
  | removeChannel =>
    rw [hwriter] at hbalanced
    exact hbalanced.elim
  | _ =>
    simp only [Client.send, Client.Balanced, Client.waiting, hwriter, List.flatten_append,
      List.flatten_singleton, List.append_nil, List.append_assoc] at hbalanced ⊢
    exact hbalanced

/-- A payload whose realm is in `channels` is looked up, and `dh_reader` holds its data. -/
theorem Demux.lookUp {packet : PTCPPacket} {packets : List PTCPPacket} {p : PTCPPayload}
    (h : Demux base e) (hreader : e.dhReader = .handle (packet :: packets))
    (hbody : packet.body = .payload p) (hlookup : e.channels.lookup p.realm = some i) :
    Demux base { e.note (.handled packet) with dhReader := .forward i p.data packets } := by
  have hfree : e.dhReader.isFree = true := by rw [hreader]; rfl
  obtain ⟨c, hc, hrealm⟩ := h.registered p.realm i hlookup
  have hhandled := h.handled
  rw [hreader] at hhandled
  have hpresent : (track p.realm e.notes).present = true := by rw [h.present, hlookup]; rfl
  have hpackets (realm : U32) : track realm (e.notes ++ [.handled packet]) =
      if p.realm = realm then
        { track realm e.notes with packets := (track realm e.notes).packets ++ [packet] }
      else track realm e.notes := by
    rw [track_concat]
    simp only [Track.note, hbody]
    by_cases hr : p.realm = realm
    · rw [if_pos hr, if_pos ⟨hr, hr ▸ hpresent⟩]
    · rw [if_neg hr, if_neg fun hboth => hr hboth.1]
  refine ⟨⟨h.realms, h.stream, ?_, h.registered, fun realm => ?_, fun realm hnone => ?_, ?_⟩, ?_⟩
  · show handledPackets (e.notes ++ [.handled packet]) ++ packets = e.delivered
    rw [handledPackets_concat, List.append_assoc]
    exact hhandled
  · show (track realm (e.notes ++ [.handled packet])).present = _
    rw [hpackets]
    split <;> exact h.present realm
  · show (track realm (e.notes ++ [.handled packet])).packets = _
    have hne : p.realm ≠ realm := fun hr => hnone c (List.mem_of_getElem? hc) (hrealm.trans hr)
    rw [hpackets, if_neg hne]
    exact h.unknown realm hnone
  · intro j data packets' hforward
    cases hforward
    exact (List.getElem?_eq_some_iff.mp hc).1
  · intro j d hd hservice
    show d.Flow (lookedUp d.realm (e.notes ++ [.handled packet]))
      (if i = j then p.data else []) _
    have hflow := h.flow j d hd hservice
    rw [inFlight_of_isFree hfree] at hflow
    by_cases hij : i = j
    · subst hij
      obtain rfl : c = d := Option.some.inj (hc.symm.trans hd)
      have hlooked : lookedUp c.realm (e.notes ++ [.handled packet]) =
          lookedUp c.realm e.notes ++ p.data := by
        unfold lookedUp payloadBytes
        rw [hpackets, if_pos hrealm.symm, List.flatMap_append, List.flatMap_singleton, hbody]
      have hsender : e.hasSender i = true := hasSender_iff.mpr (.inl ⟨p.realm, hlookup⟩)
      rw [hsender] at hflow
      rw [if_pos rfl, hlooked]
      exact hflow.hold
    · rw [if_neg hij]
      have hne : p.realm ≠ d.realm := fun hr => hij (index_inj h.realms hc hd (hrealm.trans hr))
      unfold lookedUp
      rw [hpackets, if_neg hne]
      refine hflow.of_sender fun hsender => ?_
      rw [hasSender_iff] at hsender ⊢
      rcases hsender with hlookup' | ⟨_, _, hforward⟩
      · exact .inl hlookup'
      · cases hforward
        exact absurd rfl hij

theorem Demux.forward {data : Bytes} {packets : List PTCPPacket} (h : Demux base e)
    (hreader : e.dhReader = .forward i data packets) :
    Demux base { e.forward i data with dhReader := .handle packets } := by
  have hi := h.forwards i data packets hreader
  obtain ⟨c, hc⟩ : ∃ c, e.clients[i]? = some c := ⟨_, List.getElem?_eq_getElem hi⟩
  have hsender : e.hasSender i = true := hasSender_iff.mpr (.inr ⟨data, packets, hreader⟩)
  have hhandled := h.handled
  rw [hreader] at hhandled
  have hregistry : Registry base { e with dhReader := .handle packets } :=
    ⟨h.realms, h.stream, hhandled, h.registered, h.present, h.unknown,
      fun _ _ _ hforward => by cases hforward⟩
  have hforward : { e.forward i data with dhReader := .handle packets } =
      Engine.setClient { e with dhReader := .handle packets } i (c.send data) := by
    unfold Engine.forward Engine.setClient
    rw [modify_eq_set_of_getElem? hc]
  rw [hforward]
  refine ⟨hregistry.setClient hc (c.send_realm data), fun j d hd hservice => ?_⟩
  rw [getElem?_setClient (e := { e with dhReader := .handle packets }) hc] at hd
  split at hd
  · next hij =>
    obtain rfl := Option.some.inj hd
    subst hij
    have hflow := h.flow i c hc (c.send_service data ▸ hservice)
    have hheld : e.inFlight i = data := by
      unfold inFlight
      rw [hreader]
      exact if_pos rfl
    rw [hsender, hheld] at hflow
    rw [c.send_realm]
    exact hflow.send
  · next hij =>
    have hflow := h.flow j d hd hservice
    have hheld : e.inFlight j = [] := by
      unfold inFlight
      rw [hreader]
      exact if_neg hij
    rw [hheld] at hflow
    refine hflow.of_sender fun hsender => ?_
    rw [hasSender_iff] at hsender ⊢
    rcases hsender with hlookup | ⟨_, _, hforward⟩
    · exact .inl hlookup
    · cases hforward

/-- The first step for a packet. -/
theorem Demux.handlePacket {packet : PTCPPacket} {packets : List PTCPPacket} (h : Demux base e)
    (hreader : e.dhReader = .handle (packet :: packets)) : Demux base (e.handlePacket packet packets) := by
  have hpass (hquiet : ∀ realm (t : Track), t.note realm (.handled packet) = t) :
      Demux base { e.note (.handled packet) with dhReader := .handle packets } :=
    h.pass hreader fun realm => hquiet realm _
  unfold Engine.handlePacket
  cases hbody : packet.body with
  | status realm status =>
    by_cases hconn : status = "CONN"
    · subst hconn
      have hquiet := hpass fun r t => by
        simp only [Track.note, hbody]
        exact if_neg fun hboth => absurd hboth.2 (by decide)
      have hsignal := @Demux.signalConn base _ realm .connected hquiet
      simp only [if_true]
      unfold Engine.signalConn at hsignal ⊢
      have hlookup : (e.note (.handled packet)).connChannels.lookup realm =
        e.connChannels.lookup realm := rfl
      cases hcase : e.connChannels.lookup realm <;> rw [hcase] at hlookup <;>
        simp only [hlookup] at hsignal ⊢ <;> exact hsignal
    by_cases hdisc : status = "DISC"
    · subst hdisc
      simp only [if_neg hconn, if_true]
      refine h.erase (n := .handled packet) rfl rfl rfl (fun r t => ?_) (fun r t => ?_) ?_
        (.inr ⟨by rw [hreader]; rfl, rfl⟩) rfl rfl
      · simp only [Track.note, hbody]
        split <;> rfl
      · simp only [Track.note, hbody, and_true, eq_comm (a := realm)]
        split <;> rfl
      · have hhandled := h.handled
        rw [hreader] at hhandled
        rw [handledPackets_concat, List.append_assoc]
        exact hhandled
    · simp only [if_neg hconn, if_neg hdisc]
      exact hpass fun r t => by
        simp only [Track.note, hbody]
        exact if_neg fun hboth => hdisc hboth.2
  | payload p =>
    cases hlookup : e.channels.lookup p.realm with
    | some i =>
      have hlookUp := h.lookUp hreader hbody hlookup
      simp only [note, hlookup] at hlookUp ⊢
      exact hlookUp
    | none =>
      have hquiet := h.pass hreader fun realm => by
        simp only [Track.note, hbody]
        refine if_neg fun hboth => ?_
        rw [← hboth.1, h.present, hlookup] at hboth
        exact absurd hboth.2 (by decide)
      simp only [note, hlookup] at hquiet ⊢
      exact hquiet
  | _ =>
    exact hpass fun realm t => by simp only [Track.note, hbody]

theorem Demux.dhReaderStep {now : Instant} (h : Demux base e) (hstep : e.dhReaderStep now = some e') :
    Demux base e' := by
  cases hreader : e.dhReader with
  | reading =>
    simp only [Engine.dhReaderStep, hreader] at hstep
    cases hstep
  | acknowledge packets =>
    simp only [Engine.dhReaderStep, hreader] at hstep
    cases hstep
    refine h.of_shared rfl rfl rfl (.inr ?_) rfl rfl rfl rfl
    rw [hreader]
    exact ⟨rfl, rfl, rfl⟩
  | handle packets =>
    cases packets with
    | nil =>
      simp only [Engine.dhReaderStep, hreader] at hstep
      cases hstep
      refine h.of_shared rfl rfl rfl (.inr ?_) rfl rfl rfl rfl
      rw [hreader]
      exact ⟨rfl, rfl, rfl⟩
    | cons packet packets =>
      simp only [Engine.dhReaderStep, hreader] at hstep
      cases hstep
      exact h.handlePacket hreader
  | forward i data packets =>
    simp only [Engine.dhReaderStep, hreader] at hstep
    cases hstep
    exact h.forward hreader
  | removeConn realm packets =>
    simp only [Engine.dhReaderStep, hreader] at hstep
    cases hstep
    have hsignal : Demux base (e.signalConn realm .dropped) := h.signalConn
    have hreader' : (e.signalConn realm .dropped).dhReader = .removeConn realm packets := by
      unfold Engine.signalConn
      split <;> exact hreader
    refine hsignal.of_shared rfl rfl rfl (.inr ?_) rfl rfl rfl rfl
    rw [hreader']
    exact ⟨rfl, rfl, rfl⟩
  | closeOnvif realm packets =>
    simp only [Engine.dhReaderStep, hreader] at hstep
    cases hstep
    refine h.of_shared rfl rfl rfl (.inr ?_) rfl rfl rfl rfl
    rw [hreader]
    exact ⟨rfl, rfl, rfl⟩

/-! ## Runs -/

/-- A step of the engine happens before the process exits. -/
theorem Demux.step {config : Config} {event : Event} (h : Demux base e)
    (hstep : step config e event = some e') : Demux base e' := by
  unfold Engine.step at hstep
  split at hstep
  · cases hstep
  cases event with
  | accept service realm => exact h.accept hstep
  | handleClient i localAddress =>
    obtain ⟨c, hc, htask⟩ := clientStep_eq_some hstep
    exact h.handleClient hc htask
  | bindTimeout i =>
    obtain ⟨c, hc, htask⟩ := clientStep_eq_some hstep
    unfold Engine.bindTimeout at htask
    split at htask
    · next hwaiting =>
      cases htask
      refine h.setSame hc rfl rfl (fun _ => ?_) rfl rfl rfl
      rw [hwaiting.1]
      decide
    · cases htask
  | clientRead i data =>
    obtain ⟨c, hc, htask⟩ := clientStep_eq_some hstep
    unfold Engine.clientRead at htask
    split at htask
    · cases htask
      exact h.setSame hc rfl rfl id rfl rfl rfl
    · cases htask
  | clientClosed i =>
    obtain ⟨c, hc, htask⟩ := clientStep_eq_some hstep
    unfold Engine.clientClosed at htask
    split at htask
    · cases htask
      exact h.setSame hc rfl rfl id rfl rfl rfl
    · cases htask
  | processReader i =>
    obtain ⟨c, hc, htask⟩ := clientStep_eq_some hstep
    exact h.processReader hc htask
  | processWriter i =>
    obtain ⟨c, hc, htask⟩ := clientStep_eq_some hstep
    exact h.processWriter hc htask
  | clientWrite i n =>
    obtain ⟨c, hc, htask⟩ := clientStep_eq_some hstep
    exact h.clientWrite hc htask
  | writeError i =>
    obtain ⟨c, hc, htask⟩ := clientStep_eq_some hstep
    exact h.writeError hc htask
  | heartbeat => exact h.enqueue hstep
  | dhWriterRecv => exact h.dhWriterRecv hstep
  | dhWriterSend now => exact h.dhWriterSend hstep
  | receive now packet => exact h.receive hstep
  | dhReader now => exact h.dhReaderStep hstep
  | retransmit now =>
    cases hstep
    exact h.retransmit
  | socketError =>
    cases hstep
    exact h.of_shared rfl rfl rfl (.inl rfl) rfl rfl rfl rfl

/-- Nothing is lost between `dh_reader` and the socket unless a write was an error. -/
theorem Client.Balanced.of_not_failed {looked held : Bytes} {sender : Bool}
    (h : c.Balanced looked held sender) (hopen : c.writer ≠ .closed) (hgood : c.writer ≠ .failed) :
    c.written ++ c.waiting ++ held = looked := by
  unfold Client.Balanced at h
  cases hwriter : c.writer with
  | closed => exact absurd hwriter hopen
  | failed => exact absurd hwriter hgood
  | collecting config response =>
    rw [hwriter] at h
    exact h.elim
  | answering left =>
    rw [hwriter] at h
    exact h.elim
  | removeChannel =>
    rw [hwriter] at h
    exact h.elim
  | _ =>
    rw [hwriter] at h
    exact h

theorem Client.Balanced.written_prefix {looked held : Bytes} {sender : Bool}
    (h : c.Balanced looked held sender) : c.written <+: looked := by
  by_cases hgood : c.writer = .failed
  · unfold Client.Balanced at h
    rw [hgood] at h
    exact h
  by_cases hopen : c.writer = .closed
  · unfold Client.Balanced at h
    rw [hopen] at h
    exact h.1 ▸ List.prefix_refl _
  · rw [← h.of_not_failed hopen hgood, List.append_assoc]
    exact List.prefix_append _ _

end Demux

end DahuaBridge.Engine
