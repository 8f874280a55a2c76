import DahuaBridge.Engine.Downstream
import DahuaBridge.Engine.Slots

/-!
# The tunnel engine as one connection sees it

What reaches the socket of a connection goes through the maps, the notes, `dh_reader` and the
tasks of the connection. `View` is what these hold for one connection, and `View.Step` is all
that a step of the engine may do to it.

* `step_views`: every step of the engine is such a step for every connection. What the steps
  of other connections do is `View.Step.idle`.
-/

namespace DahuaBridge.Engine

/-- The data of payloads, packet by packet. -/
def payloadChunks (packets : List PTCPPacket) : List Bytes :=
  packets.filterMap fun packet =>
    match packet.body with
    | .payload p => some p.data
    | _ => none

/-- The chunks that were looked up for a realm. -/
def chunksFor (realm : U32) (notes : List Note) : List Bytes :=
  payloadChunks (track realm notes).packets

/-- The chunk that `dh_reader` holds for client `i`. -/
def heldFor (e : Engine) (i : Nat) : Option Bytes :=
  match e.dhReader with
  | .forward j data _ => if j = i then some data else none
  | _ => none

structure View where
  writer : ProcessWriter
  rx : List Bytes
  written : Bytes
  chunks : List Bytes
  held : Option Bytes
  sender : Bool

def view (e : Engine) (i : Nat) (c : Client) : View where
  writer := c.writer
  rx := c.rx
  written := c.written
  chunks := chunksFor c.realm e.notes
  held := e.heldFor i
  sender := e.hasSender i

/-- What a step may do to a connection. `Serves` holds of the rewriting, if any, that the
handler has set up in this step. -/
inductive View.Step (Serves : Option HttpRewriteConfig → Prop) : View → View → Prop
  | idle {v : View} (sender : Bool) : (sender = true → v.sender = true) →
      Step Serves v { v with sender }
  | relay {v : View} : v.writer = .notSpawned → Serves none →
      Step Serves v { v with writer := .receiving }
  | serve {v : View} (config : HttpRewriteConfig) : v.writer = .notSpawned → Serves (some config) →
      Step Serves v { v with writer := .collecting config [] }
  | lookUp {v : View} (data : Bytes) : v.sender = true → v.held = none →
      Step Serves v { v with chunks := v.chunks ++ [data], held := some data }
  | forward {v : View} (data : Bytes) (sender : Bool) : v.held = some data →
      Step Serves v { v with
        rx := if v.writer.hasEnded then v.rx else v.rx ++ [data], held := none, sender }
  | take {v : View} (data : Bytes) (rx : List Bytes) : v.writer = .receiving →
      v.rx = data :: rx → Step Serves v { v with writer := .writing data, rx }
  | close {v : View} : v.writer = .receiving → v.rx = [] → v.sender = false →
      Step Serves v { v with writer := .closed }
  | write {v : View} (left : Bytes) (n : Nat) : v.writer = .writing left → n ≤ left.length →
      Step Serves v { v with
        writer := if left.drop n = [] then .receiving else .writing (left.drop n)
        written := v.written ++ left.take n }
  | fail {v : View} (left : Bytes) : v.writer = .writing left →
      Step Serves v { v with writer := .failed }
  | collect {v : View} (config : HttpRewriteConfig) (response data : Bytes) (rx : List Bytes) :
      v.writer = .collecting config response → v.rx = data :: rx →
      Step Serves v { v with
        writer := if httpResponseComplete (response ++ data) then answerStage config (response ++ data)
          else .collecting config (response ++ data)
        rx }
  | hangUp {v : View} (config : HttpRewriteConfig) (response : Bytes) :
      v.writer = .collecting config response → v.rx = [] → v.sender = false →
      Step Serves v { v with writer := answerStage config response }
  | answer {v : View} (left : Bytes) (n : Nat) : v.writer = .answering left → n ≤ left.length →
      Step Serves v { v with
        writer := if left.drop n = [] then .removeChannel else .answering (left.drop n)
        written := v.written ++ left.take n }
  | giveUp {v : View} (left : Bytes) : v.writer = .answering left →
      Step Serves v { v with writer := .removeChannel }
  | finish {v : View} (sender : Bool) : v.writer = .removeChannel →
      (sender = true → v.sender = true) → Step Serves v { v with writer := .closed, sender }

/-- What the handler of client `i` sets up in a step. Only ONVIF is rewritten. -/
def Event.Serves (event : Event) (i : Nat) (service : Service) (rewrite : Option HttpRewriteConfig) :
    Prop :=
  ∃ localAddress, event = .handleClient i localAddress ∧
    rewrite = if service = .onvif then localAddress else none

/-- Every connection sees one of the steps of `View.Step`, and there is no new one. -/
structure Views (event : Event) (e e' : Engine) : Prop where
  step : ∀ i c, e.clients[i]? = some c → ∃ c', e'.clients[i]? = some c' ∧ c'.realm = c.realm ∧
    c'.service = c.service ∧ View.Step (event.Serves i c.service) (e.view i c) (e'.view i c')
  length : (∀ service realm, event ≠ .accept service realm) → e'.clients.length = e.clients.length

/-- What is shared is as it was, but for senders that are gone. -/
structure Shared (e e' : Engine) : Prop where
  clients : e'.clients = e.clients
  chunks : ∀ realm, chunksFor realm e'.notes = chunksFor realm e.notes
  held : ∀ i, e'.heldFor i = e.heldFor i
  sender : ∀ i, e'.hasSender i = true → e.hasSender i = true

section Views

variable {config : Config} {base : Nat} {event : Event} {e e' e₁ : Engine} {i j : Nat}
  {c c' : Client}

theorem heldFor_of_isFree (h : e.dhReader.isFree = true) : e.heldFor i = none := by
  unfold heldFor
  cases hreader : e.dhReader with
  | forward j data packets =>
    rw [hreader] at h
    cases h
  | _ => rfl

theorem Shared.of_same (hclients : e'.clients = e.clients) (hnotes : e'.notes = e.notes)
    (hreader : e'.dhReader = e.dhReader) (hchannels : e'.channels = e.channels) : Shared e e' where
  clients := hclients
  chunks realm := by rw [hnotes]
  held i := by rw [heldFor, heldFor, hreader]
  sender i h := by rwa [hasSender, hreader, hchannels, ← hasSender] at h

/-- A task of the session that has no sender in its hands, before and after. -/
theorem Shared.of_free (hclients : e'.clients = e.clients) (hnotes : e'.notes = e.notes)
    (hfree : e.dhReader.isFree = true) (hfree' : e'.dhReader.isFree = true)
    (hchannels : e'.channels = e.channels) : Shared e e' where
  clients := hclients
  chunks realm := by rw [hnotes]
  held i := by rw [heldFor_of_isFree hfree, heldFor_of_isFree hfree']
  sender i h := hasSender_congr hchannels hfree hfree' ▸ h

theorem Shared.removeChannel (realm : U32) : Shared e (e.removeChannel realm) where
  clients := rfl
  chunks r := by
    show chunksFor r (e.notes ++ [.closed realm]) = _
    unfold chunksFor
    rw [packets_of_quiet]
    intro t
    simp only [Track.note]
    split <;> rfl
  held i := rfl
  sender i h := by
    rw [hasSender_iff] at h ⊢
    rcases h with ⟨r, hlookup⟩ | hforward
    · exact .inl ⟨r, (lookup_of_erase hlookup).2⟩
    · exact .inr hforward

/-- A step that a connection sees at most by a sender that is gone. -/
theorem Shared.step {Serves : Option HttpRewriteConfig → Prop} (h : Shared e e') (hrealm : c'.realm = c.realm)
    (hwriter : c'.writer = c.writer) (hrx : c'.rx = c.rx) (hwritten : c'.written = c.written) :
    View.Step Serves (e.view i c) (e'.view i c') := by
  have hview : e'.view i c' = { e.view i c with sender := e'.hasSender i } := by
    unfold Engine.view
    rw [hwriter, hrx, hwritten, hrealm, h.chunks, h.held]
  rw [hview]
  exact .idle _ (h.sender i)

theorem Shared.views (h : Shared e e') : Views event e e' where
  step i c hc := ⟨c, by rw [h.clients]; exact hc, rfl, rfl, h.step rfl rfl rfl rfl⟩
  length _ := by rw [h.clients]

/-- A step of one connection. -/
theorem Shared.setClient (h : Shared e e₁) (hc : e.clients[i]? = some c) (hrealm : c'.realm = c.realm)
    (hservice : c'.service = c.service)
    (hstep : View.Step (event.Serves i c.service) (e.view i c) (e₁.view i c')) :
    Views event e (e₁.setClient i c') := by
  refine ⟨fun j d hd => ?_, fun _ => (List.length_set ..).trans (congrArg _ h.clients)⟩
  have hget : (e₁.setClient i c').clients[j]? = if i = j then some c' else e.clients[j]? := by
    rw [getElem?_setClient (h.clients ▸ hc), h.clients]
  rw [hget]
  split
  · next hij =>
    subst hij
    obtain rfl : c = d := Option.some.inj (hc.symm.trans hd)
    exact ⟨c', rfl, hrealm, hservice, hstep⟩
  · exact ⟨d, hd, rfl, rfl, h.step rfl rfl rfl rfl⟩

theorem Shared.setSame (h : Shared e e₁) (hc : e.clients[i]? = some c) (hrealm : c'.realm = c.realm)
    (hservice : c'.service = c.service) (hwriter : c'.writer = c.writer) (hrx : c'.rx = c.rx)
    (hwritten : c'.written = c.written) : Views event e (e₁.setClient i c') :=
  h.setClient hc hrealm hservice (h.step hrealm hwriter hrx hwritten)

/-! ## The tasks of a connection -/

theorem views_enqueue {event' : PTCPEvent} (hstep : e₁.enqueue event' = some e')
    (h : Views event e e₁) : Views event e e' := by
  obtain rfl := enqueue_eq_some hstep
  exact ⟨h.step, h.length⟩

theorem shared_refl (e : Engine) : Shared e e := .of_same rfl rfl rfl rfl

theorem views_accept {service : Service} {realm : U32}
    (hstep : e.accept service realm = some e') : Views (.accept service realm) e e' := by
  obtain ⟨_, onvifSlots, heq⟩ := accept_eq_some hstep
  have hclients : e'.clients = e.clients ++ [{ realm := realm, service := service }] := by
    rw [heq]
  have hchannels : e'.channels = e.channels.insert realm e.clients.length := by rw [heq]
  have hnotes : e'.notes = e.notes ++ [.opened realm] := by rw [heq]
  have hreader : e'.dhReader = e.dhReader := by rw [heq]
  refine ⟨fun i c hc => ?_, fun hne => absurd rfl (hne service realm)⟩
  have hlt := (List.getElem?_eq_some_iff.mp hc).1
  refine ⟨c, by rw [hclients, List.getElem?_append_left hlt]; exact hc, rfl, rfl, ?_⟩
  have hview : e'.view i c = { e.view i c with sender := e'.hasSender i } := by
    unfold Engine.view heldFor chunksFor
    rw [hnotes, hreader, packets_of_quiet (packets_note_opened _ realm)]
  rw [hview]
  refine .idle _ fun hsender => ?_
  show e.hasSender i = true
  rw [hasSender_iff] at hsender ⊢
  rcases hsender with ⟨r, hlookup⟩ | ⟨data, packets, hforward⟩
  · rw [hchannels] at hlookup
    by_cases hr : r = realm
    · rw [hr, AList.lookup_insert] at hlookup
      exact absurd (Option.some.inj hlookup) (Nat.ne_of_gt hlt)
    · exact .inl ⟨r, by rwa [AList.lookup_insert_ne hr] at hlookup⟩
  · exact .inr ⟨data, packets, hreader ▸ hforward⟩

theorem views_handleClient {localAddress : Option HttpRewriteConfig} (hslots : Slots e)
    (hc : e.clients[i]? = some c) (hstep : handleClient config e i localAddress c = some e') :
    Views (.handleClient i localAddress) e e' := by
  unfold Engine.handleClient at hstep
  split at hstep
  · cases hstep
    have hinsert : Shared e { e with connChannels := e.connChannels.insert c.realm i } :=
      .of_same rfl rfl rfl rfl
    exact hinsert.setSame hc rfl rfl rfl rfl rfl
  · exact views_enqueue hstep ((shared_refl e).setSame hc rfl rfl rfl rfl rfl)
  · next hhandler =>
    have hnone : c.writer = .notSpawned :=
      hslots.spawned c (List.mem_of_getElem? hc) (hhandler ▸ (by decide))
    split at hstep
    · cases hstep
    · cases hstep
      exact (shared_refl e).setSame hc rfl rfl rfl rfl rfl
    · cases hstep
      have honvif : Shared e { e with
          onvifRealm := if c.service = .onvif then some c.realm else e.onvifRealm } :=
        .of_same rfl rfl rfl rfl
      refine honvif.setClient hc rfl rfl ?_
      cases hservice : c.service with
      | rtsp => exact .relay hnone ⟨localAddress, rfl, rfl⟩
      | onvif =>
        cases localAddress with
        | none => exact .relay hnone ⟨none, rfl, rfl⟩
        | some rewrite => exact .serve rewrite hnone ⟨some rewrite, rfl, rfl⟩
  · cases hstep
    exact (Shared.removeChannel c.realm).setSame hc rfl rfl rfl rfl rfl
  · cases hstep
    have herase : Shared e { e with connChannels := e.connChannels.erase c.realm } :=
      .of_same rfl rfl rfl rfl
    exact herase.setSame hc rfl rfl rfl rfl rfl
  · cases hstep
    have hexit : Shared e { e with exited := true } := .of_same rfl rfl rfl rfl
    exact hexit.views
  · cases hstep

theorem views_bindTimeout (hc : e.clients[i]? = some c) (hstep : e.bindTimeout i c = some e') :
    Views event e e' := by
  unfold Engine.bindTimeout at hstep
  split at hstep
  · cases hstep
    exact (shared_refl e).setSame hc rfl rfl rfl rfl rfl
  · cases hstep

theorem views_clientRead {data : Bytes} (hc : e.clients[i]? = some c)
    (hstep : e.clientRead i data c = some e') : Views event e e' := by
  unfold Engine.clientRead at hstep
  split at hstep
  · cases hstep
    exact (shared_refl e).setSame hc rfl rfl rfl rfl rfl
  · cases hstep

theorem views_clientClosed (hc : e.clients[i]? = some c) (hstep : e.clientClosed i c = some e') :
    Views event e e' := by
  unfold Engine.clientClosed at hstep
  split at hstep
  · cases hstep
    exact (shared_refl e).setSame hc rfl rfl rfl rfl rfl
  · cases hstep

theorem views_processReader (hc : e.clients[i]? = some c) (hstep : e.processReader i c = some e') :
    Views event e e' := by
  unfold Engine.processReader at hstep
  split at hstep
  · exact views_enqueue hstep ((shared_refl e).setSame hc rfl rfl rfl rfl rfl)
  · exact views_enqueue hstep ((shared_refl e).setSame hc rfl rfl rfl rfl rfl)
  · cases hstep
    exact (Shared.removeChannel c.realm).setSame hc rfl rfl rfl rfl rfl
  · cases hstep

theorem shared_releasePermit : Shared e (e.releasePermit c) := by
  unfold Engine.releasePermit
  split <;> exact .of_same rfl rfl rfl rfl

theorem Shared.trans {e₂ : Engine} (h : Shared e e₁) (h' : Shared e₁ e₂) : Shared e e₂ where
  clients := h'.clients.trans h.clients
  chunks realm := (h'.chunks realm).trans (h.chunks realm)
  held i := (h'.held i).trans (h.held i)
  sender i hsender := h.sender i (h'.sender i hsender)

/-- The view of a client whose writer is elsewhere. -/
theorem Shared.view_writer (h : Shared e e₁) (hrealm : c'.realm = c.realm) :
    e₁.view i c' = { e.view i c with
      writer := c'.writer, rx := c'.rx, written := c'.written, sender := e₁.hasSender i } := by
  unfold Engine.view
  rw [hrealm, h.chunks, h.held]

theorem views_processWriter (hc : e.clients[i]? = some c) (hstep : e.processWriter i c = some e') :
    Views event e e' := by
  unfold Engine.processWriter at hstep
  split at hstep
  · next hwriter =>
    split at hstep
    · next data rx hrx =>
      cases hstep
      exact (shared_refl e).setClient hc rfl rfl (.take data rx hwriter hrx)
    · next hrx =>
      split at hstep
      · cases hstep
      · next hsender =>
        cases hstep
        have hshared : Shared e (e.releasePermit c) := shared_releasePermit
        refine hshared.setClient hc rfl rfl ?_
        have hview : (e.releasePermit c).view i { c with writer := .closed } =
            { e.view i c with writer := .closed, sender := (e.releasePermit c).hasSender i } :=
          hshared.view_writer rfl
        rw [hview, hasSender_releasePermit]
        exact .close hwriter hrx (Bool.eq_false_iff.mpr hsender)
  · next rewrite response hwriter =>
    split at hstep
    · next data rx hrx =>
      cases hstep
      exact (shared_refl e).setClient hc rfl rfl (.collect rewrite response data rx hwriter hrx)
    · next hrx =>
      split at hstep
      · cases hstep
      · next hsender =>
        cases hstep
        exact (shared_refl e).setClient hc rfl rfl
          (.hangUp rewrite response hwriter hrx (Bool.eq_false_iff.mpr hsender))
  · next hwriter =>
    cases hstep
    have hremove := Shared.removeChannel (e := e) c.realm
    have hshared := hremove.trans (shared_releasePermit (c := c))
    refine hshared.setClient hc rfl rfl ?_
    have hview : ((e.removeChannel c.realm).releasePermit c).view i { c with writer := .closed } =
        { e.view i c with
          writer := .closed
          sender := ((e.removeChannel c.realm).releasePermit c).hasSender i } :=
      hshared.view_writer rfl
    rw [hview]
    exact .finish _ hwriter (hshared.sender i)
  · cases hstep

theorem views_clientWrite {n : Nat} (hc : e.clients[i]? = some c)
    (hstep : e.clientWrite i n c = some e') : Views event e e' := by
  unfold Engine.clientWrite at hstep
  split at hstep
  · next left hwriter =>
    split at hstep
    · next hn =>
      cases hstep
      exact (shared_refl e).setClient hc rfl rfl (.write left n hwriter hn.1)
    · cases hstep
  · next left hwriter =>
    split at hstep
    · next hn =>
      cases hstep
      exact (shared_refl e).setClient hc rfl rfl (.answer left n hwriter hn.1)
    · cases hstep
  · cases hstep

theorem views_writeError (hc : e.clients[i]? = some c) (hstep : e.writeError i c = some e') :
    Views event e e' := by
  unfold Engine.writeError at hstep
  split at hstep
  · next left hwriter =>
    cases hstep
    have hshared : Shared e (e.releasePermit c) := shared_releasePermit
    refine hshared.setClient hc rfl rfl ?_
    have hview : (e.releasePermit c).view i { c with writer := .failed } =
        { e.view i c with writer := .failed, sender := (e.releasePermit c).hasSender i } :=
      hshared.view_writer rfl
    rw [hview, hasSender_releasePermit]
    exact .fail left hwriter
  · next left hwriter =>
    cases hstep
    exact (shared_refl e).setClient hc rfl rfl (.giveUp left hwriter)
  · cases hstep

/-! ## The tasks of the session -/

theorem views_dhWriterRecv (hstep : e.dhWriterRecv = some e') : Views event e e' := by
  unfold Engine.dhWriterRecv at hstep
  split at hstep
  · cases hstep
    exact Shared.views (.of_same rfl rfl rfl rfl)
  · cases hstep

theorem views_dhWriterSend {now : Instant} (hstep : e.dhWriterSend now = some e') :
    Views event e e' := by
  unfold Engine.dhWriterSend at hstep
  split at hstep
  · cases hstep
    exact Shared.views (.of_same rfl rfl rfl rfl)
  · cases hstep

theorem views_receive {now : Instant} {packet : PTCPPacket}
    (hstep : receive config e now packet = some e') : Views event e e' := by
  unfold Engine.receive at hstep
  split at hstep
  · next hreader =>
    cases hstep
    refine Shared.views (.of_free rfl rfl (by rw [hreader]; rfl) ?_ rfl)
    dsimp only
    split <;> rfl
  · cases hstep

/-- The signal to a waiting handler comes on top of what is shared. -/
theorem Shared.signalConn {realm : U32} {conn : ConnResult} {dhReader : DhReader}
    (h : Shared e { e₁ with dhReader }) :
    Views event e { e₁.signalConn realm conn with dhReader } := by
  unfold Engine.signalConn
  split
  · next i _ =>
    have hshared : Shared e { e₁ with connChannels := e₁.connChannels.erase realm, dhReader } :=
      ⟨h.clients, h.chunks, h.held, h.sender⟩
    have hclients : e₁.clients = e.clients := h.clients
    cases hc : e₁.clients[i]? with
    | none =>
      rw [List.modify_eq_self (List.getElem?_eq_none_iff.mp hc)]
      exact hshared.views
    | some c =>
      rw [modify_eq_set_of_getElem? hc]
      have hc' : e.clients[i]? = some c := by rwa [← hclients]
      exact hshared.setSame hc' rfl rfl rfl rfl rfl
  · exact h.views

/-- A packet that no realm gets anything from. -/
theorem shared_pass {packet : PTCPPacket} {packets : List PTCPPacket}
    (hreader : e.dhReader.isFree = true)
    (hquiet : ∀ realm, ((track realm e.notes).note realm (.handled packet)).packets =
      (track realm e.notes).packets) :
    Shared e { e.note (.handled packet) with dhReader := .handle packets } where
  clients := rfl
  chunks realm := by
    show chunksFor realm (e.notes ++ [.handled packet]) = _
    unfold chunksFor
    rw [track_concat, hquiet]
  held i := by
    rw [heldFor_of_isFree hreader]
    rfl
  sender i h := by
    rw [hasSender_of_isFree rfl] at h
    exact (hasSender_of_isFree hreader).mpr h

/-- A payload goes to the one connection whose realm it is. -/
theorem views_lookUp {packet : PTCPPacket} {packets : List PTCPPacket} {p : PTCPPayload}
    (hregistry : Registry base e) (hreader : e.dhReader.isFree = true)
    (hbody : packet.body = .payload p) (hlookup : e.channels.lookup p.realm = some i) :
    Views event e { e.note (.handled packet) with dhReader := .forward i p.data packets } := by
  obtain ⟨c, hc, hrealm⟩ := hregistry.registered p.realm i hlookup
  have hpresent : (track p.realm e.notes).present = true := by rw [hregistry.present, hlookup]; rfl
  have hchunks (realm : U32) : chunksFor realm (e.notes ++ [.handled packet]) =
      chunksFor realm e.notes ++ if p.realm = realm then [p.data] else [] := by
    unfold chunksFor payloadChunks
    rw [track_concat]
    simp only [Track.note, hbody]
    by_cases hr : p.realm = realm
    · rw [if_pos hr, if_pos ⟨hr, hr ▸ hpresent⟩, List.filterMap_append]
      simp only [List.filterMap_cons, hbody, List.filterMap_nil]
    · rw [if_neg hr, if_neg fun hboth => hr hboth.1, List.append_nil]
  refine ⟨fun j d hd => ⟨d, hd, rfl, rfl, ?_⟩, fun _ => rfl⟩
  generalize hafter : { e.note (.handled packet) with
    dhReader := DhReader.forward i p.data packets } = after
  have hnotes : after.notes = e.notes ++ [.handled packet] := by rw [← hafter]; rfl
  have hforward : after.dhReader = .forward i p.data packets := by rw [← hafter]
  have hchannels : after.channels = e.channels := by rw [← hafter]; rfl
  by_cases hij : i = j
  · subst hij
    obtain rfl : c = d := Option.some.inj (hc.symm.trans hd)
    have hsender : e.hasSender i = true := hasSender_iff.mpr (.inl ⟨p.realm, hlookup⟩)
    have hsender' : after.hasSender i = true :=
      hasSender_iff.mpr (.inr ⟨p.data, packets, hforward⟩)
    have hview : after.view i c = { e.view i c with
        chunks := (e.view i c).chunks ++ [p.data], held := some p.data } := by
      unfold Engine.view heldFor
      rw [hnotes, hchunks, if_pos hrealm.symm, hforward, hsender, hsender']
      simp only [if_true]
    rw [hview]
    exact .lookUp p.data hsender (heldFor_of_isFree hreader)
  · have hne : p.realm ≠ d.realm := fun hr => hij (index_inj hregistry.realms hc hd (hrealm.trans hr))
    have hview : after.view j d = { e.view j d with sender := after.hasSender j } := by
      unfold Engine.view
      rw [hnotes, hchunks, if_neg hne, List.append_nil, heldFor_of_isFree hreader, heldFor, hforward]
      simp only [if_neg hij]
    rw [hview]
    refine .idle _ fun hsender => ?_
    show e.hasSender j = true
    rw [hasSender_iff] at hsender ⊢
    rcases hsender with ⟨r, hlookup'⟩ | ⟨data, packets', hforward'⟩
    · exact .inl ⟨r, hchannels ▸ hlookup'⟩
    · rw [hforward] at hforward'
      cases hforward'
      exact absurd rfl hij

/-- The chunk goes from the hands of `dh_reader` into the channel of the connection. -/
theorem views_forward {data : Bytes} {packets : List PTCPPacket}
    (hreader : e.dhReader = .forward i data packets) :
    Views event e { e.forward i data with dhReader := .handle packets } := by
  refine ⟨fun j d hd => ?_, fun _ => List.length_modify ..⟩
  have hsender (h : { e.forward i data with dhReader := .handle packets }.hasSender j = true) :
      e.hasSender j = true := by
    rw [hasSender_of_isFree rfl] at h
    exact hasSender_iff.mpr (.inl h)
  have hheld : { e.forward i data with dhReader := .handle packets }.heldFor j = none :=
    heldFor_of_isFree rfl
  generalize hafter : { e.forward i data with dhReader := .handle packets } = after at hsender hheld ⊢
  have hclients : after.clients = e.clients.modify i (·.send data) := by rw [← hafter]; rfl
  have hnotes : after.notes = e.notes := by rw [← hafter]; rfl
  rw [hclients, List.getElem?_modify, hd]
  by_cases hij : i = j
  · subst hij
    refine ⟨d.send data, by simp, d.send_realm data, d.send_service data, ?_⟩
    have hwritten : (d.send data).written = d.written := by
      unfold Client.send
      split <;> rfl
    have hrx : (d.send data).rx = if d.writer.hasEnded then d.rx else d.rx ++ [data] := by
      unfold Client.send
      split
      · next hwriter => rw [hwriter]; rfl
      · next hwriter => rw [hwriter]; rfl
      · next hclosed hfailed =>
        cases hwriter : d.writer with
        | closed => exact absurd hwriter hclosed
        | failed => exact absurd hwriter hfailed
        | _ => rfl
    have hview : after.view i (d.send data) = { e.view i d with
        rx := if (e.view i d).writer.hasEnded then (e.view i d).rx else (e.view i d).rx ++ [data]
        held := none
        sender := after.hasSender i } := by
      unfold Engine.view
      rw [d.send_realm, d.send_writer, hwritten, hrx, hnotes, hheld]
    rw [hview]
    refine .forward data _ ?_
    show e.heldFor i = some data
    unfold heldFor
    rw [hreader]
    exact if_pos rfl
  · refine ⟨d, by simp [hij], rfl, rfl, ?_⟩
    have hview : after.view j d = { e.view j d with sender := after.hasSender j } := by
      unfold Engine.view
      rw [hnotes, hheld]
      unfold heldFor
      rw [hreader]
      simp only [if_neg hij]
    rw [hview]
    exact .idle _ hsender

theorem views_handlePacket {packet : PTCPPacket} {packets : List PTCPPacket}
    (hregistry : Registry base e) (hreader : e.dhReader.isFree = true) :
    Views event e (e.handlePacket packet packets) := by
  unfold Engine.handlePacket
  cases hbody : packet.body with
  | status realm status =>
    have hpackets : ∀ r (t : Track), (t.note r (.handled packet)).packets = t.packets := by
      intro r t
      simp only [Track.note, hbody]
      split <;> rfl
    have hpass : Shared e { e.note (.handled packet) with dhReader := .handle packets } :=
      shared_pass hreader fun r => hpackets r _
    dsimp only
    split
    · exact hpass.signalConn
    · split
      · refine Shared.views ⟨rfl, hpass.chunks, fun i => ?_, fun i h => ?_⟩
        · rw [heldFor_of_isFree hreader]
          rfl
        · rw [hasSender_of_isFree rfl] at h
          obtain ⟨r, hlookup⟩ := h
          exact (hasSender_of_isFree hreader).mpr ⟨r, (lookup_of_erase hlookup).2⟩
      · exact hpass.views
  | payload p =>
    dsimp only
    split
    · next i hlookup => exact views_lookUp hregistry hreader hbody hlookup
    · next hlookup =>
      refine Shared.views (shared_pass hreader fun realm => ?_)
      simp only [Track.note, hbody]
      have hnone : e.channels.lookup p.realm = none := hlookup
      refine congrArg Track.packets (if_neg fun hboth => ?_)
      rw [← hboth.1, hregistry.present, hnone] at hboth
      exact absurd hboth.2 (by decide)
  | _ =>
    refine Shared.views (shared_pass hreader fun realm => ?_)
    simp only [Track.note, hbody]

theorem views_dhReaderStep {now : Instant} (hregistry : Registry base e)
    (hstep : e.dhReaderStep now = some e') : Views event e e' := by
  cases hreader : e.dhReader with
  | reading =>
    simp only [Engine.dhReaderStep, hreader] at hstep
    cases hstep
  | acknowledge packets =>
    simp only [Engine.dhReaderStep, hreader] at hstep
    cases hstep
    exact Shared.views (.of_free rfl rfl (by rw [hreader]; rfl) rfl rfl)
  | handle packets =>
    have hfree : e.dhReader.isFree = true := by rw [hreader]; rfl
    cases packets with
    | nil =>
      simp only [Engine.dhReaderStep, hreader] at hstep
      cases hstep
      exact Shared.views (.of_free rfl rfl hfree rfl rfl)
    | cons packet packets =>
      simp only [Engine.dhReaderStep, hreader] at hstep
      cases hstep
      exact views_handlePacket hregistry hfree
  | forward i data packets =>
    simp only [Engine.dhReaderStep, hreader] at hstep
    cases hstep
    exact views_forward hreader
  | removeConn realm packets =>
    simp only [Engine.dhReaderStep, hreader] at hstep
    cases hstep
    have hshared : Shared e { e with dhReader := .closeOnvif realm packets } :=
      .of_free rfl rfl (by rw [hreader]; rfl) rfl rfl
    exact hshared.signalConn
  | closeOnvif realm packets =>
    simp only [Engine.dhReaderStep, hreader] at hstep
    cases hstep
    exact Shared.views (.of_free rfl rfl (by rw [hreader]; rfl) rfl rfl)

/-- What a step of the engine is for the connections that there are. -/
theorem step_views (hregistry : Registry base e) (hslots : Slots e)
    (hstep : step config e event = some e') : Views event e e' := by
  unfold Engine.step at hstep
  split at hstep
  · cases hstep
  cases event with
  | accept service realm => exact views_accept hstep
  | handleClient i localAddress =>
    obtain ⟨c, hc, htask⟩ := clientStep_eq_some hstep
    exact views_handleClient hslots hc htask
  | bindTimeout i =>
    obtain ⟨c, hc, htask⟩ := clientStep_eq_some hstep
    exact views_bindTimeout hc htask
  | clientRead i data =>
    obtain ⟨c, hc, htask⟩ := clientStep_eq_some hstep
    exact views_clientRead hc htask
  | clientClosed i =>
    obtain ⟨c, hc, htask⟩ := clientStep_eq_some hstep
    exact views_clientClosed hc htask
  | processReader i =>
    obtain ⟨c, hc, htask⟩ := clientStep_eq_some hstep
    exact views_processReader hc htask
  | processWriter i =>
    obtain ⟨c, hc, htask⟩ := clientStep_eq_some hstep
    exact views_processWriter hc htask
  | clientWrite i n =>
    obtain ⟨c, hc, htask⟩ := clientStep_eq_some hstep
    exact views_clientWrite hc htask
  | writeError i =>
    obtain ⟨c, hc, htask⟩ := clientStep_eq_some hstep
    exact views_writeError hc htask
  | heartbeat => exact views_enqueue hstep (shared_refl e).views
  | dhWriterRecv => exact views_dhWriterRecv hstep
  | dhWriterSend now => exact views_dhWriterSend hstep
  | receive now packet => exact views_receive hstep
  | dhReader now => exact views_dhReaderStep hregistry hstep
  | retransmit now =>
    cases hstep
    exact Shared.views (.of_same rfl rfl rfl rfl)
  | socketError =>
    cases hstep
    exact Shared.views (.of_same rfl rfl rfl rfl)

/-- What a new connection sees. -/
theorem view_of_new (hregistry : Registry base e) {service : Service} {realm : U32}
    (hstep : e.accept service realm = some e') :
    e'.view e.clients.length { realm, service } =
      { writer := .notSpawned, rx := [], written := [], chunks := [], held := none, sender := true } := by
  obtain ⟨hfresh, onvifSlots, heq⟩ := accept_eq_some hstep
  have hchannels : e'.channels = e.channels.insert realm e.clients.length := by rw [heq]
  have hnotes : e'.notes = e.notes ++ [.opened realm] := by rw [heq]
  have hreader : e'.dhReader = e.dhReader := by rw [heq]
  have hheld : e'.heldFor e.clients.length = none := by
    unfold heldFor
    rw [hreader]
    cases hforward : e.dhReader with
    | forward k data packets =>
      exact if_neg (Nat.ne_of_lt (hregistry.forwards k data packets hforward))
    | _ => rfl
  have hsender : e'.hasSender e.clients.length = true :=
    hasSender_iff.mpr (.inl ⟨realm, by rw [hchannels, AList.lookup_insert]⟩)
  have hchunks : chunksFor realm e'.notes = [] := by
    unfold chunksFor
    rw [hnotes, packets_of_quiet (packets_note_opened _ realm), hregistry.unknown realm hfresh]
    rfl
  unfold Engine.view
  rw [hchunks, hheld, hsender]

end Views

end DahuaBridge.Engine
