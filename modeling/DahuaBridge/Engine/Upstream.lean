import DahuaBridge.Engine.Step
import DahuaBridge.Ptcp.Receive

/-!
# From the clients to the camera

Every `process_reader`, every `handle_client` and the heartbeats put their events into one
queue, and `dh_writer` sends them, with acknowledgements of `dh_reader` in between. What is
sent for the realm of an RTSP client is a bind, then the bytes that the client has sent, cut
into payloads, then at most one `DISC`.

* `clientStream`: the bodies of such a realm.
* `Outbound`: what was sent, in stream order.
* `Mux`: the invariant. The bodies that were sent or are in the queue for the realm of a
  client go with the points where its two tasks are.
* `client_stream_wellFormed`: the property of every run.
-/

namespace DahuaBridge.Engine

open Tiling

/-! ## The bodies of a realm -/

/-- The realm that a body is about. -/
def realmOf : PTCPBody → Option U32
  | .payload p => some p.realm
  | .bind realm _ => some realm
  | .status realm _ => some realm
  | _ => none

def bodiesFor (realm : U32) (bodies : List PTCPBody) : List PTCPBody :=
  bodies.filter fun body => realmOf body = some realm

theorem bodiesFor_append (realm : U32) (bodies bodies' : List PTCPBody) :
    bodiesFor realm (bodies ++ bodies') = bodiesFor realm bodies ++ bodiesFor realm bodies' :=
  List.filter_append ..

theorem bodiesFor_singleton {realm : U32} {body : PTCPBody} (h : realmOf body = some realm) :
    bodiesFor realm [body] = [body] := List.filter_cons_of_pos (decide_eq_true h)

theorem bodiesFor_singleton_ne {realm : U32} {body : PTCPBody} (h : realmOf body ≠ some realm) :
    bodiesFor realm [body] = [] :=
  List.filter_cons_of_neg fun heq => h (of_decide_eq_true heq)

/-- A bind, the chunks that were read, and `DISC` when there is no more to read. -/
def clientStream (realm port : U32) (chunks : List Bytes) (ended : Bool) : List PTCPBody :=
  .bind realm port :: chunks.map (fun data => .payload { realm, data }) ++
    if ended then [.status realm "DISC"] else []

/-- The data of the payloads among some bodies. -/
def dataOf (bodies : List PTCPBody) : Bytes :=
  bodies.flatMap fun
    | .payload p => p.data
    | _ => []

theorem dataOf_payloads (realm : U32) (chunks : List Bytes) :
    dataOf (chunks.map fun data => .payload { realm, data }) = chunks.flatten := by
  unfold dataOf
  rw [List.flatMap_map]
  exact List.flatMap_id'

/-- What has gone out of the stream of a client is such a stream, and the rest of the chunks
is in what has not. -/
theorem clientStream_split {realm port : U32} {chunks : List Bytes} {ended : Bool}
    {bodies bodies' : List PTCPBody} (h : bodies ++ bodies' = clientStream realm port chunks ended)
    (hne : bodies ≠ []) : ∃ gone left ended', chunks = gone ++ left ∧
      bodies = clientStream realm port gone ended' ∧ dataOf bodies' = left.flatten := by
  cases bodies with
  | nil => exact absurd rfl hne
  | cons body bodies =>
    rw [clientStream, List.cons_append, List.cons_append, List.cons.injEq] at h
    obtain ⟨rfl, h⟩ := h
    rcases List.append_eq_append_iff.mp h with ⟨rest, hchunks, htail⟩ | ⟨last, hbodies, htail⟩
    · -- the stream is cut within the payloads
      obtain ⟨gone, left, rfl, hgone, rfl⟩ := List.map_eq_append_iff.mp hchunks
      refine ⟨gone, left, false, rfl, ?_, ?_⟩
      · rw [clientStream, hgone]
        exact (List.append_nil _).symm
      · rw [htail]
        unfold dataOf
        rw [List.flatMap_append]
        have hend : dataOf (if ended then [PTCPBody.status realm "DISC"] else []) = [] := by
          cases ended <;> rfl
        exact (congrArg₂ _ (dataOf_payloads realm left) hend).trans (List.append_nil _)
    · -- or after them
      cases last with
      | nil =>
        refine ⟨chunks, [], false, (List.append_nil _).symm, ?_, ?_⟩
        · rw [clientStream, hbodies]
          rfl
        · rw [← List.nil_append bodies', ← htail]
          cases ended <;> rfl
      | cons body last =>
        cases ended with
        | false => cases htail
        | true =>
          rw [if_pos rfl, List.cons_append, List.cons.injEq] at htail
          obtain ⟨rfl, hnil⟩ := htail
          obtain ⟨rfl, rfl⟩ := List.append_eq_nil_iff.mp hnil.symm
          refine ⟨chunks, [], true, (List.append_nil _).symm, ?_, rfl⟩
          rw [clientStream, hbodies]
          rfl

/-! ## The invariant -/

/-- The bodies that `dh_writer` has yet to send. -/
def queued (e : Engine) : List PTCPBody :=
  (e.dhWriter.toList ++ e.dhQueue).map PTCPEvent.body

def sentBodies (e : Engine) : List PTCPBody := e.sent.map PTCPPacket.body

/-- The bodies for a realm, sent or not. -/
def outgoing (e : Engine) (realm : U32) : List PTCPBody :=
  bodiesFor realm (e.sentBodies ++ e.queued)

/-- What was read and is not in the queue yet. -/
def ProcessReader.held : ProcessReader → Bytes
  | .sendData data => data
  | _ => []

/-- `Disconnect` is in the queue. -/
def ProcessReader.ended : ProcessReader → Bool
  | .removeChannel => true
  | .done => true
  | _ => false

/-- `Connect` is not in the queue yet. -/
def HandleClient.unbound : HandleClient → Bool
  | .insertConn => true
  | .sendConnect => true
  | _ => false

/-- The bodies for the realm of an RTSP client go with where its tasks are. -/
structure Client.Upload (port : U32) (c : Client) (bodies : List PTCPBody) : Prop where
  spawned : c.handler ≠ .done → c.reader = .notSpawned
  unbound : c.handler.unbound = true → bodies = [] ∧ c.readBytes = []
  bound : c.handler.unbound = false → ∃ chunks,
    bodies = clientStream c.realm port chunks c.reader.ended ∧
    (∀ data ∈ chunks, 1 ≤ data.length ∧ data.length ≤ 4096) ∧
    chunks.flatten ++ c.reader.held = c.readBytes
  small : ∀ data, c.reader = .sendData data → 1 ≤ data.length ∧ data.length ≤ 4096

/-- The packets sent are a part of the stream, and the next one goes on from there. -/
structure Outbound (base : U32) (sent : List PTCPPacket) (session : PTCPSession) : Prop where
  tiles : Tiles PTCPPacket.sent PTCPPacket.bodyLen base sent
  next : session.sent = base + SeqNum.wrap 32 (total PTCPPacket.bodyLen sent)

structure Mux (config : Config) (base : U32) (e : Engine) : Prop where
  realms : (e.clients.map Client.realm).Nodup
  outbound : Outbound base e.sent e.session
  unknown : ∀ realm, (∀ c ∈ e.clients, c.realm ≠ realm) → e.outgoing realm = []
  upload : ∀ (i : Nat) (c : Client), e.clients[i]? = some c → c.service = .rtsp →
    c.Upload config.remotePort (e.outgoing c.realm)

section Mux

variable {config : Config} {base : U32} {e e' : Engine} {i j : Nat} {c c' : Client}

theorem mux_start (session : PTCPSession) : Mux config session.sent (start session) where
  realms := List.nodup_nil
  outbound := ⟨trivial, (BitVec.add_zero _).symm⟩
  unknown _ _ := rfl
  upload i c h := by
    rw [start, List.getElem?_nil] at h
    cases h

theorem Outbound.send {sent : List PTCPPacket} {session : PTCPSession} {now : Instant}
    {body : PTCPBody} (h : Outbound base sent session) :
    Outbound base (sent ++ [(session.send now body).1]) (session.send now body).2 where
  tiles := tiles_append.mpr ⟨h.tiles, h.next, trivial⟩
  next := by
    show session.sent + lengthU32 body.len = _
    rw [total_append, SeqNum.wrap_add, h.next, BitVec.add_assoc]
    rfl

theorem Outbound.sendBody {now : Instant} {body : PTCPBody} (h : Outbound base e.sent e.session) :
    Outbound base (e.sendBody now body).sent (e.sendBody now body).session := h.send

theorem Outbound.of_sent {sent : List PTCPPacket} {session session' : PTCPSession}
    (h : Outbound base sent session) (hsent : session'.sent = session.sent) :
    Outbound base sent session' := ⟨h.tiles, hsent.trans h.next⟩

/-- What matters here of a client. -/
def Client.uplink (c : Client) : (U32 × Service) × HandleClient × ProcessReader × Bytes :=
  ((c.realm, c.service), c.handler, c.reader, c.readBytes)

theorem Client.Upload.of_uplink {port : U32} {bodies : List PTCPBody} (h : c.Upload port bodies)
    (huplink : c'.uplink = c.uplink) : c'.Upload port bodies := by
  unfold Client.uplink at huplink
  simp only [Prod.mk.injEq] at huplink
  obtain ⟨⟨hrealm, _⟩, hhandler, hreader, hread⟩ := huplink
  refine ⟨?_, ?_, ?_, ?_⟩
  · rw [hhandler, hreader]
    exact h.spawned
  · rw [hhandler, hread]
    exact h.unbound
  · rw [hhandler, hread, hrealm, hreader]
    exact h.bound
  · rw [hreader]
    exact h.small

/-- A step that leaves alone what matters here. -/
theorem Mux.of_same (h : Mux config base e)
    (hclients : e'.clients.map Client.uplink = e.clients.map Client.uplink)
    (hout : ∀ realm, e'.outgoing realm = e.outgoing realm)
    (houtbound : Outbound base e'.sent e'.session) : Mux config base e' := by
  have hrealms : e'.clients.map Client.realm = e.clients.map Client.realm := by
    have hmap := congrArg (List.map fun u => u.1.1) hclients
    rw [List.map_map, List.map_map] at hmap
    exact hmap
  refine ⟨hrealms ▸ h.realms, houtbound, fun realm hnone => ?_, fun i c' hc' hservice => ?_⟩
  · rw [hout]
    refine h.unknown realm fun c hc hrealm => ?_
    have hmem : realm ∈ e'.clients.map Client.realm := by
      rw [hrealms]
      exact hrealm ▸ List.mem_map_of_mem hc
    obtain ⟨c', hc', hrealm'⟩ := List.mem_map.mp hmem
    exact hnone c' hc' hrealm'
  · have huplinks := congrArg (fun l => l[i]?) hclients
    simp only [List.getElem?_map, hc', Option.map_some] at huplinks
    obtain ⟨c, hc, huplink⟩ := Option.map_eq_some_iff.mp huplinks.symm
    have hboth : c'.realm = c.realm ∧ c'.service = c.service := by
      unfold Client.uplink at huplink
      simp only [Prod.mk.injEq] at huplink
      exact ⟨huplink.1.1.symm, huplink.1.2.symm⟩
    rw [hout, hboth.1]
    exact (h.upload i c hc (hboth.2 ▸ hservice)).of_uplink huplink.symm

/-- A step of the session that sends nothing. -/
theorem Mux.of_quiet (h : Mux config base e)
    (hclients : e'.clients.map Client.uplink = e.clients.map Client.uplink)
    (hsent : e'.sent = e.sent) (hwriter : e'.dhWriter = e.dhWriter) (hqueue : e'.dhQueue = e.dhQueue)
    (hsession : e'.session.sent = e.session.sent) : Mux config base e' := by
  refine h.of_same hclients (fun realm => ?_) ?_
  · unfold outgoing sentBodies queued
    rw [hsent, hwriter, hqueue]
  · rw [hsent]
    exact h.outbound.of_sent hsession

/-- A step of one client that puts nothing into the queue. -/
theorem Mux.setClient (h : Mux config base e) (hc : e.clients[i]? = some c)
    (hrealm : c'.realm = c.realm) (hservice : c'.service = c.service)
    (hupload : ∀ bodies, c.Upload config.remotePort bodies → c.service = .rtsp →
      c'.Upload config.remotePort bodies) : Mux config base (e.setClient i c') where
  realms := by rw [map_setClient hc hrealm]; exact h.realms
  outbound := h.outbound
  unknown realm hnone := by
    refine h.unknown realm fun d hd hdrealm => ?_
    have hmem : realm ∈ (e.setClient i c').clients.map Client.realm := by
      rw [map_setClient hc hrealm]
      exact hdrealm ▸ List.mem_map_of_mem hd
    obtain ⟨d', hd', hdrealm'⟩ := List.mem_map.mp hmem
    exact hnone d' hd' hdrealm'
  upload j d hd hrtsp := by
    rw [getElem?_setClient hc] at hd
    split at hd
    · next hij =>
      obtain rfl := Option.some.inj hd
      have hrtsp : c.service = .rtsp := hservice ▸ hrtsp
      rw [hrealm]
      exact hupload _ (h.upload i c hc hrtsp) hrtsp
    · exact h.upload j d hd hrtsp

/-! ## The queue -/

theorem outgoing_of_queued {bodies : List PTCPBody} {realm : U32} (hsent : e'.sent = e.sent)
    (hqueued : e'.queued = e.queued ++ bodies) :
    e'.outgoing realm = e.outgoing realm ++ bodiesFor realm bodies := by
  unfold outgoing sentBodies
  rw [hsent, hqueued, ← List.append_assoc, bodiesFor_append]

theorem queued_enqueue {event : PTCPEvent} (h : e.enqueue event = some e') :
    e'.queued = e.queued ++ [event.body] := by
  rw [enqueue_eq_some h]
  unfold queued
  rw [← List.append_assoc, List.map_append, List.map_singleton]

/-- A task of a client puts an event for its realm into the queue. -/
theorem Mux.put {event : PTCPEvent} (h : Mux config base e) (hc : e.clients[i]? = some c)
    (hrealm : c'.realm = c.realm) (hservice : c'.service = c.service)
    (hevent : realmOf event.body = some c.realm)
    (hupload : ∀ bodies, c.Upload config.remotePort bodies → c.service = .rtsp →
      c'.Upload config.remotePort (bodies ++ [event.body]))
    (hstep : (e.setClient i c').enqueue event = some e') : Mux config base e' := by
  have hclients : e'.clients = (e.setClient i c').clients := by rw [enqueue_eq_some hstep]
  have hsent : e'.sent = (e.setClient i c').sent := by rw [enqueue_eq_some hstep]
  have hsession : e'.session = (e.setClient i c').session := by rw [enqueue_eq_some hstep]
  have hout (realm : U32) : e'.outgoing realm = e.outgoing realm ++ bodiesFor realm [event.body] :=
    outgoing_of_queued (e := e.setClient i c') hsent (queued_enqueue hstep)
  have hrealms : e'.clients.map Client.realm = e.clients.map Client.realm := by
    rw [hclients, map_setClient hc hrealm]
  have hown : c.realm ∈ e.clients.map Client.realm :=
    List.mem_map_of_mem (List.mem_of_getElem? hc)
  refine ⟨hrealms ▸ h.realms, ?_, fun realm hnone => ?_, fun j d hd hrtsp => ?_⟩
  · rw [hsent, hsession]
    exact h.outbound
  · have hnone' : realm ∉ e.clients.map Client.realm := by
      rw [← hrealms]
      intro hmem
      obtain ⟨d, hd, hdrealm⟩ := List.mem_map.mp hmem
      exact hnone d hd hdrealm
    have hne : realmOf event.body ≠ some realm := by
      rw [hevent]
      exact fun heq => hnone' (Option.some.inj heq ▸ hown)
    rw [hout, bodiesFor_singleton_ne hne, List.append_nil]
    exact h.unknown realm fun d hd hdrealm => hnone' (hdrealm ▸ List.mem_map_of_mem hd)
  · rw [hclients, getElem?_setClient hc] at hd
    split at hd
    · obtain rfl := Option.some.inj hd
      rw [hrealm, hout, bodiesFor_singleton hevent]
      have hrtsp : c.service = .rtsp := hservice ▸ hrtsp
      exact hupload _ (h.upload i c hc hrtsp) hrtsp
    · next hij =>
      have hne : realmOf event.body ≠ some d.realm := by
        rw [hevent]
        exact fun heq => hij (index_inj h.realms hc hd (Option.some.inj heq))
      rw [hout, bodiesFor_singleton_ne hne, List.append_nil]
      exact h.upload j d hd hrtsp

/-- An event that is about no realm. -/
theorem Mux.enqueue {event : PTCPEvent} (h : Mux config base e) (hevent : realmOf event.body = none)
    (hstep : e.enqueue event = some e') : Mux config base e' := by
  have hclients : e'.clients = e.clients := by rw [enqueue_eq_some hstep]
  have hsent : e'.sent = e.sent := by rw [enqueue_eq_some hstep]
  have hsession : e'.session = e.session := by rw [enqueue_eq_some hstep]
  refine h.of_same (by rw [hclients]) (fun realm => ?_) ?_
  · have hne : realmOf event.body ≠ some realm := by
      rw [hevent]
      exact fun heq => by cases heq
    rw [outgoing_of_queued hsent (queued_enqueue hstep), bodiesFor_singleton_ne hne, List.append_nil]
  · rw [hsent, hsession]
    exact h.outbound

theorem Mux.dhWriterRecv (h : Mux config base e) (hstep : e.dhWriterRecv = some e') :
    Mux config base e' := by
  unfold Engine.dhWriterRecv at hstep
  split at hstep
  · next event dhQueue hwriter hqueue =>
    cases hstep
    refine h.of_same rfl (fun realm => ?_) h.outbound
    unfold outgoing queued
    rw [hwriter, hqueue]
    rfl
  · cases hstep

/-- What was in the hands of `dh_writer` is sent. -/
theorem Mux.dhWriterSend {now : Instant} (h : Mux config base e)
    (hstep : e.dhWriterSend now = some e') : Mux config base e' := by
  unfold Engine.dhWriterSend at hstep
  split at hstep
  · next event hwriter =>
    cases hstep
    refine h.of_same rfl (fun realm => ?_) h.outbound.send
    show bodiesFor realm ((e.sent ++ [_]).map PTCPPacket.body ++ e.dhQueue.map PTCPEvent.body) = _
    unfold outgoing sentBodies queued
    rw [hwriter, List.map_append, List.append_assoc]
    rfl
  · cases hstep

/-- An acknowledgement takes no place in the stream of a realm. -/
theorem Mux.acknowledge {now : Instant} (h : Mux config base e) :
    Mux config base (e.sendBody now .empty) := by
  refine h.of_same rfl (fun realm => ?_) h.outbound.sendBody
  have hnothing : bodiesFor realm [PTCPBody.empty] = [] :=
    bodiesFor_singleton_ne fun heq => by cases heq
  have hbodies : (e.sendBody now .empty).sentBodies = e.sentBodies ++ [.empty] := List.map_append
  have hqueued : (e.sendBody now .empty).queued = e.queued := rfl
  unfold outgoing
  rw [hbodies, hqueued, bodiesFor_append, bodiesFor_append, hnothing, List.append_nil,
    bodiesFor_append]

/-! ## The steps -/

theorem Mux.accept {service : Service} {realm : U32} (h : Mux config base e)
    (hstep : e.accept service realm = some e') : Mux config base e' := by
  obtain ⟨hfresh, onvifSlots, rfl⟩ := accept_eq_some hstep
  refine ⟨nodup_realms_concat h.realms hfresh, h.outbound, fun r hnone => ?_, fun i c hc hrtsp => ?_⟩
  · exact h.unknown r fun c hc => hnone c (List.mem_append_left _ hc)
  · rcases getElem?_concat_cases hc with ⟨_, hold⟩ | ⟨rfl, rfl⟩
    · exact h.upload i c hold hrtsp
    · -- nothing has been sent for the new realm
      refine ⟨fun _ => rfl, fun _ => ⟨h.unknown realm hfresh, rfl⟩, fun hbound => ?_, ?_⟩
      · cases hbound
      · intro data hreader
        cases hreader

/-- A step of `handle_client` that neither binds the realm nor ends. -/
theorem Client.Upload.setHandler {port : U32} {bodies : List PTCPBody} (h : c.Upload port bodies)
    (hbefore : c.handler ≠ .done) (hunbound : c'.handler.unbound = c.handler.unbound)
    (hrealm : c'.realm = c.realm) (hreader : c'.reader = c.reader)
    (hread : c'.readBytes = c.readBytes) : c'.Upload port bodies := by
  refine ⟨fun _ => hreader.trans (h.spawned hbefore), ?_, ?_, ?_⟩
  · rw [hunbound, hread]
    exact h.unbound
  · rw [hunbound, hrealm, hreader, hread]
    exact h.bound
  · rw [hreader]
    exact h.small

theorem Mux.setHandler (h : Mux config base e) (hc : e.clients[i]? = some c)
    (hbefore : c.handler ≠ .done) (hunbound : c'.handler.unbound = c.handler.unbound)
    (hrealm : c'.realm = c.realm) (hservice : c'.service = c.service)
    (hreader : c'.reader = c.reader) (hread : c'.readBytes = c.readBytes) :
    Mux config base (e.setClient i c') :=
  h.setClient hc hrealm hservice fun _ hupload _ =>
    hupload.setHandler hbefore hunbound hrealm hreader hread

theorem Mux.handleClient {localAddress : Option HttpRewriteConfig} (h : Mux config base e)
    (hc : e.clients[i]? = some c) (hstep : handleClient config e i localAddress c = some e') :
    Mux config base e' := by
  cases hhandler : c.handler with
  | insertConn =>
    simp only [Engine.handleClient, hhandler] at hstep
    cases hstep
    have hsame : Mux config base { e with connChannels := e.connChannels.insert c.realm i } :=
      h.of_quiet rfl rfl rfl rfl rfl
    refine hsame.setHandler hc ?_ ?_ rfl rfl rfl rfl
    · rw [hhandler]
      decide
    · rw [hhandler]
      rfl
  | sendConnect =>
    simp only [Engine.handleClient, hhandler] at hstep
    refine h.put hc ?_ ?_ ?_ (fun bodies hupload hrtsp => ?_) hstep
    · rfl
    · rfl
    · rfl
    have hspawned := hupload.spawned (by rw [hhandler]; exact fun heq => by cases heq)
    obtain ⟨rfl, hread⟩ := hupload.unbound (by rw [hhandler]; rfl)
    refine ⟨fun _ => hspawned, fun hunbound => (by cases hunbound), fun _ => ⟨[], ?_, ?_, ?_⟩,
      hupload.small⟩
    · rw [hrtsp]
      show _ = clientStream c.realm _ [] c.reader.ended
      rw [hspawned]
      rfl
    · intro data hdata
      cases hdata
    · show [] ++ c.reader.held = c.readBytes
      rw [hspawned, hread]
      rfl
  | waitConn =>
    cases hconn : c.conn with
    | waiting =>
      simp only [Engine.handleClient, hhandler, hconn] at hstep
      cases hstep
    | dropped =>
      simp only [Engine.handleClient, hhandler, hconn] at hstep
      cases hstep
      refine h.setHandler hc ?_ ?_ rfl rfl rfl rfl
      · rw [hhandler]
        decide
      · rw [hhandler]
        rfl
    | connected =>
      simp only [Engine.handleClient, hhandler, hconn] at hstep
      cases hstep
      have hsame (onvifRealm : Option U32) : Mux config base { e with onvifRealm } :=
        h.of_quiet rfl rfl rfl rfl rfl
      refine Mux.setClient (hsame _) hc ?_ ?_ fun bodies hupload _ => ?_
      · rfl
      · rfl
      -- the reader starts
      have hspawned := hupload.spawned (by rw [hhandler]; exact fun heq => by cases heq)
      obtain ⟨chunks, hbodies, hsmall, hread⟩ := hupload.bound (by rw [hhandler]; rfl)
      rw [hspawned] at hbodies hread
      refine ⟨fun hdone => absurd rfl hdone, fun hunbound => (by cases hunbound),
        fun _ => ⟨chunks, hbodies, hsmall, hread⟩, ?_⟩
      intro data hreader
      cases hreader
  | removeChannel =>
    simp only [Engine.handleClient, hhandler] at hstep
    cases hstep
    have hsame : Mux config base (e.removeChannel c.realm) := h.of_quiet rfl rfl rfl rfl rfl
    refine hsame.setHandler hc ?_ ?_ rfl rfl rfl rfl
    · rw [hhandler]
      decide
    · rw [hhandler]
      rfl
  | removeConn =>
    simp only [Engine.handleClient, hhandler] at hstep
    cases hstep
    have hsame : Mux config base { e with connChannels := e.connChannels.erase c.realm } :=
      h.of_quiet rfl rfl rfl rfl rfl
    refine hsame.setHandler hc ?_ ?_ rfl rfl rfl rfl
    · rw [hhandler]
      decide
    · rw [hhandler]
      rfl
  | exit =>
    simp only [Engine.handleClient, hhandler] at hstep
    cases hstep
    exact h.of_quiet rfl rfl rfl rfl rfl
  | done =>
    simp only [Engine.handleClient, hhandler] at hstep
    cases hstep

theorem Mux.bindTimeout (h : Mux config base e) (hc : e.clients[i]? = some c)
    (hstep : e.bindTimeout i c = some e') : Mux config base e' := by
  unfold Engine.bindTimeout at hstep
  split at hstep
  · next hwaiting =>
    cases hstep
    refine h.setHandler hc ?_ ?_ rfl rfl rfl rfl
    · rw [hwaiting.1]
      decide
    · rw [hwaiting.1]
      rfl
  · cases hstep

/-- A reader that has been spawned belongs to a handler that is done. -/
theorem Client.Upload.bound_of_reader {port : U32} {bodies : List PTCPBody}
    (h : c.Upload port bodies) (hreader : c.reader ≠ .notSpawned) :
    c.handler = .done ∧ ∃ chunks, bodies = clientStream c.realm port chunks c.reader.ended ∧
      (∀ data ∈ chunks, 1 ≤ data.length ∧ data.length ≤ 4096) ∧
      chunks.flatten ++ c.reader.held = c.readBytes := by
  have hdone : c.handler = .done := by
    by_contra hnot
    exact hreader (h.spawned hnot)
  exact ⟨hdone, h.bound (by rw [hdone]; rfl)⟩

theorem Client.Upload.of_done {port : U32} {bodies : List PTCPBody} (hdone : c.handler = .done)
    (hbound : ∃ chunks, bodies = clientStream c.realm port chunks c.reader.ended ∧
      (∀ data ∈ chunks, 1 ≤ data.length ∧ data.length ≤ 4096) ∧
      chunks.flatten ++ c.reader.held = c.readBytes)
    (hsmall : ∀ data, c.reader = .sendData data → 1 ≤ data.length ∧ data.length ≤ 4096) :
    c.Upload port bodies := by
  refine ⟨fun hnot => absurd hdone hnot, fun hunbound => ?_, fun _ => hbound, hsmall⟩
  rw [hdone] at hunbound
  cases hunbound

theorem Mux.clientRead {data : Bytes} (h : Mux config base e) (hc : e.clients[i]? = some c)
    (hstep : e.clientRead i data c = some e') : Mux config base e' := by
  unfold Engine.clientRead at hstep
  split at hstep
  · next hread =>
    cases hstep
    refine h.setClient hc rfl rfl fun bodies hupload _ => ?_
    obtain ⟨hdone, chunks, hbodies, hsmall, hall⟩ :=
      hupload.bound_of_reader (by rw [hread.1]; exact fun heq => by cases heq)
    rw [hread.1] at hbodies hall
    refine Client.Upload.of_done hdone ⟨chunks, hbodies, hsmall, ?_⟩ ?_
    · show chunks.flatten ++ data = c.readBytes ++ data
      rw [← hall]
      exact congrArg (· ++ data) (List.append_nil _).symm
    · intro data' hreader
      cases hreader
      exact hread.2
  · cases hstep

theorem Mux.clientClosed (h : Mux config base e) (hc : e.clients[i]? = some c)
    (hstep : e.clientClosed i c = some e') : Mux config base e' := by
  unfold Engine.clientClosed at hstep
  split at hstep
  · next hreading =>
    cases hstep
    refine h.setClient hc rfl rfl fun bodies hupload hrtsp => ?_
    obtain ⟨hdone, chunks, hbodies, hsmall, hall⟩ :=
      hupload.bound_of_reader (by rw [hreading]; exact fun heq => by cases heq)
    rw [hreading] at hbodies hall
    rw [if_pos hrtsp]
    refine Client.Upload.of_done hdone ⟨chunks, hbodies, hsmall, hall⟩ fun data hreader => ?_
    cases hreader
  · cases hstep

theorem Mux.processReader (h : Mux config base e) (hc : e.clients[i]? = some c)
    (hstep : e.processReader i c = some e') : Mux config base e' := by
  cases hreader : c.reader with
  | sendData data =>
    simp only [Engine.processReader, hreader] at hstep
    refine h.put hc ?_ ?_ ?_ (fun bodies hupload _ => ?_) hstep
    · rfl
    · rfl
    · rfl
    obtain ⟨hdone, chunks, rfl, hsmall, hall⟩ :=
      hupload.bound_of_reader (by rw [hreader]; exact fun heq => by cases heq)
    rw [hreader] at hall
    refine Client.Upload.of_done hdone ⟨chunks ++ [data], ?_, ?_, ?_⟩ fun data hreader => ?_
    · rw [hreader]
      show clientStream c.realm _ chunks false ++ [_] = clientStream c.realm _ (chunks ++ [data]) false
      simp only [clientStream, List.map_append, List.map_singleton, Bool.false_eq_true, if_false,
        List.append_nil, List.cons_append]
      rfl
    · intro data' hdata'
      rcases List.mem_append.mp hdata' with hold | hnew
      · exact hsmall data' hold
      · rw [List.mem_singleton.mp hnew]
        exact hupload.small data hreader
    · show (chunks ++ [data]).flatten ++ [] = c.readBytes
      rw [← hall, List.flatten_append, List.flatten_singleton, List.append_nil]
      rfl
    · cases hreader
  | sendDisconnect =>
    simp only [Engine.processReader, hreader] at hstep
    refine h.put hc ?_ ?_ ?_ (fun bodies hupload _ => ?_) hstep
    · rfl
    · rfl
    · rfl
    obtain ⟨hdone, chunks, rfl, hsmall, hall⟩ :=
      hupload.bound_of_reader (by rw [hreader]; exact fun heq => by cases heq)
    rw [hreader] at hall
    refine Client.Upload.of_done hdone ⟨chunks, ?_, hsmall, hall⟩ fun data hreader => ?_
    · rw [hreader]
      show clientStream c.realm _ chunks false ++ [_] = clientStream c.realm _ chunks true
      simp only [clientStream, Bool.false_eq_true, if_false, if_true, List.append_nil,
        List.cons_append]
      rfl
    · cases hreader
  | removeChannel =>
    simp only [Engine.processReader, hreader] at hstep
    cases hstep
    have hsame : Mux config base (e.removeChannel c.realm) := h.of_quiet rfl rfl rfl rfl rfl
    refine hsame.setClient hc rfl rfl fun bodies hupload _ => ?_
    obtain ⟨hdone, hbound⟩ :=
      hupload.bound_of_reader (by rw [hreader]; exact fun heq => by cases heq)
    rw [hreader] at hbound
    refine Client.Upload.of_done hdone hbound fun data hreader => ?_
    cases hreader
  | _ =>
    simp only [Engine.processReader, hreader] at hstep
    cases hstep

/-- A step of a client that has nothing to do with what it sends. -/
theorem Mux.setSame (h : Mux config base e) (hc : e.clients[i]? = some c)
    (huplink : c'.uplink = c.uplink) : Mux config base (e.setClient i c') :=
  h.of_quiet (map_setClient hc huplink) rfl rfl rfl rfl

theorem Mux.releasePermit (h : Mux config base e) : Mux config base (e.releasePermit c) := by
  unfold Engine.releasePermit
  split
  · exact h.of_quiet rfl rfl rfl rfl rfl
  · exact h

theorem Mux.processWriter (h : Mux config base e) (hc : e.clients[i]? = some c)
    (hstep : e.processWriter i c = some e') : Mux config base e' := by
  cases hwriter : c.writer with
  | receiving =>
    cases hrx : c.rx with
    | cons data rx =>
      simp only [Engine.processWriter, hwriter, hrx] at hstep
      cases hstep
      exact h.setSame hc rfl
    | nil =>
      simp only [Engine.processWriter, hwriter, hrx] at hstep
      split at hstep
      · cases hstep
      · cases hstep
        have hclients : (e.releasePermit c).clients[i]? = some c := by rw [clients_releasePermit, hc]
        exact h.releasePermit.setSame hclients rfl
  | collecting config response =>
    cases hrx : c.rx with
    | cons data rx =>
      simp only [Engine.processWriter, hwriter, hrx] at hstep
      cases hstep
      exact h.setSame hc rfl
    | nil =>
      simp only [Engine.processWriter, hwriter, hrx] at hstep
      split at hstep
      · cases hstep
      · cases hstep
        exact h.setSame hc rfl
  | removeChannel =>
    simp only [Engine.processWriter, hwriter] at hstep
    cases hstep
    have hsame : Mux config base (e.removeChannel c.realm) := h.of_quiet rfl rfl rfl rfl rfl
    have hclients : ((e.removeChannel c.realm).releasePermit c).clients[i]? = some c := by
      rw [clients_releasePermit]
      exact hc
    exact hsame.releasePermit.setSame hclients rfl
  | _ =>
    simp only [Engine.processWriter, hwriter] at hstep
    cases hstep

theorem Mux.clientWrite {n : Nat} (h : Mux config base e) (hc : e.clients[i]? = some c)
    (hstep : e.clientWrite i n c = some e') : Mux config base e' := by
  unfold Engine.clientWrite at hstep
  split at hstep
  · split at hstep
    · cases hstep
      exact h.setSame hc rfl
    · cases hstep
  · split at hstep
    · cases hstep
      exact h.setSame hc rfl
    · cases hstep
  · cases hstep

theorem Mux.writeError (h : Mux config base e) (hc : e.clients[i]? = some c)
    (hstep : e.writeError i c = some e') : Mux config base e' := by
  unfold Engine.writeError at hstep
  split at hstep
  · cases hstep
    have hclients : (e.releasePermit c).clients[i]? = some c := by rw [clients_releasePermit, hc]
    exact h.releasePermit.setSame hclients rfl
  · cases hstep
    exact h.setSame hc rfl
  · cases hstep

theorem Mux.receive {now : Instant} {packet : PTCPPacket} (h : Mux config base e)
    (hstep : receive config e now packet = some e') : Mux config base e' := by
  unfold Engine.receive at hstep
  split at hstep
  · cases hstep
    exact h.of_quiet rfl rfl rfl rfl (PTCPSession.recvPacket_sameSender (Prod.eta _).symm).sent
  · cases hstep

theorem map_uplink_modify {f : Client → Client} (hf : ∀ c, (f c).uplink = c.uplink) :
    (e.clients.modify i f).map Client.uplink = e.clients.map Client.uplink := by
  cases hc : e.clients[i]? with
  | none => rw [List.modify_eq_self (List.getElem?_eq_none_iff.mp hc)]
  | some c =>
    rw [modify_eq_set_of_getElem? hc]
    exact map_setClient hc (hf c)

theorem Mux.signalConn {realm : U32} {conn : ConnResult} (h : Mux config base e) :
    Mux config base (e.signalConn realm conn) := by
  unfold Engine.signalConn
  split
  · exact h.of_quiet (map_uplink_modify fun _ => rfl) rfl rfl rfl rfl
  · exact h

/-- `dh_reader` sends nothing but acknowledgements. -/
theorem Mux.handlePacket {packet : PTCPPacket} {packets : List PTCPPacket} (h : Mux config base e) :
    Mux config base (e.handlePacket packet packets) := by
  have hnote : Mux config base (e.note (.handled packet)) := h.of_quiet rfl rfl rfl rfl rfl
  unfold Engine.handlePacket
  split
  · split
    · exact hnote.signalConn.of_quiet rfl rfl rfl rfl rfl
    · split
      · exact hnote.of_quiet rfl rfl rfl rfl rfl
      · exact hnote.of_quiet rfl rfl rfl rfl rfl
  · dsimp only
    split
    · exact hnote.of_quiet rfl rfl rfl rfl rfl
    · exact hnote.of_quiet rfl rfl rfl rfl rfl
  · exact hnote.of_quiet rfl rfl rfl rfl rfl

theorem Client.send_uplink (c : Client) (data : Bytes) : (c.send data).uplink = c.uplink := by
  unfold Client.send
  split <;> rfl

theorem Mux.dhReaderStep {now : Instant} (h : Mux config base e) (hstep : e.dhReaderStep now = some e') :
    Mux config base e' := by
  unfold Engine.dhReaderStep at hstep
  split at hstep
  · cases hstep
  · cases hstep
    have hsent : Mux config base (e.sendBody now .empty) := h.acknowledge
    exact hsent.of_quiet rfl rfl rfl rfl rfl
  · cases hstep
    exact h.of_quiet rfl rfl rfl rfl rfl
  · cases hstep
    exact h.handlePacket
  · cases hstep
    exact h.of_quiet (map_uplink_modify fun c => c.send_uplink _) rfl rfl rfl rfl
  · cases hstep
    exact h.signalConn.of_quiet rfl rfl rfl rfl rfl
  · cases hstep
    exact h.of_quiet rfl rfl rfl rfl rfl

/-! ## Runs -/

/-- A step of the engine happens before the process exits. -/
theorem Mux.step {event : Event} (h : Mux config base e) (hstep : step config e event = some e') :
    Mux config base e' := by
  unfold Engine.step at hstep
  split at hstep
  · cases hstep
  cases event with
  | accept service realm => exact h.accept hstep
  | handleClient i localAddress =>
    obtain ⟨c, hc, htask⟩ := clientStep_eq_some hstep
    exact h.handleClient hc htask
  | bindTimeout i =>
    obtain ⟨c, hc, htask⟩ := clientStep_eq_some hstep
    exact h.bindTimeout hc htask
  | clientRead i data =>
    obtain ⟨c, hc, htask⟩ := clientStep_eq_some hstep
    exact h.clientRead hc htask
  | clientClosed i =>
    obtain ⟨c, hc, htask⟩ := clientStep_eq_some hstep
    exact h.clientClosed hc htask
  | processReader i =>
    obtain ⟨c, hc, htask⟩ := clientStep_eq_some hstep
    exact h.processReader hc htask
  | processWriter i =>
    obtain ⟨c, hc, htask⟩ := clientStep_eq_some hstep
    exact h.processWriter hc htask
  | clientWrite i n =>
    obtain ⟨c, hc, htask⟩ := clientStep_eq_some hstep
    exact h.clientWrite hc htask
  | writeError i =>
    obtain ⟨c, hc, htask⟩ := clientStep_eq_some hstep
    exact h.writeError hc htask
  | heartbeat => exact h.enqueue rfl hstep
  | dhWriterRecv => exact h.dhWriterRecv hstep
  | dhWriterSend now => exact h.dhWriterSend hstep
  | receive now packet => exact h.receive hstep
  | dhReader now => exact h.dhReaderStep hstep
  | retransmit now =>
    cases hstep
    exact h.of_quiet rfl rfl rfl rfl rfl
  | socketError =>
    cases hstep
    exact h.of_quiet rfl rfl rfl rfl rfl

end Mux

/-- In every run, the packets sent follow each other in the stream, each realm among them is
that of one client, and what was sent for the realm of an RTSP client is a bind, then what was
read from the client in payloads of at most 4096 bytes, but for what is still in the queue or in
the hands of a task, then `DISC` if anything. -/
theorem client_stream_wellFormed {config : Config} {session : PTCPSession} {events : List Event}
    {e : Engine} (hrun : Run.run (step config) events (start session) = some e) :
    Tiles PTCPPacket.sent PTCPPacket.bodyLen session.sent e.sent ∧
      (e.clients.map Client.realm).Nodup ∧
      ∀ realm, (∃ body ∈ e.sentBodies, realmOf body = some realm) →
        ∃ c ∈ e.clients, c.realm = realm ∧ (c.service = .rtsp → ∃ chunks ended,
          bodiesFor realm e.sentBodies = clientStream realm config.remotePort chunks ended ∧
          (∀ data ∈ chunks, 1 ≤ data.length ∧ data.length ≤ 4096) ∧
          chunks.flatten ++ dataOf (bodiesFor realm e.queued) ++ c.reader.held = c.readBytes) := by
  have hmux : Mux config session.sent e :=
    Run.run_invariant (mux_start session) (fun _ _ _ h hstep => h.step hstep) hrun
  refine ⟨hmux.outbound.tiles, hmux.realms, fun realm hsent => ?_⟩
  have hne : bodiesFor realm e.sentBodies ≠ [] := by
    obtain ⟨body, hbody, hrealm⟩ := hsent
    exact List.ne_nil_of_mem (List.mem_filter.mpr ⟨hbody, decide_eq_true hrealm⟩)
  have hsplit : e.outgoing realm = bodiesFor realm e.sentBodies ++ bodiesFor realm e.queued :=
    bodiesFor_append realm _ _
  have hout : e.outgoing realm ≠ [] := by
    rw [hsplit]
    exact List.append_ne_nil_of_left_ne_nil hne _
  obtain ⟨c, hc, rfl⟩ : ∃ c ∈ e.clients, c.realm = realm := by
    by_contra hnone
    exact hout (hmux.unknown realm fun c hc hrealm => hnone ⟨c, hc, hrealm⟩)
  refine ⟨c, hc, rfl, fun hrtsp => ?_⟩
  obtain ⟨i, hi⟩ := List.mem_iff_getElem?.mp hc
  have hupload := hmux.upload i c hi hrtsp
  have hbound : c.handler.unbound = false :=
    Bool.eq_false_iff.mpr fun hunbound => hout (hupload.unbound hunbound).1
  obtain ⟨chunks, hbodies, hsmall, hall⟩ := hupload.bound hbound
  obtain ⟨gone, left, ended, rfl, hgone, hleft⟩ := clientStream_split (hsplit.symm.trans hbodies) hne
  refine ⟨gone, ended, hgone, fun data hdata => hsmall data (List.mem_append_left _ hdata), ?_⟩
  rw [hleft, ← hall, List.flatten_append]

/-- A client connects, sends two bytes and closes. -/
def oneUpload : List Event := [
  .accept .rtsp 7, .handleClient 0 none, .handleClient 0 none, .dhWriterRecv, .dhWriterSend 1,
  .receive 1 ⟨0, 0, 0, 0, 0, .status 7 "CONN"⟩, .dhReader 1, .dhReader 1, .dhReader 1,
  .handleClient 0 none, .clientRead 0 [1, 2], .processReader 0, .heartbeat, .clientClosed 0,
  .dhWriterRecv, .dhWriterSend 2, .processReader 0, .dhWriterRecv, .dhWriterSend 3, .dhWriterRecv,
  .dhWriterSend 4]

theorem client_stream_wellFormed_oneUpload : ∃ e,
    Run.run (step ⟨554, gapTimeout none⟩) oneUpload (start (PTCPSession.new 0)) = some e ∧
    e.sentBodies = [.bind 7 554, .empty, .payload ⟨7, [1, 2]⟩, .heartbeat, .status 7 "DISC"] ∧
    Tiles PTCPPacket.sent PTCPPacket.bodyLen 0 e.sent ∧
    ∃ c ∈ e.clients, c.realm = 7 ∧ (c.service = .rtsp → ∃ chunks ended,
      bodiesFor 7 e.sentBodies = clientStream 7 554 chunks ended ∧
      (∀ data ∈ chunks, 1 ≤ data.length ∧ data.length ≤ 4096) ∧
      chunks.flatten ++ dataOf (bodiesFor 7 e.queued) ++ c.reader.held = c.readBytes) := by
  have hstream := @client_stream_wellFormed ⟨554, gapTimeout none⟩ (PTCPSession.new 0) oneUpload _ rfl
  exact ⟨_, rfl, rfl, hstream.1, hstream.2.2 7 ⟨_, List.mem_cons_self, rfl⟩⟩

end DahuaBridge.Engine
