import DahuaBridge.Engine.Step
import DahuaBridge.Ptcp.SendWindow

/-!
# The tunnel engine: its use of the session

The tasks share one PTCP session. `callOf` is the call of a public method that a step makes
on it, and `step_effect` says that a step changes the session, the packets sent and the
packets delivered by that call and in no other way. So what holds of a session after any
calls holds of the session of an engine:

* `session_run`: the session of a run is a run of the session.
* `tracked_of_run`: its send window is the one of `Tracked`, with a peer that acknowledges
  what it may. The bodies fit into datagrams (`Small`).
-/

namespace DahuaBridge

open PTCPSession

/-- The packet that the call returns for the socket. -/
def Call.outgoing (s : PTCPSession) : Call → Option PTCPPacket
  | .send now body => some (s.send now body).1
  | _ => none

/-- The packets that the call returns in order. -/
def Call.ready (timeout : Duration) (s : PTCPSession) : Call → List PTCPPacket
  | .recv now packet => (s.recvPacket timeout now packet).1
  | _ => []

namespace Engine

/-- The call that a step makes on the session. The stall is asked for without a change. -/
def callOf (e : Engine) : Event → Option Call
  | .dhWriterSend now => e.dhWriter.map fun event => .send now event.body
  | .receive now packet => some (.recv now packet)
  | .dhReader now =>
    match e.dhReader with
    | .acknowledge _ => some (.send now .empty)
    | _ => none
  | .retransmit now => some (.dueRetransmissions now)
  | _ => none

/-- What a step with this call does to the session and to what is noted of it. -/
structure Effect (config : Config) (e : Engine) (call : Option Call) (e' : Engine) : Prop where
  session : e'.session = call.elim e.session (Call.perform config.gapTimeout e.session)
  sent : e'.sent = e.sent ++ (call.bind (Call.outgoing e.session)).toList
  delivered : e'.delivered = e.delivered ++ call.elim [] (Call.ready config.gapTimeout e.session)

section Effect

variable {config : Config} {e e' : Engine} {i : Nat} {c : Client}

/-- What the calls on the session change. -/
def traffic (e : Engine) : PTCPSession × List PTCPPacket × List PTCPPacket :=
  (e.session, e.sent, e.delivered)

/-- A step that makes no call. -/
theorem Effect.of_traffic (h : e'.traffic = e.traffic) : Effect config e none e' := by
  obtain ⟨hsession, hsent, hdelivered⟩ : e'.session = e.session ∧ e'.sent = e.sent ∧
      e'.delivered = e.delivered := by simpa [traffic] using h
  exact ⟨hsession, hsent.trans (List.append_nil _).symm, hdelivered.trans (List.append_nil _).symm⟩

@[simp] theorem traffic_releasePermit : (e.releasePermit c).traffic = e.traffic := by
  unfold Engine.releasePermit
  split <;> rfl

@[simp] theorem traffic_signalConn {realm : U32} {conn : ConnResult} :
    (e.signalConn realm conn).traffic = e.traffic := by
  unfold Engine.signalConn
  split <;> rfl

theorem traffic_enqueue {event : PTCPEvent} (h : e.enqueue event = some e') :
    e'.traffic = e.traffic := by
  obtain rfl := enqueue_eq_some h
  rfl

theorem traffic_accept {service : Service} {realm : U32} (h : e.accept service realm = some e') :
    e'.traffic = e.traffic := by
  obtain ⟨_, _, rfl⟩ := accept_eq_some h
  rfl

theorem traffic_handleClient {localAddress : Option HttpRewriteConfig}
    (h : handleClient config e i localAddress c = some e') : e'.traffic = e.traffic := by
  unfold Engine.handleClient at h
  split at h
  · cases h
    rfl
  · exact (traffic_enqueue h).trans rfl
  · split at h
    · cases h
    · cases h
      rfl
    · cases h
      rfl
  · cases h
    rfl
  · cases h
    rfl
  · cases h
    rfl
  · cases h

theorem traffic_bindTimeout (h : e.bindTimeout i c = some e') : e'.traffic = e.traffic := by
  unfold Engine.bindTimeout at h
  split at h
  · cases h
    rfl
  · cases h

theorem traffic_clientRead {data : Bytes} (h : e.clientRead i data c = some e') :
    e'.traffic = e.traffic := by
  unfold Engine.clientRead at h
  split at h
  · cases h
    rfl
  · cases h

theorem traffic_clientClosed (h : e.clientClosed i c = some e') : e'.traffic = e.traffic := by
  unfold Engine.clientClosed at h
  split at h
  · cases h
    rfl
  · cases h

theorem traffic_processReader (h : e.processReader i c = some e') : e'.traffic = e.traffic := by
  unfold Engine.processReader at h
  split at h
  · exact (traffic_enqueue h).trans rfl
  · exact (traffic_enqueue h).trans rfl
  · cases h
    rfl
  · cases h

theorem traffic_processWriter (h : e.processWriter i c = some e') : e'.traffic = e.traffic := by
  unfold Engine.processWriter at h
  split at h
  · split at h
    · cases h
      rfl
    · split at h
      · cases h
      · cases h
        exact traffic_releasePermit
  · split at h
    · cases h
      rfl
    · split at h
      · cases h
      · cases h
        rfl
  · cases h
    exact traffic_releasePermit
  · cases h

theorem traffic_clientWrite {n : Nat} (h : e.clientWrite i n c = some e') :
    e'.traffic = e.traffic := by
  unfold Engine.clientWrite at h
  split at h
  · split at h
    · cases h
      rfl
    · cases h
  · split at h
    · cases h
      rfl
    · cases h
  · cases h

theorem traffic_writeError (h : e.writeError i c = some e') : e'.traffic = e.traffic := by
  unfold Engine.writeError at h
  split at h
  · cases h
    exact traffic_releasePermit
  · cases h
    rfl
  · cases h

theorem traffic_dhWriterRecv (h : e.dhWriterRecv = some e') : e'.traffic = e.traffic := by
  unfold Engine.dhWriterRecv at h
  split at h
  · cases h
    rfl
  · cases h

theorem traffic_handlePacket {packet : PTCPPacket} {packets : List PTCPPacket} :
    (e.handlePacket packet packets).traffic = e.traffic := by
  unfold Engine.handlePacket
  split
  · split
    · exact traffic_signalConn
    · split <;> rfl
  · dsimp only
    split <;> rfl
  · rfl

/-! ### One step -/

theorem dhWriterSend_effect {now : Instant} (h : e.dhWriterSend now = some e') :
    Effect config e (e.callOf (.dhWriterSend now)) e' := by
  unfold Engine.dhWriterSend at h
  unfold Engine.callOf
  split at h
  · next event hevent =>
    cases h
    rw [hevent]
    exact ⟨rfl, rfl, (List.append_nil _).symm⟩
  · cases h

theorem receive_effect {now : Instant} {packet : PTCPPacket}
    (h : receive config e now packet = some e') :
    Effect config e (e.callOf (.receive now packet)) e' := by
  unfold Engine.receive at h
  split at h
  · cases h
    exact ⟨rfl, (List.append_nil _).symm, rfl⟩
  · cases h

theorem dhReader_effect {now : Instant} (h : e.dhReaderStep now = some e') :
    Effect config e (e.callOf (.dhReader now)) e' := by
  unfold Engine.dhReaderStep at h
  unfold Engine.callOf
  cases hreader : e.dhReader with
  | reading => simp only [hreader, reduceCtorEq] at h
  | acknowledge packets =>
    simp only [hreader] at h
    cases h
    exact ⟨rfl, rfl, (List.append_nil _).symm⟩
  | handle packets =>
    simp only [hreader] at h
    cases packets with
    | nil =>
      cases h
      exact .of_traffic rfl
    | cons packet packets =>
      cases h
      exact .of_traffic traffic_handlePacket
  | forward i data packets =>
    simp only [hreader] at h
    cases h
    exact .of_traffic rfl
  | removeConn realm packets =>
    simp only [hreader] at h
    cases h
    exact .of_traffic traffic_signalConn
  | closeOnvif realm packets =>
    simp only [hreader] at h
    cases h
    exact .of_traffic rfl

theorem event_of_recv {event : Event} {now : Instant} {packet : PTCPPacket}
    (h : e.callOf event = some (.recv now packet)) : event = .receive now packet := by
  unfold Engine.callOf at h
  split at h
  · obtain ⟨_, _, hcall⟩ := Option.map_eq_some_iff.mp h
    cases hcall
  · cases h
    rfl
  · split at h <;> cases h
  · cases h
  · cases h

/-- A step changes the session by the call that it makes on it. -/
theorem step_effect {event : Event} (hstep : step config e event = some e') :
    Effect config e (e.callOf event) e' := by
  unfold Engine.step at hstep
  split at hstep
  · cases hstep
  cases event with
  | accept service realm => exact .of_traffic (traffic_accept hstep)
  | handleClient i localAddress =>
    obtain ⟨c, _, htask⟩ := clientStep_eq_some hstep
    exact .of_traffic (traffic_handleClient htask)
  | bindTimeout i =>
    obtain ⟨c, _, htask⟩ := clientStep_eq_some hstep
    exact .of_traffic (traffic_bindTimeout htask)
  | clientRead i data =>
    obtain ⟨c, _, htask⟩ := clientStep_eq_some hstep
    exact .of_traffic (traffic_clientRead htask)
  | clientClosed i =>
    obtain ⟨c, _, htask⟩ := clientStep_eq_some hstep
    exact .of_traffic (traffic_clientClosed htask)
  | processReader i =>
    obtain ⟨c, _, htask⟩ := clientStep_eq_some hstep
    exact .of_traffic (traffic_processReader htask)
  | processWriter i =>
    obtain ⟨c, _, htask⟩ := clientStep_eq_some hstep
    exact .of_traffic (traffic_processWriter htask)
  | clientWrite i n =>
    obtain ⟨c, _, htask⟩ := clientStep_eq_some hstep
    exact .of_traffic (traffic_clientWrite htask)
  | writeError i =>
    obtain ⟨c, _, htask⟩ := clientStep_eq_some hstep
    exact .of_traffic (traffic_writeError htask)
  | heartbeat => exact .of_traffic (traffic_enqueue hstep)
  | dhWriterRecv => exact .of_traffic (traffic_dhWriterRecv hstep)
  | dhWriterSend now => exact dhWriterSend_effect hstep
  | receive now packet => exact receive_effect hstep
  | dhReader now => exact dhReader_effect hstep
  | retransmit now =>
    cases hstep
    exact ⟨rfl, (List.append_nil _).symm, (List.append_nil _).symm⟩
  | socketError =>
    cases hstep
    exact .of_traffic rfl

end Effect

/-! ## The bodies that are sent -/

/-- The chunks that clients have sent, and the events made of them, fit into a datagram. -/
structure Small (e : Engine) : Prop where
  queue : ∀ event ∈ e.dhWriter.toList ++ e.dhQueue, event.body.len ≤ MAX_BODY
  readers : ∀ reader ∈ e.clients.map Client.reader, ∀ data, reader = .sendData data →
    data.length ≤ 4096

section Small

variable {config : Config} {e e' : Engine} {i : Nat} {c c' : Client}

theorem small_start (session : PTCPSession) : Small (start session) where
  queue event h := by cases h
  readers reader h := by cases h

/-- No event and no reader is new. -/
theorem Small.of_subset (h : Small e)
    (hqueue : e'.dhWriter.toList ++ e'.dhQueue ⊆ e.dhWriter.toList ++ e.dhQueue)
    (hreaders : e'.clients.map Client.reader ⊆ e.clients.map Client.reader) : Small e' where
  queue event hevent := h.queue event (hqueue hevent)
  readers reader hreader := h.readers reader (hreaders hreader)

theorem Small.setClient (h : Small e)
    (hsmall : ∀ data, c'.reader = .sendData data → data.length ≤ 4096) :
    Small (e.setClient i c') where
  queue := h.queue
  readers reader hreader := by
    obtain ⟨d, hd, rfl⟩ := List.mem_map.mp hreader
    rcases List.mem_or_eq_of_mem_set hd with hd | rfl
    · exact h.readers _ (List.mem_map_of_mem hd)
    · exact hsmall

/-- A step of one client that leaves its reader where it is. -/
theorem Small.setSame (h : Small e) (hc : e.clients[i]? = some c) (hreader : c'.reader = c.reader) :
    Small (e.setClient i c') :=
  h.setClient fun data hdata =>
    h.readers c.reader (List.mem_map_of_mem (List.mem_of_getElem? hc)) data (hreader ▸ hdata)

theorem Small.enqueue {event : PTCPEvent} (h : Small e) (hsmall : event.body.len ≤ MAX_BODY)
    (hstep : e.enqueue event = some e') : Small e' := by
  obtain rfl := enqueue_eq_some hstep
  refine ⟨fun event' hevent' => ?_, h.readers⟩
  rw [← List.append_assoc] at hevent'
  rcases List.mem_append.mp hevent' with hevent' | hevent'
  · exact h.queue event' hevent'
  · exact List.mem_singleton.mp hevent' ▸ hsmall

theorem Small.releasePermit (h : Small e) : Small (e.releasePermit c) := by
  unfold Engine.releasePermit
  split
  · exact h.of_subset (List.Subset.refl _) (List.Subset.refl _)
  · exact h

/-- A change of one client that keeps what `g` reads keeps it for the list. -/
theorem map_modify {β : Type*} {g : Client → β} {f : Client → Client} (hf : ∀ c, g (f c) = g c) :
    (e.clients.modify i f).map g = e.clients.map g := by
  cases hc : e.clients[i]? with
  | none => rw [List.modify_eq_self (List.getElem?_eq_none_iff.mp hc)]
  | some c =>
    rw [modify_eq_set_of_getElem? hc]
    exact map_setClient hc (hf c)

theorem Small.modify {f : Client → Client} (h : Small e) (hf : ∀ c, (f c).reader = c.reader) :
    Small { e with clients := e.clients.modify i f } where
  queue := h.queue
  readers reader hreader := by
    have hmap : (e.clients.modify i f).map Client.reader = e.clients.map Client.reader :=
      map_modify hf
    exact h.readers reader (hmap ▸ hreader)

theorem Client.send_reader (c : Client) (data : Bytes) : (c.send data).reader = c.reader := by
  unfold Client.send
  split <;> rfl

theorem Small.accept {service : Service} {realm : U32} (h : Small e)
    (hstep : e.accept service realm = some e') : Small e' := by
  obtain ⟨_, _, rfl⟩ := accept_eq_some hstep
  refine ⟨h.queue, fun reader hreader data hdata => ?_⟩
  rw [List.map_append] at hreader
  rcases List.mem_append.mp hreader with hreader | hreader
  · exact h.readers reader hreader data hdata
  · obtain rfl := List.mem_singleton.mp hreader
    cases hdata

theorem Small.handleClient {localAddress : Option HttpRewriteConfig} (h : Small e)
    (hc : e.clients[i]? = some c) (hstep : handleClient config e i localAddress c = some e') :
    Small e' := by
  unfold Engine.handleClient at hstep
  split at hstep
  · cases hstep
    have hinsert : Small { e with connChannels := e.connChannels.insert c.realm i } :=
      ⟨h.queue, h.readers⟩
    exact hinsert.setSame hc rfl
  · have hset : Small (e.setClient i { c with handler := .waitConn }) := h.setSame hc rfl
    refine hset.enqueue ?_ hstep
    show 20 ≤ 65511
    decide
  · split at hstep
    · cases hstep
    · cases hstep
      exact h.setSame hc rfl
    · cases hstep
      have honvif : Small { e with
          onvifRealm := if c.service = .onvif then some c.realm else e.onvifRealm } :=
        ⟨h.queue, h.readers⟩
      exact honvif.setClient fun data hdata => by cases hdata
  · cases hstep
    have hremove : Small (e.removeChannel c.realm) := ⟨h.queue, h.readers⟩
    exact hremove.setSame hc rfl
  · cases hstep
    have herase : Small { e with connChannels := e.connChannels.erase c.realm } :=
      ⟨h.queue, h.readers⟩
    exact herase.setSame hc rfl
  · cases hstep
    exact ⟨h.queue, h.readers⟩
  · cases hstep

theorem Small.bindTimeout (h : Small e) (hc : e.clients[i]? = some c)
    (hstep : e.bindTimeout i c = some e') : Small e' := by
  unfold Engine.bindTimeout at hstep
  split at hstep
  · cases hstep
    exact h.setSame hc rfl
  · cases hstep

theorem Small.clientRead {data : Bytes} (h : Small e) (hstep : e.clientRead i data c = some e') :
    Small e' := by
  unfold Engine.clientRead at hstep
  split at hstep
  · next hread =>
    cases hstep
    refine h.setClient fun data' hdata' => ?_
    obtain rfl := ProcessReader.sendData.inj hdata'
    exact hread.2.2
  · cases hstep

theorem Small.clientClosed (h : Small e) (hstep : e.clientClosed i c = some e') : Small e' := by
  unfold Engine.clientClosed at hstep
  split at hstep
  · cases hstep
    refine h.setClient fun data hdata => ?_
    dsimp only at hdata
    split at hdata <;> cases hdata
  · cases hstep

theorem Small.processReader (h : Small e) (hc : e.clients[i]? = some c)
    (hstep : e.processReader i c = some e') : Small e' := by
  unfold Engine.processReader at hstep
  split at hstep
  · next data hreader =>
    have hsmall : data.length ≤ 4096 :=
      h.readers c.reader (List.mem_map_of_mem (List.mem_of_getElem? hc)) data hreader
    have hset : Small (e.setClient i { c with reader := .reading }) :=
      h.setClient fun data hdata => by cases hdata
    refine hset.enqueue ?_ hstep
    show data.length + 12 ≤ 65511
    omega
  · have hset : Small (e.setClient i { c with reader := .removeChannel }) :=
      h.setClient fun data hdata => by cases hdata
    refine hset.enqueue ?_ hstep
    show 12 + 4 ≤ 65511
    decide
  · cases hstep
    have hremove : Small (e.removeChannel c.realm) := ⟨h.queue, h.readers⟩
    exact hremove.setClient fun data hdata => by cases hdata
  · cases hstep

theorem Small.processWriter (h : Small e) (hc : e.clients[i]? = some c)
    (hstep : e.processWriter i c = some e') : Small e' := by
  unfold Engine.processWriter at hstep
  split at hstep
  · split at hstep
    · cases hstep
      exact h.setSame hc rfl
    · split at hstep
      · cases hstep
      · cases hstep
        have hclient : (e.releasePermit c).clients[i]? = some c := by rwa [clients_releasePermit]
        exact h.releasePermit.setSame hclient rfl
  · split at hstep
    · cases hstep
      exact h.setSame hc rfl
    · split at hstep
      · cases hstep
      · cases hstep
        exact h.setSame hc rfl
  · cases hstep
    have hremove : Small (e.removeChannel c.realm) := ⟨h.queue, h.readers⟩
    have hclient : ((e.removeChannel c.realm).releasePermit c).clients[i]? = some c := by
      rwa [clients_releasePermit]
    exact hremove.releasePermit.setSame hclient rfl
  · cases hstep

theorem Small.clientWrite {n : Nat} (h : Small e) (hc : e.clients[i]? = some c)
    (hstep : e.clientWrite i n c = some e') : Small e' := by
  unfold Engine.clientWrite at hstep
  split at hstep
  · split at hstep
    · cases hstep
      exact h.setSame hc rfl
    · cases hstep
  · split at hstep
    · cases hstep
      exact h.setSame hc rfl
    · cases hstep
  · cases hstep

theorem Small.writeError (h : Small e) (hc : e.clients[i]? = some c)
    (hstep : e.writeError i c = some e') : Small e' := by
  unfold Engine.writeError at hstep
  split at hstep
  · cases hstep
    have hclient : (e.releasePermit c).clients[i]? = some c := by rwa [clients_releasePermit]
    exact h.releasePermit.setSame hclient rfl
  · cases hstep
    exact h.setSame hc rfl
  · cases hstep

/-- The writer takes an event from the queue. -/
theorem Small.dhWriterRecv (h : Small e) (hstep : e.dhWriterRecv = some e') : Small e' := by
  unfold Engine.dhWriterRecv at hstep
  split at hstep
  · next event dhQueue hwriter hqueue =>
    cases hstep
    refine h.of_subset ?_ (List.Subset.refl _)
    rw [hwriter, hqueue]
    exact List.Subset.refl _
  · cases hstep

theorem Small.dhWriterSend {now : Instant} (h : Small e) (hstep : e.dhWriterSend now = some e') :
    Small e' := by
  unfold Engine.dhWriterSend at hstep
  split at hstep
  · cases hstep
    exact h.of_subset (List.subset_append_right _ _) (List.Subset.refl _)
  · cases hstep

theorem Small.signalConn {realm : U32} {conn : ConnResult} (h : Small e) :
    Small (e.signalConn realm conn) := by
  unfold Engine.signalConn
  split
  · next i _ =>
    have hmodify : Small { e with clients := e.clients.modify i fun c => { c with conn } } :=
      h.modify fun _ => rfl
    exact ⟨hmodify.queue, hmodify.readers⟩
  · exact h

theorem Small.handlePacket {packet : PTCPPacket} {packets : List PTCPPacket} (h : Small e) :
    Small (e.handlePacket packet packets) := by
  have hnote : Small (e.note (.handled packet)) := ⟨h.queue, h.readers⟩
  unfold Engine.handlePacket
  split
  · split
    · exact ⟨hnote.signalConn.queue, hnote.signalConn.readers⟩
    · split <;> exact ⟨h.queue, h.readers⟩
  · dsimp only
    split <;> exact ⟨h.queue, h.readers⟩
  · exact ⟨h.queue, h.readers⟩

theorem Small.dhReaderStep {now : Instant} (h : Small e) (hstep : e.dhReaderStep now = some e') :
    Small e' := by
  unfold Engine.dhReaderStep at hstep
  split at hstep
  · cases hstep
  · cases hstep
    exact ⟨h.queue, h.readers⟩
  · cases hstep
    exact ⟨h.queue, h.readers⟩
  · cases hstep
    exact h.handlePacket
  · cases hstep
    next i data packets _ =>
      have hforward : Small (e.forward i data) := h.modify fun c => c.send_reader data
      exact ⟨hforward.queue, hforward.readers⟩
  · cases hstep
    exact ⟨h.signalConn.queue, h.signalConn.readers⟩
  · cases hstep
    exact ⟨h.queue, h.readers⟩

theorem Small.receive {now : Instant} {packet : PTCPPacket} (h : Small e)
    (hstep : receive config e now packet = some e') : Small e' := by
  unfold Engine.receive at hstep
  split at hstep
  · cases hstep
    exact ⟨h.queue, h.readers⟩
  · cases hstep

theorem Small.step {event : Event} (h : Small e) (hstep : step config e event = some e') :
    Small e' := by
  unfold Engine.step at hstep
  split at hstep
  · cases hstep
  cases event with
  | accept service realm => exact h.accept hstep
  | handleClient i localAddress =>
    obtain ⟨c, hc, htask⟩ := clientStep_eq_some hstep
    exact h.handleClient hc htask
  | bindTimeout i =>
    obtain ⟨c, hc, htask⟩ := clientStep_eq_some hstep
    exact h.bindTimeout hc htask
  | clientRead i data =>
    obtain ⟨c, hc, htask⟩ := clientStep_eq_some hstep
    exact h.clientRead htask
  | clientClosed i =>
    obtain ⟨c, hc, htask⟩ := clientStep_eq_some hstep
    exact h.clientClosed htask
  | processReader i =>
    obtain ⟨c, hc, htask⟩ := clientStep_eq_some hstep
    exact h.processReader hc htask
  | processWriter i =>
    obtain ⟨c, hc, htask⟩ := clientStep_eq_some hstep
    exact h.processWriter hc htask
  | clientWrite i n =>
    obtain ⟨c, hc, htask⟩ := clientStep_eq_some hstep
    exact h.clientWrite hc htask
  | writeError i =>
    obtain ⟨c, hc, htask⟩ := clientStep_eq_some hstep
    exact h.writeError hc htask
  | heartbeat => exact h.enqueue (by decide) hstep
  | dhWriterRecv => exact h.dhWriterRecv hstep
  | dhWriterSend now => exact h.dhWriterSend hstep
  | receive now packet => exact h.receive hstep
  | dhReader now => exact h.dhReaderStep hstep
  | retransmit now =>
    cases hstep
    exact ⟨h.queue, h.readers⟩
  | socketError =>
    cases hstep
    exact ⟨h.queue, h.readers⟩

/-- What a step sends fits into a datagram. -/
theorem Small.sends {event : Event} {now : Instant} {body : PTCPBody} (h : Small e)
    (hcall : e.callOf event = some (.send now body)) : body.len ≤ MAX_BODY := by
  unfold Engine.callOf at hcall
  split at hcall
  · obtain ⟨event, hevent, hbody⟩ := Option.map_eq_some_iff.mp hcall
    cases hbody
    refine h.queue event (List.mem_append_left _ ?_)
    rw [hevent]
    exact List.mem_singleton_self event
  · cases hcall
  · split at hcall
    · cases hcall
      exact Nat.zero_le _
    · cases hcall
  · cases hcall
  · cases hcall

end Small

/-! ## Runs -/

/-- An acknowledgement is not beyond what was sent, and less than half a window behind it. -/
def Admits (e : Engine) : Event → Prop
  | .receive _ packet => (e.session.sent - packet.recv).toNat < 2 ^ 31
  | _ => True

instance (e : Engine) (event : Event) : Decidable (e.Admits event) := by
  cases event <;> unfold Admits <;> infer_instance

section Runs

variable {config : Config} {e e' : Engine} {events : List Event} {session : PTCPSession}

/-- The session of a run is a run of the session. -/
theorem session_run (hrun : Run.run (step config) events (start session) = some e) :
    ∃ calls, Run.run (Call.step config.gapTimeout) calls session = some e.session := by
  refine Run.run_invariant (I := fun e : Engine =>
    ∃ calls, Run.run (Call.step config.gapTimeout) calls session = some e.session) ⟨[], rfl⟩ ?_ hrun
  rintro event t t' ⟨calls, hcalls⟩ hstep
  have hsession := (step_effect hstep).session
  cases hcall : t.callOf event with
  | none =>
    rw [hcall] at hsession
    exact ⟨calls, hcalls.trans (congrArg some hsession.symm)⟩
  | some call =>
    rw [hcall] at hsession
    exact ⟨calls ++ [call], Run.run_concat.mpr ⟨_, hcalls, congrArg some hsession.symm⟩⟩

theorem session_step_of_sender {timeout : Duration} {x x' : Sender} {call : Call}
    (h : x.step timeout call = some x') : x'.session = call.perform timeout x.session := by
  cases call <;> exact (Option.some.inj h) ▸ rfl

/-- The send window of the engine is the one that an observer expects. -/
def Observed (e : Engine) : Prop := ∃ x : Sender, x.session = e.session ∧ Tracked x

theorem Observed.step {event : Event} (h : Observed e) (hsmall : Small e)
    (hadmits : e.Admits event) (hstep : step config e event = some e') : Observed e' := by
  obtain ⟨x, hx, htracked⟩ := h
  have hsession := (step_effect hstep).session
  cases hcall : e.callOf event with
  | none =>
    rw [hcall] at hsession
    exact ⟨x, hx.trans hsession.symm, htracked⟩
  | some call =>
    rw [hcall] at hsession
    have hok : x.Admits call := by
      cases call with
      | send now body => exact hsmall.sends hcall
      | recv now packet =>
        obtain rfl := event_of_recv hcall
        have hbehind : (e.session.sent - packet.recv).toNat < 2 ^ 31 := hadmits
        rwa [← hx] at hbehind
      | dueRetransmissions now => trivial
      | hasRetransmissionStall now => trivial
      | setAllowGapSkip allow => trivial
    obtain ⟨x', hx'⟩ : ∃ x', x.step config.gapTimeout call = some x' := by
      cases call <;> exact ⟨_, rfl⟩
    have hsame := session_step_of_sender hx'
    rw [hx] at hsame
    exact ⟨x', hsame.trans hsession.symm, htracked.step hok hx'⟩

theorem tracked_of_run (hwindow : session.sentWindow = [])
    (hadmits : Run.Along (step config) Admits events (start session))
    (hrun : Run.run (step config) events (start session) = some e) : Observed e := by
  have hstart : Small (start session) ∧ Observed (start session) :=
    ⟨small_start session, .start session, rfl, tracked_start session hwindow⟩
  refine (Run.run_invariant_along (I := fun e : Engine => Small e ∧ Observed e) hstart ?_
    hadmits hrun).2
  intro event t t' hadmits ht hstep
  exact ⟨ht.1.step hstep, ht.2.step ht.1 hadmits hstep⟩

end Runs

end Engine

end DahuaBridge
