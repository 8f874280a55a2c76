import DahuaBridge.Engine.Downstream

/-!
# What a step does to a client

The tasks of all clients share the maps, and one `dh_reader` serves them all. A step changes
a client, its entry in `channels` and what is looked up for it only if a task of the client
takes the step, or `dh_reader` is at something of its realm.

* `Footprint`: what a step can do to the clients, the maps and the notes, in six cases.
* `Isolated`: what is left alone, and which steps may take an entry out of `channels`.
* `client_gets_stream`: the property of every run, from the camera to the socket.
-/

namespace DahuaBridge.Engine

open Tiling

/-! ## Whose step it is -/

/-- The client whose task takes the step, or whose socket. -/
def Event.client : Event → Option Nat
  | .handleClient i _ => some i
  | .bindTimeout i => some i
  | .clientRead i _ => some i
  | .clientClosed i => some i
  | .processReader i => some i
  | .processWriter i => some i
  | .clientWrite i _ => some i
  | .writeError i => some i
  | _ => none

/-- `dh_reader` is at a packet of the realm, or has something in its hands for its client. -/
def DhReader.concerns (i : Nat) (realm : U32) : DhReader → Bool
  | .handle (packet :: _) => (Note.handled packet).concerns realm
  | .forward j _ _ => j = i
  | .removeConn r _ => r = realm
  | _ => false

/-- The step may do something to client `i`, who has the realm. -/
def concerns (e : Engine) (i : Nat) (realm : U32) : Event → Bool
  | .dhReader _ => e.dhReader.concerns i realm
  | event => event.client = some i

def ProcessWriter.removes : ProcessWriter → Bool
  | .removeChannel => true
  | _ => false

/-- A task of the client is where it removes the client's entry from `channels`: the bind has
failed, there is no more input, or the answer is written. -/
def Client.closes (c : Client) : Event → Bool
  | .handleClient _ _ => c.handler = .removeChannel
  | .processReader _ => c.reader = .removeChannel
  | .processWriter _ => c.writer.removes
  | _ => false

/-- `dh_reader` is at a `DISC` of the camera for the realm. -/
def DhReader.disconnects (realm : U32) : DhReader → Bool
  | .handle (packet :: _) => packet.body = .status realm "DISC"
  | _ => false

/-- The step ends the stretch in which client `i` has its entry in `channels`. -/
def closes (e : Engine) (i : Nat) (c : Client) : Event → Bool
  | .dhReader _ => e.dhReader.disconnects c.realm
  | event => event.client = some i && c.closes event

/-- The payload that `dh_reader` looks up for the realm, if the realm is in `channels`. -/
def DhReader.payloadFor (realm : U32) : DhReader → List PTCPPacket
  | .handle (packet :: _) =>
    match packet.body with
    | .payload p => if p.realm = realm then [packet] else []
    | _ => []
  | _ => []

def looksUp (e : Engine) (realm : U32) : Event → List PTCPPacket
  | .dhReader _ =>
    if (e.channels.lookup realm).isSome then e.dhReader.payloadFor realm else []
  | _ => []

/-- What a step leaves alone of client `i`. -/
structure Isolated (e : Engine) (event : Event) (e' : Engine) (i : Nat) (c : Client) : Prop where
  client : ∃ c', e'.clients[i]? = some c' ∧ c'.realm = c.realm ∧ c'.service = c.service ∧
    (e.concerns i c.realm event = false → c' = c)
  held : e.concerns i c.realm event = false → e'.inFlight i = e.inFlight i
  entry : e'.channels.lookup c.realm =
    if e.closes i c event then none else e.channels.lookup c.realm
  looked : (track c.realm e'.notes).packets =
    (track c.realm e.notes).packets ++ e.looksUp c.realm event

/-! ## What a step can do -/

/-- A step of a task of client `i`. -/
structure TaskStep (e : Engine) (i : Nat) (c : Client) (shuts : Bool) (e' : Engine) : Prop where
  clients : ∃ c', e'.clients = e.clients.set i c' ∧ c'.realm = c.realm ∧ c'.service = c.service
  channels : e'.channels = if shuts then e.channels.erase c.realm else e.channels
  connChannels : e'.connChannels = e.connChannels ∨
    e'.connChannels = e.connChannels.insert c.realm i ∨
    e'.connChannels = e.connChannels.erase c.realm
  notes : e'.notes = if shuts then e.notes ++ [.closed c.realm] else e.notes
  dhReader : e'.dhReader = e.dhReader

/-- A step that has nothing to do with a client. -/
structure QuietStep (e e' : Engine) : Prop where
  clients : e'.clients = e.clients
  channels : e'.channels = e.channels
  connChannels : e'.connChannels = e.connChannels
  notes : e'.notes = e.notes
  dhReader : e'.dhReader = e.dhReader ∨ e.dhReader.isFree = true ∧ e'.dhReader.isFree = true

/-- `dh_reader` has nothing of a client before it. -/
def DhReader.isIdle : DhReader → Bool
  | .handle (_ :: _) => false
  | .forward _ _ _ => false
  | .removeConn _ _ => false
  | _ => true

/-- What a step can do to the clients, the maps and the notes. -/
inductive Footprint (e : Engine) (event : Event) (e' : Engine) : Prop
  | accept (service : Service) (realm : U32) : event = .accept service realm →
      e.accept service realm = some e' → Footprint e event e'
  | task (i : Nat) (c : Client) : event.client = some i → e.clients[i]? = some c →
      TaskStep e i c (c.closes event) e' → Footprint e event e'
  | quiet : event.client = none → (∀ now, event = .dhReader now → e.dhReader.isIdle = true) →
      QuietStep e e' → Footprint e event e'
  | packet (now : Instant) (packet : PTCPPacket) (packets : List PTCPPacket) :
      event = .dhReader now → e.dhReader = .handle (packet :: packets) →
      e' = e.handlePacket packet packets → Footprint e event e'
  | forward (now : Instant) (i : Nat) (data : Bytes) (packets : List PTCPPacket) :
      event = .dhReader now → e.dhReader = .forward i data packets →
      e' = { e.forward i data with dhReader := .handle packets } → Footprint e event e'
  | removeConn (now : Instant) (realm : U32) (packets : List PTCPPacket) :
      event = .dhReader now → e.dhReader = .removeConn realm packets →
      e' = { e.signalConn realm .dropped with dhReader := .closeOnvif realm packets } →
      Footprint e event e'

section Steps

variable {config : Config} {event : Event} {e e' : Engine} {i : Nat} {c c' : Client}

/-- A step of a client that leaves the maps alone. -/
theorem TaskStep.setClient (hrealm : c'.realm = c.realm) (hservice : c'.service = c.service) :
    TaskStep e i c false (e.setClient i c') :=
  ⟨⟨c', rfl, hrealm, hservice⟩, rfl, .inl rfl, rfl, rfl⟩

theorem TaskStep.enqueue {shuts : Bool} {e₁ : Engine} {event : PTCPEvent}
    (h : TaskStep e i c shuts e₁) (hstep : e₁.enqueue event = some e') :
    TaskStep e i c shuts e' := by
  obtain rfl := enqueue_eq_some hstep
  exact ⟨h.clients, h.channels, h.connChannels, h.notes, h.dhReader⟩

theorem TaskStep.removeChannel (hrealm : c'.realm = c.realm) (hservice : c'.service = c.service) :
    TaskStep e i c true ((e.removeChannel c.realm).setClient i c') :=
  ⟨⟨c', rfl, hrealm, hservice⟩, rfl, .inl rfl, rfl, rfl⟩

theorem TaskStep.releasePermit {shuts : Bool} {e₁ : Engine}
    (h : TaskStep e i c shuts (e₁.setClient i c')) :
    TaskStep e i c shuts ((e₁.releasePermit c).setClient i c') := by
  unfold Engine.releasePermit
  split
  · exact ⟨h.clients, h.channels, h.connChannels, h.notes, h.dhReader⟩
  · exact h

theorem taskStep_handleClient {localAddress : Option HttpRewriteConfig}
    (hc : e.clients[i]? = some c) (hstep : handleClient config e i localAddress c = some e') :
    TaskStep e i c (c.closes (.handleClient i localAddress)) e' := by
  have hcloses : c.closes (.handleClient i localAddress) =
      decide (c.handler = .removeChannel) := rfl
  rw [hcloses]
  unfold Engine.handleClient at hstep
  cases hhandler : c.handler with
  | insertConn =>
    simp only [hhandler] at hstep
    cases hstep
    exact ⟨⟨_, rfl, rfl, rfl⟩, rfl, .inr (.inl rfl), rfl, rfl⟩
  | sendConnect =>
    simp only [hhandler] at hstep
    have hset : TaskStep e i c false (e.setClient i { c with handler := .waitConn }) :=
      .setClient rfl rfl
    exact hset.enqueue hstep
  | waitConn =>
    simp only [hhandler] at hstep
    split at hstep
    · cases hstep
    · cases hstep
      exact .setClient rfl rfl
    · cases hstep
      exact ⟨⟨_, rfl, rfl, rfl⟩, rfl, .inl rfl, rfl, rfl⟩
  | removeChannel =>
    simp only [hhandler] at hstep
    cases hstep
    exact .removeChannel rfl rfl
  | removeConn =>
    simp only [hhandler] at hstep
    cases hstep
    exact ⟨⟨_, rfl, rfl, rfl⟩, rfl, .inr (.inr rfl), rfl, rfl⟩
  | exit =>
    simp only [hhandler] at hstep
    cases hstep
    obtain ⟨hi, rfl⟩ := List.getElem?_eq_some_iff.mp hc
    exact ⟨⟨_, (List.set_getElem_self hi).symm, rfl, rfl⟩, rfl, .inl rfl, rfl, rfl⟩
  | done =>
    simp only [hhandler] at hstep
    cases hstep

theorem taskStep_processReader (hstep : e.processReader i c = some e') :
    TaskStep e i c (c.closes (.processReader i)) e' := by
  have hcloses : c.closes (.processReader i) = decide (c.reader = .removeChannel) := rfl
  rw [hcloses]
  unfold Engine.processReader at hstep
  cases hreader : c.reader with
  | sendData data =>
    simp only [hreader] at hstep
    have hset : TaskStep e i c false (e.setClient i { c with reader := .reading }) :=
      .setClient rfl rfl
    exact hset.enqueue hstep
  | sendDisconnect =>
    simp only [hreader] at hstep
    have hset : TaskStep e i c false (e.setClient i { c with reader := .removeChannel }) :=
      .setClient rfl rfl
    exact hset.enqueue hstep
  | removeChannel =>
    simp only [hreader] at hstep
    cases hstep
    exact .removeChannel rfl rfl
  | _ =>
    simp only [hreader] at hstep
    cases hstep

theorem taskStep_processWriter (hstep : e.processWriter i c = some e') :
    TaskStep e i c (c.closes (.processWriter i)) e' := by
  have hcloses : c.closes (.processWriter i) = c.writer.removes := rfl
  rw [hcloses]
  unfold Engine.processWriter at hstep
  cases hwriter : c.writer with
  | receiving =>
    simp only [hwriter] at hstep
    split at hstep
    · cases hstep
      exact .setClient rfl rfl
    · split at hstep
      · cases hstep
      · cases hstep
        exact TaskStep.releasePermit (.setClient rfl rfl)
  | collecting rewrite response =>
    simp only [hwriter] at hstep
    split at hstep
    · cases hstep
      exact .setClient rfl rfl
    · split at hstep
      · cases hstep
      · cases hstep
        exact .setClient rfl rfl
  | removeChannel =>
    simp only [hwriter] at hstep
    cases hstep
    exact TaskStep.releasePermit (.removeChannel rfl rfl)
  | _ =>
    simp only [hwriter] at hstep
    cases hstep

theorem taskStep_bindTimeout (hstep : e.bindTimeout i c = some e') : TaskStep e i c false e' := by
  unfold Engine.bindTimeout at hstep
  split at hstep
  · cases hstep
    exact .setClient rfl rfl
  · cases hstep

theorem taskStep_clientRead {data : Bytes} (hstep : e.clientRead i data c = some e') :
    TaskStep e i c false e' := by
  unfold Engine.clientRead at hstep
  split at hstep
  · cases hstep
    exact .setClient rfl rfl
  · cases hstep

theorem taskStep_clientClosed (hstep : e.clientClosed i c = some e') : TaskStep e i c false e' := by
  unfold Engine.clientClosed at hstep
  split at hstep
  · cases hstep
    exact .setClient rfl rfl
  · cases hstep

theorem taskStep_clientWrite {n : Nat} (hstep : e.clientWrite i n c = some e') :
    TaskStep e i c false e' := by
  unfold Engine.clientWrite at hstep
  split at hstep
  · split at hstep
    · cases hstep
      exact .setClient rfl rfl
    · cases hstep
  · split at hstep
    · cases hstep
      exact .setClient rfl rfl
    · cases hstep
  · cases hstep

theorem taskStep_writeError (hstep : e.writeError i c = some e') : TaskStep e i c false e' := by
  unfold Engine.writeError at hstep
  split at hstep
  · cases hstep
    exact TaskStep.releasePermit (.setClient rfl rfl)
  · cases hstep
    exact .setClient rfl rfl
  · cases hstep

theorem quietStep_dhWriterRecv (hstep : e.dhWriterRecv = some e') : QuietStep e e' := by
  unfold Engine.dhWriterRecv at hstep
  split at hstep
  · cases hstep
    exact ⟨rfl, rfl, rfl, rfl, .inl rfl⟩
  · cases hstep

theorem quietStep_dhWriterSend {now : Instant} (hstep : e.dhWriterSend now = some e') :
    QuietStep e e' := by
  unfold Engine.dhWriterSend at hstep
  split at hstep
  · cases hstep
    exact ⟨rfl, rfl, rfl, rfl, .inl rfl⟩
  · cases hstep

theorem quietStep_receive {now : Instant} {packet : PTCPPacket}
    (hstep : receive config e now packet = some e') : QuietStep e e' := by
  unfold Engine.receive at hstep
  split at hstep
  · next hreader =>
    cases hstep
    refine ⟨rfl, rfl, rfl, rfl, .inr ⟨by rw [hreader]; rfl, ?_⟩⟩
    dsimp only
    split <;> rfl
  · cases hstep

theorem footprint_dhReaderStep {now : Instant} (hstep : e.dhReaderStep now = some e') :
    Footprint e (.dhReader now) e' := by
  unfold Engine.dhReaderStep at hstep
  have hidle (hreader : e.dhReader.isIdle = true) (hquiet : QuietStep e e') :
      Footprint e (.dhReader now) e' := .quiet rfl (fun _ _ => hreader) hquiet
  cases hreader : e.dhReader with
  | reading =>
    simp only [hreader] at hstep
    cases hstep
  | acknowledge packets =>
    simp only [hreader] at hstep
    cases hstep
    exact hidle (hreader ▸ rfl) ⟨rfl, rfl, rfl, rfl, .inr ⟨hreader ▸ rfl, rfl⟩⟩
  | handle packets =>
    cases packets with
    | nil =>
      simp only [hreader] at hstep
      cases hstep
      exact hidle (hreader ▸ rfl) ⟨rfl, rfl, rfl, rfl, .inr ⟨hreader ▸ rfl, rfl⟩⟩
    | cons packet packets =>
      simp only [hreader] at hstep
      cases hstep
      exact .packet now packet packets rfl hreader rfl
  | forward i data packets =>
    simp only [hreader] at hstep
    cases hstep
    exact .forward now i data packets rfl hreader rfl
  | removeConn realm packets =>
    simp only [hreader] at hstep
    cases hstep
    exact .removeConn now realm packets rfl hreader rfl
  | closeOnvif realm packets =>
    simp only [hreader] at hstep
    cases hstep
    exact hidle (hreader ▸ rfl) ⟨rfl, rfl, rfl, rfl, .inr ⟨hreader ▸ rfl, rfl⟩⟩

/-- Every step is one of the six. -/
theorem step_footprint (hstep : step config e event = some e') : Footprint e event e' := by
  unfold Engine.step at hstep
  split at hstep
  · cases hstep
  have hsession (hclient : event.client = none) (hnot : ∀ now, event ≠ .dhReader now)
      (h : QuietStep e e') : Footprint e event e' :=
    .quiet hclient (fun now heq => absurd heq (hnot now)) h
  cases event with
  | accept service realm => exact .accept service realm rfl hstep
  | handleClient i localAddress =>
    obtain ⟨c, hc, htask⟩ := clientStep_eq_some hstep
    exact .task i c rfl hc (taskStep_handleClient hc htask)
  | bindTimeout i =>
    obtain ⟨c, hc, htask⟩ := clientStep_eq_some hstep
    exact .task i c rfl hc (taskStep_bindTimeout htask)
  | clientRead i data =>
    obtain ⟨c, hc, htask⟩ := clientStep_eq_some hstep
    exact .task i c rfl hc (taskStep_clientRead htask)
  | clientClosed i =>
    obtain ⟨c, hc, htask⟩ := clientStep_eq_some hstep
    exact .task i c rfl hc (taskStep_clientClosed htask)
  | processReader i =>
    obtain ⟨c, hc, htask⟩ := clientStep_eq_some hstep
    exact .task i c rfl hc (taskStep_processReader htask)
  | processWriter i =>
    obtain ⟨c, hc, htask⟩ := clientStep_eq_some hstep
    exact .task i c rfl hc (taskStep_processWriter htask)
  | clientWrite i n =>
    obtain ⟨c, hc, htask⟩ := clientStep_eq_some hstep
    exact .task i c rfl hc (taskStep_clientWrite htask)
  | writeError i =>
    obtain ⟨c, hc, htask⟩ := clientStep_eq_some hstep
    exact .task i c rfl hc (taskStep_writeError htask)
  | heartbeat =>
    obtain rfl := enqueue_eq_some hstep
    exact hsession rfl (fun _ => Event.noConfusion) ⟨rfl, rfl, rfl, rfl, .inl rfl⟩
  | dhWriterRecv =>
    exact hsession rfl (fun _ => Event.noConfusion) (quietStep_dhWriterRecv hstep)
  | dhWriterSend now =>
    exact hsession rfl (fun _ => Event.noConfusion) (quietStep_dhWriterSend hstep)
  | receive now packet => exact hsession rfl (fun _ => Event.noConfusion) (quietStep_receive hstep)
  | dhReader now => exact footprint_dhReaderStep hstep
  | retransmit now =>
    cases hstep
    exact hsession rfl (fun _ => Event.noConfusion) ⟨rfl, rfl, rfl, rfl, .inl rfl⟩
  | socketError =>
    cases hstep
    exact hsession rfl (fun _ => Event.noConfusion) ⟨rfl, rfl, rfl, rfl, .inl rfl⟩

end Steps

/-! ## What a step leaves alone -/

/-- The senders in `conn_channels` belong to the clients of their realms. -/
def Enrolled (e : Engine) : Prop := ∀ realm i, e.connChannels.lookup realm = some i →
  ∃ c, e.clients[i]? = some c ∧ c.realm = realm

section Isolated

variable {config : Config} {base : Nat} {event : Event} {e e' : Engine} {i : Nat} {c : Client}

theorem concerns_of_client {realm : U32} (h : event.client ≠ none) :
    e.concerns i realm event = decide (event.client = some i) := by
  cases event with
  | dhReader now => exact absurd rfl h
  | _ => rfl

theorem closes_of_client (h : event.client ≠ none) :
    e.closes i c event = (decide (event.client = some i) && c.closes event) := by
  cases event with
  | dhReader now => exact absurd rfl h
  | _ => rfl

theorem looksUp_of_client {realm : U32} (h : event.client ≠ none) : e.looksUp realm event = [] := by
  cases event with
  | dhReader now => exact absurd rfl h
  | _ => rfl

/-- `dh_reader` has no packet before it. -/
def DhReader.NoPacket (reader : DhReader) : Prop :=
  ∀ packet packets, reader ≠ .handle (packet :: packets)

theorem DhReader.NoPacket.of_isIdle {reader : DhReader} (h : reader.isIdle = true) :
    reader.NoPacket := by
  rintro packet packets rfl
  cases h

theorem DhReader.NoPacket.disconnects {reader : DhReader} (h : reader.NoPacket) (realm : U32) :
    reader.disconnects realm = false := by
  cases reader with
  | handle packets =>
    cases packets with
    | nil => rfl
    | cons packet packets => exact absurd rfl (h packet packets)
  | _ => rfl

theorem DhReader.NoPacket.payloadFor {reader : DhReader} (h : reader.NoPacket) (realm : U32) :
    reader.payloadFor realm = [] := by
  cases reader with
  | handle packets =>
    cases packets with
    | nil => rfl
    | cons packet packets => exact absurd rfl (h packet packets)
  | _ => rfl

theorem closes_of_noPacket (hclient : event.client = none)
    (h : ∀ now, event = .dhReader now → e.dhReader.NoPacket) : e.closes i c event = false := by
  cases event with
  | dhReader now => exact (h now rfl).disconnects c.realm
  | _ => first | rfl | cases hclient

theorem looksUp_of_noPacket {realm : U32}
    (h : ∀ now, event = .dhReader now → e.dhReader.NoPacket) : e.looksUp realm event = [] := by
  cases event with
  | dhReader now =>
    unfold Engine.looksUp
    simp only [(h now rfl).payloadFor realm, ite_self]
  | _ => rfl

/-- A packet adds itself if it is a payload for the realm, and the realm is there. -/
theorem Track.packets_handled {realm : U32} {packet : PTCPPacket} {packets : List PTCPPacket}
    (t : Track) : (t.note realm (.handled packet)).packets = t.packets ++
      if t.present then (DhReader.handle (packet :: packets)).payloadFor realm else [] := by
  unfold Track.note DhReader.payloadFor
  cases hbody : packet.body with
  | status r status =>
    simp only [hbody, ite_self, List.append_nil]
    split <;> rfl
  | payload p =>
    simp only [hbody]
    by_cases hrealm : p.realm = realm
    · by_cases hpresent : t.present
      · rw [if_pos ⟨hrealm, hpresent⟩, if_pos hpresent, if_pos hrealm]
      · rw [if_neg fun hboth => hpresent hboth.2, if_neg hpresent, List.append_nil]
    · rw [if_neg fun hboth => hrealm hboth.1, if_neg hrealm, ite_self, List.append_nil]
  | _ => simp only [hbody, ite_self, List.append_nil]

/-- The signal goes to the client of the realm. -/
theorem signalConn_client {realm : U32} {conn : ConnResult} (henrolled : Enrolled e)
    (hc : e.clients[i]? = some c) : ∃ c', (e.signalConn realm conn).clients[i]? = some c' ∧
      c'.realm = c.realm ∧ c'.service = c.service ∧ (c.realm ≠ realm → c' = c) := by
  unfold Engine.signalConn
  split
  · next j hlookup =>
    obtain ⟨d, hd, hrealm⟩ := henrolled realm j hlookup
    by_cases hji : j = i
    · subst hji
      obtain rfl : d = c := Option.some.inj (hd.symm.trans hc)
      refine ⟨{ d with conn }, ?_, rfl, rfl, fun hne => absurd hrealm hne⟩
      rw [List.getElem?_modify_eq, hc]
      rfl
    · exact ⟨c, by rw [List.getElem?_modify_ne _ _ hji, hc], rfl, rfl, fun _ => rfl⟩
  · exact ⟨c, hc, rfl, rfl, fun _ => rfl⟩

theorem signalConn_shared {realm : U32} {conn : ConnResult} :
    (e.signalConn realm conn).channels = e.channels ∧
      (e.signalConn realm conn).notes = e.notes := by
  unfold Engine.signalConn
  split <;> exact ⟨rfl, rfl⟩

theorem isolated_accept {service : Service} {realm : U32} (hc : e.clients[i]? = some c)
    (haccept : e.accept service realm = some e') :
    Isolated e (.accept service realm) e' i c := by
  obtain ⟨hfresh, onvifSlots, rfl⟩ := accept_eq_some haccept
  have hne : c.realm ≠ realm := hfresh c (List.mem_of_getElem? hc)
  have hi : i < e.clients.length := (List.getElem?_eq_some_iff.mp hc).1
  have hnote : (Note.opened realm).concerns c.realm = false := decide_eq_false hne.symm
  constructor
  · exact ⟨c, by rw [List.getElem?_append_left hi, hc], rfl, rfl, fun _ => rfl⟩
  · exact fun _ => rfl
  · exact AList.lookup_insert_ne hne
  · show (track c.realm (e.notes ++ [.opened realm])).packets = _ ++ []
    rw [track_concat, Track.note_of_not_concerns _ hnote, List.append_nil]

theorem isolated_task {j : Nat} {d : Client} (hrealms : (e.clients.map Client.realm).Nodup)
    (hc : e.clients[i]? = some c) (hclient : event.client = some j) (hd : e.clients[j]? = some d)
    (htask : TaskStep e j d (d.closes event) e') : Isolated e event e' i c := by
  have hsome : event.client ≠ none := hclient ▸ Option.some_ne_none j
  obtain ⟨d', hclients, hrealm, hservice⟩ := htask.clients
  have hj : j < e.clients.length := (List.getElem?_eq_some_iff.mp hd).1
  have hinFlight : e'.inFlight i = e.inFlight i := by
    unfold inFlight
    rw [htask.dhReader]
  have hchannels := htask.channels
  have hnotes := htask.notes
  by_cases hji : j = i
  · subst hji
    obtain rfl : d = c := Option.some.inj (hd.symm.trans hc)
    have hconcerns : e.concerns j d.realm event = true := by
      rw [concerns_of_client hsome]
      exact decide_eq_true hclient
    have hcloses : e.closes j d event = d.closes event := by
      rw [closes_of_client hsome, decide_eq_true hclient, Bool.true_and]
    refine ⟨⟨d', ?_, hrealm, hservice, fun hnot => ?_⟩, fun _ => hinFlight, ?_, ?_⟩
    · rw [hclients, List.getElem?_set, if_pos rfl, if_pos hj]
    · exact absurd (hconcerns.symm.trans hnot) (by decide)
    · rw [hcloses, hchannels]
      split
      · exact AList.lookup_erase _ _
      · rfl
    · rw [looksUp_of_client hsome, List.append_nil, hnotes]
      split
      · rw [track_concat]
        simp only [Track.note, if_true]
      · rfl
  · have hnot : ¬event.client = some i := fun heq =>
      hji (Option.some.inj (hclient.symm.trans heq))
    have hcloses : e.closes i c event = false := by
      rw [closes_of_client hsome, decide_eq_false hnot, Bool.false_and]
    have hne : d.realm ≠ c.realm := fun heq => hji (index_inj hrealms hd hc heq)
    have hnote : (Note.closed d.realm).concerns c.realm = false := decide_eq_false hne
    refine ⟨⟨c, ?_, rfl, rfl, fun _ => rfl⟩, fun _ => hinFlight, ?_, ?_⟩
    · rw [hclients, List.getElem?_set_ne hji, hc]
    · rw [hcloses, hchannels]
      split
      · exact AList.lookup_erase_ne hne.symm
      · rfl
    · rw [looksUp_of_client hsome, List.append_nil, hnotes]
      split
      · rw [track_concat, Track.note_of_not_concerns _ hnote]
      · rfl

theorem isolated_quiet (hc : e.clients[i]? = some c) (hclient : event.client = none)
    (hidle : ∀ now, event = .dhReader now → e.dhReader.isIdle = true) (hquiet : QuietStep e e') :
    Isolated e event e' i c := by
  have hnone (now : Instant) (heq : event = .dhReader now) : e.dhReader.NoPacket :=
    .of_isIdle (hidle now heq)
  refine ⟨⟨c, hquiet.clients ▸ hc, rfl, rfl, fun _ => rfl⟩, fun _ => ?_, ?_, ?_⟩
  · rcases hquiet.dhReader with hsame | ⟨hfree, hfree'⟩
    · unfold inFlight
      rw [hsame]
    · rw [inFlight_of_isFree hfree, inFlight_of_isFree hfree']
  · rw [closes_of_noPacket hclient hnone, hquiet.channels]
    rfl
  · rw [looksUp_of_noPacket hnone, hquiet.notes, List.append_nil]

/-- A packet of another realm does not reach the client. -/
theorem handlePacket_client {packet : PTCPPacket} {packets : List PTCPPacket}
    (henrolled : Enrolled e) (hc : e.clients[i]? = some c) :
    ∃ c', (e.handlePacket packet packets).clients[i]? = some c' ∧ c'.realm = c.realm ∧
      c'.service = c.service ∧ ((Note.handled packet).concerns c.realm = false → c' = c) := by
  have hsame : ∃ c', e.clients[i]? = some c' ∧ c'.realm = c.realm ∧ c'.service = c.service ∧
      ((Note.handled packet).concerns c.realm = false → c' = c) := ⟨c, hc, rfl, rfl, fun _ => rfl⟩
  unfold Engine.handlePacket
  cases hbody : packet.body with
  | status realm status =>
    by_cases hconn : status = "CONN"
    · simp only [if_pos hconn]
      obtain ⟨c', hc', hrealm, hservice, hkept⟩ :=
        @signalConn_client (e.note (.handled packet)) i c realm .connected henrolled hc
      refine ⟨c', hc', hrealm, hservice, fun hnot => hkept fun heq => ?_⟩
      unfold Note.concerns at hnot
      simp only [hbody] at hnot
      exact of_decide_eq_false hnot heq.symm
    · simp only [if_neg hconn]
      split <;> exact hsame
  | payload p =>
    dsimp only
    split <;> exact hsame
  | _ => exact hsame

/-- Only a `DISC` takes an entry out of `channels`, that of its realm. -/
theorem handlePacket_entry {packet : PTCPPacket} {packets : List PTCPPacket} {realm : U32} :
    (e.handlePacket packet packets).channels.lookup realm =
      if packet.body = .status realm "DISC" then none else e.channels.lookup realm := by
  unfold Engine.handlePacket
  cases hbody : packet.body with
  | status r status =>
    by_cases hconn : status = "CONN"
    · have hnot : ¬PTCPBody.status r status = .status realm "DISC" := fun heq => by
        cases heq
        exact absurd hconn (by decide)
      simp only [if_pos hconn, if_neg hnot]
      rw [signalConn_shared.1]
      rfl
    by_cases hdisc : status = "DISC"
    · simp only [if_neg hconn, if_pos hdisc]
      by_cases hr : r = realm
      · rw [if_pos (by rw [hr, hdisc]), hr]
        exact AList.lookup_erase _ _
      · rw [if_neg fun heq => hr (by cases heq; rfl)]
        exact AList.lookup_erase_ne fun heq => hr heq.symm
    · simp only [if_neg hconn, if_neg hdisc]
      rw [if_neg fun heq => hdisc (by cases heq; rfl)]
      rfl
  | payload p =>
    rw [if_neg PTCPBody.noConfusion]
    dsimp only
    split <;> rfl
  | _ =>
    rw [if_neg PTCPBody.noConfusion]
    rfl

theorem handlePacket_notes {packet : PTCPPacket} {packets : List PTCPPacket} :
    (e.handlePacket packet packets).notes = e.notes ++ [.handled packet] := by
  unfold Engine.handlePacket
  cases packet.body with
  | status realm status =>
    dsimp only
    split
    · exact signalConn_shared.2
    · split <;> rfl
  | payload p =>
    dsimp only
    split <;> rfl
  | _ => rfl

/-- What `dh_reader` then has in its hands is for a client of the packet's realm. -/
theorem handlePacket_inFlight {packet : PTCPPacket} {packets : List PTCPPacket}
    (h : Registry base e) (hc : e.clients[i]? = some c)
    (hnot : (Note.handled packet).concerns c.realm = false) :
    (e.handlePacket packet packets).inFlight i = [] := by
  unfold Engine.handlePacket
  cases hbody : packet.body with
  | status realm status =>
    dsimp only
    split
    · rfl
    · split <;> rfl
  | payload p =>
    dsimp only
    split
    · next j hlookup =>
      obtain ⟨d, hd, hrealm⟩ := h.registered p.realm j hlookup
      refine if_neg fun hji => ?_
      subst hji
      obtain rfl : d = c := Option.some.inj (hd.symm.trans hc)
      unfold Note.concerns at hnot
      simp only [hbody] at hnot
      exact of_decide_eq_false hnot hrealm.symm
    · rfl
  | _ => rfl

theorem isolated_packet {now : Instant} {packet : PTCPPacket} {packets : List PTCPPacket}
    (h : Registry base e) (henrolled : Enrolled e) (hc : e.clients[i]? = some c)
    (hreader : e.dhReader = .handle (packet :: packets)) :
    Isolated e (.dhReader now) (e.handlePacket packet packets) i c := by
  have hconcerns : e.concerns i c.realm (.dhReader now) =
      (Note.handled packet).concerns c.realm := by
    show e.dhReader.concerns i c.realm = _
    rw [hreader]
    rfl
  refine ⟨?_, fun hnot => ?_, ?_, ?_⟩
  · rw [hconcerns]
    exact handlePacket_client henrolled hc
  · rw [hconcerns] at hnot
    rw [handlePacket_inFlight h hc hnot, inFlight_of_isFree (hreader ▸ rfl)]
  · have hcloses : e.closes i c (.dhReader now) =
        decide (packet.body = .status c.realm "DISC") := by
      show e.dhReader.disconnects c.realm = _
      rw [hreader]
      rfl
    rw [handlePacket_entry, hcloses]
    simp only [decide_eq_true_eq]
  · have hlooked : e.looksUp c.realm (.dhReader now) =
        if (track c.realm e.notes).present then e.dhReader.payloadFor c.realm else [] := by
      rw [h.present]
      rfl
    rw [handlePacket_notes, track_concat, Track.packets_handled, hlooked, hreader]

theorem isolated_forward {now : Instant} {j : Nat} {data : Bytes} {packets : List PTCPPacket}
    (hc : e.clients[i]? = some c) (hreader : e.dhReader = .forward j data packets) :
    Isolated e (.dhReader now) { e.forward j data with dhReader := .handle packets } i c := by
  have hconcerns : e.concerns i c.realm (.dhReader now) = decide (j = i) := by
    show e.dhReader.concerns i c.realm = _
    rw [hreader]
    rfl
  have hnone : e.dhReader.NoPacket := fun packet later heq => by
    rw [hreader] at heq
    cases heq
  have hlooks : e.looksUp c.realm (.dhReader now) = [] := looksUp_of_noPacket fun _ _ => hnone
  have hcloses : e.closes i c (.dhReader now) = false := closes_of_noPacket rfl fun _ _ => hnone
  have hclients : ({ e.forward j data with dhReader := .handle packets } : Engine).clients =
      e.clients.modify j (·.send data) := rfl
  refine ⟨?_, fun hnot => ?_, ?_, ?_⟩
  · rw [hconcerns, hclients]
    by_cases hji : j = i
    · refine ⟨c.send data, ?_, c.send_realm data, c.send_service data, fun hnot => ?_⟩
      · rw [hji, List.getElem?_modify_eq, hc]
        rfl
      · exact absurd hji (of_decide_eq_false hnot)
    · exact ⟨c, by rw [List.getElem?_modify_ne _ _ hji, hc], rfl, rfl, fun _ => rfl⟩
  · rw [hconcerns] at hnot
    unfold inFlight
    rw [hreader]
    exact (if_neg (of_decide_eq_false hnot)).symm
  · rw [hcloses]
    rfl
  · rw [hlooks, List.append_nil]
    rfl

theorem isolated_removeConn {now : Instant} {realm : U32} {packets : List PTCPPacket}
    (henrolled : Enrolled e) (hc : e.clients[i]? = some c)
    (hreader : e.dhReader = .removeConn realm packets) :
    Isolated e (.dhReader now)
      { e.signalConn realm .dropped with dhReader := .closeOnvif realm packets } i c := by
  have hconcerns : e.concerns i c.realm (.dhReader now) = decide (realm = c.realm) := by
    show e.dhReader.concerns i c.realm = _
    rw [hreader]
    rfl
  have hnone : e.dhReader.NoPacket := fun packet later heq => by
    rw [hreader] at heq
    cases heq
  have hlooks : e.looksUp c.realm (.dhReader now) = [] := looksUp_of_noPacket fun _ _ => hnone
  have hcloses : e.closes i c (.dhReader now) = false := closes_of_noPacket rfl fun _ _ => hnone
  refine ⟨?_, fun _ => ?_, ?_, ?_⟩
  · obtain ⟨c', hc', hrealm, hservice, hkept⟩ :=
      @signalConn_client e i c realm .dropped henrolled hc
    refine ⟨c', hc', hrealm, hservice, fun hnot => hkept fun heq => ?_⟩
    rw [hconcerns] at hnot
    exact of_decide_eq_false hnot heq.symm
  · rw [inFlight_of_isFree rfl, inFlight_of_isFree (hreader ▸ rfl)]
  · rw [hcloses]
    exact congrArg (AList.lookup c.realm) signalConn_shared.1
  · rw [hlooks, List.append_nil]
    exact congrArg (fun notes => (track c.realm notes).packets) signalConn_shared.2

/-- A step does to a client what its own tasks and the packets of its realm do. -/
theorem step_isolated (h : Registry base e) (henrolled : Enrolled e)
    (hstep : step config e event = some e') (hc : e.clients[i]? = some c) :
    Isolated e event e' i c := by
  cases step_footprint hstep with
  | accept service realm hevent haccept =>
    subst hevent
    exact isolated_accept hc haccept
  | task j d hclient hd htask => exact isolated_task h.realms hc hclient hd htask
  | quiet hclient hidle hquiet => exact isolated_quiet hc hclient hidle hquiet
  | packet now packet packets hevent hreader heq =>
    subst hevent heq
    exact isolated_packet h henrolled hc hreader
  | forward now j data packets hevent hreader heq =>
    subst hevent heq
    exact isolated_forward hc hreader
  | removeConn now realm packets hevent hreader heq =>
    subst hevent heq
    exact isolated_removeConn henrolled hc hreader

theorem Enrolled.signalConn {realm r : U32} {conn : ConnResult}
    (h : (e.signalConn realm conn).connChannels.lookup r = some i) :
    e.connChannels.lookup r = some i := by
  unfold Engine.signalConn at h
  split at h
  · exact (lookup_of_erase h).2
  · exact h

theorem Enrolled.handlePacket {packet : PTCPPacket} {packets : List PTCPPacket} {r : U32}
    (h : (e.handlePacket packet packets).connChannels.lookup r = some i) :
    e.connChannels.lookup r = some i := by
  unfold Engine.handlePacket at h
  split at h
  · split at h
    · exact Enrolled.signalConn (e := e.note (.handled packet)) h
    · split at h <;> exact h
  · dsimp only at h
    split at h <;> exact h
  · exact h

theorem enrolled_start (session : PTCPSession) : Enrolled (start session) :=
  fun realm i h => by cases h

theorem Enrolled.step (henrolled : Enrolled e) (h : Registry base e)
    (hstep : step config e event = some e') : Enrolled e' := by
  have hkept (realm : U32) (i : Nat) (hlookup : e.connChannels.lookup realm = some i) :
      ∃ c, e'.clients[i]? = some c ∧ c.realm = realm := by
    obtain ⟨c, hc, hrealm⟩ := henrolled realm i hlookup
    obtain ⟨c', hc', hrealm', -, -⟩ := (step_isolated h henrolled hstep hc).client
    exact ⟨c', hc', hrealm'.trans hrealm⟩
  intro realm i hlookup
  cases step_footprint hstep with
  | accept service realm' hevent haccept =>
    obtain ⟨-, onvifSlots, rfl⟩ := accept_eq_some haccept
    exact hkept realm i hlookup
  | task j d hclient hd htask =>
    rcases htask.connChannels with hsame | hinsert | herase
    · exact hkept realm i (hsame ▸ hlookup)
    · rw [hinsert] at hlookup
      by_cases hrealm : realm = d.realm
      · rw [hrealm, AList.lookup_insert] at hlookup
        obtain rfl := Option.some.inj hlookup
        obtain ⟨d', hd', hrealm', -, -⟩ := (step_isolated h henrolled hstep hd).client
        exact ⟨d', hd', hrealm'.trans hrealm.symm⟩
      · rw [AList.lookup_insert_ne hrealm] at hlookup
        exact hkept realm i hlookup
    · exact hkept realm i (lookup_of_erase (herase ▸ hlookup)).2
  | quiet hclient hidle hquiet => exact hkept realm i (hquiet.connChannels ▸ hlookup)
  | packet now packet packets hevent hreader heq =>
    exact hkept realm i (Enrolled.handlePacket (heq ▸ hlookup))
  | forward now j data packets hevent hreader heq =>
    subst heq
    exact hkept realm i hlookup
  | removeConn now realm' packets hevent hreader heq =>
    subst heq
    exact hkept realm i (@Enrolled.signalConn e i realm' realm .dropped hlookup)

end Isolated

/-! ## Runs -/

/-- In every run in strict mode, `recv` returns the packets of the camera's stream in their
order, and the socket of an RTSP client takes a prefix of the data of the packets that
`dh_reader` looked up while the entry of the client's realm was in `channels`. When
`process_writer` has ended without an error, it is all of that data. The entry is there from
the moment the client joins until the camera's `DISC` for its realm or its own close, and a
step of another client, or for another realm, leaves the client and what it gets alone. -/
theorem client_gets_stream {config : Config} {session : PTCPSession} {events : List Event}
    {e : Engine} (hstrict : session.allowGapSkip = false) (hpending : session.pending = ∅)
    (hrun : Run.run (step config) events (start session) = some e) :
    Tiles PTCPPacket.sent PTCPPacket.bodyLen session.recv e.delivered ∧
      handledPackets e.notes <+: e.delivered ∧
      (∀ realm, (track realm e.notes).present = (e.channels.lookup realm).isSome) ∧
      (∀ service realm e', step config e (.accept service realm) = some e' →
        e'.channels.lookup realm = some e.clients.length ∧ lookedUp realm e'.notes = []) ∧
      ∀ (i : Nat) (c : Client), e.clients[i]? = some c →
        (∀ j, e.channels.lookup c.realm = some j → j = i) ∧
        (∀ event e', step config e event = some e' → Isolated e event e' i c) ∧
        (c.service = .rtsp →
          (track c.realm e.notes).packets.Sublist e.delivered ∧
          c.written <+: lookedUp c.realm e.notes ∧
          (c.writer = .closed → c.written = lookedUp c.realm e.notes) ∧
          (c.writer ≠ .closed → c.writer ≠ .failed →
            c.written ++ c.waiting ++ e.inFlight i = lookedUp c.realm e.notes)) := by
  have hboth : Demux session.recv.toNat e ∧ Enrolled e :=
    Run.run_invariant (I := fun e => Demux session.recv.toNat e ∧ Enrolled e)
      ⟨demux_start hstrict hpending, enrolled_start session⟩
      (fun _ _ _ h hstep => ⟨h.1.step hstep, h.2.step h.1.toRegistry hstep⟩) hrun
  obtain ⟨hdemux, henrolled⟩ := hboth
  obtain ⟨received, hconserved⟩ := hdemux.stream
  have hhandled : handledPackets e.notes <+: e.delivered := ⟨_, hdemux.handled⟩
  have htiles := hconserved.tiles
  rw [SeqNum.wrap_toNat] at htiles
  refine ⟨htiles, hhandled, hdemux.present, fun service realm e' hstep => ?_,
    fun i c hc => ⟨fun j hlookup => ?_, fun event e' hstep => ?_, fun hservice => ?_⟩⟩
  · have haccept : e.accept service realm = some e' := by
      unfold Engine.step at hstep
      split at hstep
      · cases hstep
      · exact hstep
    obtain ⟨hfresh, onvifSlots, rfl⟩ := accept_eq_some haccept
    refine ⟨AList.lookup_insert _, ?_⟩
    show payloadBytes (track realm (e.notes ++ [.opened realm])).packets = []
    rw [packets_of_quiet (packets_note_opened realm realm), hdemux.unknown realm hfresh]
    rfl
  · obtain ⟨d, hd, hrealm⟩ := hdemux.registered c.realm j hlookup
    exact index_inj hdemux.realms hd hc hrealm
  · exact step_isolated hdemux.toRegistry henrolled hstep hc
  · have hbalanced := (hdemux.flow i c hc hservice).balanced
    refine ⟨(track_sublist c.realm e.notes).trans hhandled.sublist, hbalanced.written_prefix,
      fun hclosed => ?_, hbalanced.of_not_failed⟩
    unfold Client.Balanced at hbalanced
    rw [hclosed] at hbalanced
    exact hbalanced.1

/-- Two clients connect and get something. The second one's `DISC` is at the front. -/
def twoClients : List Event := [
  .accept .rtsp 7, .handleClient 0 none, .handleClient 0 none,
  .accept .rtsp 9, .handleClient 1 none, .handleClient 1 none,
  .receive 1 ⟨0, 0, 0, 0, 0, .status 7 "CONN"⟩, .dhReader 1, .dhReader 1, .dhReader 1,
  .handleClient 0 none,
  .receive 2 ⟨16, 0, 0, 0, 0, .status 9 "CONN"⟩, .dhReader 2, .dhReader 2, .dhReader 2,
  .handleClient 1 none,
  .receive 3 ⟨32, 0, 0, 0, 0, .payload ⟨7, [1, 2]⟩⟩, .dhReader 3, .dhReader 3, .dhReader 3,
  .dhReader 3,
  .receive 4 ⟨46, 0, 0, 0, 0, .payload ⟨9, [3]⟩⟩, .dhReader 4, .dhReader 4, .dhReader 4,
  .dhReader 4, .processWriter 0, .clientWrite 0 1,
  .receive 5 ⟨59, 0, 0, 0, 0, .status 9 "DISC"⟩, .dhReader 5]

set_option synthInstance.maxSize 400 in
/-- What the two have got, and where `dh_reader` is. -/
theorem twoClients_run : (Run.run (step ⟨554, gapTimeout none⟩) twoClients
    (start ((PTCPSession.new 0).setAllowGapSkip false))).map (fun e =>
      (e.clients.map fun c =>
          (c.realm, c.service, [c.written, c.waiting, lookedUp c.realm e.notes]),
        [(e.channels.lookup 7).isSome, e.dhReader.concerns 0 7, e.dhReader.disconnects 7,
          e.dhReader.disconnects 9, (step ⟨554, gapTimeout none⟩ e (.dhReader 5)).isSome])) =
    some ([(7, .rtsp, [[1], [2], [1, 2]]), (9, .rtsp, [[], [3], [3]])],
      [true, false, false, true, true]) := by decide +kernel

theorem client_gets_stream_twoClients : ∃ e e' c d,
    Run.run (step ⟨554, gapTimeout none⟩) twoClients
      (start ((PTCPSession.new 0).setAllowGapSkip false)) = some e ∧
    e.clients = [c, d] ∧ c.written = [1] ∧ c.waiting = [2] ∧ lookedUp c.realm e.notes = [1, 2] ∧
    c.written <+: lookedUp c.realm e.notes ∧ step ⟨554, gapTimeout none⟩ e (.dhReader 5) = some e' ∧
    e'.clients[0]? = some c ∧ e'.channels.lookup c.realm = some 0 ∧
    e'.channels.lookup d.realm = none := by
  obtain ⟨e, hrun, hseen⟩ := Option.map_eq_some_iff.mp twoClients_run
  simp only [Prod.mk.injEq, List.cons.injEq, and_true] at hseen
  obtain ⟨hclients, hentry, hconcerns, hopen, hdisc, hsome⟩ := hseen
  obtain ⟨c, rest, hlist, hc, hrest⟩ := List.map_eq_cons_iff.mp hclients
  obtain ⟨d, rest', rfl, hd, hnil⟩ := List.map_eq_cons_iff.mp hrest
  obtain rfl := List.map_eq_nil_iff.mp hnil
  simp only [Prod.mk.injEq, List.cons.injEq, and_true] at hc hd
  obtain ⟨hrealm, hservice, hwritten, hwaiting, hlooked⟩ := hc
  obtain ⟨e', hstep⟩ := Option.isSome_iff_exists.mp hsome
  have hstream := @client_gets_stream ⟨554, gapTimeout none⟩
    ((PTCPSession.new 0).setAllowGapSkip false) twoClients e rfl rfl hrun
  have hfirst := hstream.2.2.2.2 0 c (by rw [hlist]; rfl)
  have hsecond := hstream.2.2.2.2 1 d (by rw [hlist]; rfl)
  refine ⟨e, e', c, d, hrun, hlist, hwritten, hwaiting, hlooked, (hfirst.2.2 hservice).2.1, hstep,
    ?_, ?_, ?_⟩
  · obtain ⟨c', hc', -, -, hkept⟩ := (hfirst.2.1 _ e' hstep).client
    rw [hkept (hrealm ▸ hconcerns)] at hc'
    exact hc'
  · obtain ⟨j, hj⟩ := Option.isSome_iff_exists.mp hentry
    rw [← hrealm] at hj hopen
    rw [(hfirst.2.1 _ e' hstep).entry, hj, hfirst.1 j hj]
    exact if_neg (Bool.eq_false_iff.mp hopen)
  · rw [(hsecond.2.1 _ e' hstep).entry]
    rw [← hd.1] at hdisc
    exact if_pos hdisc

end DahuaBridge.Engine
