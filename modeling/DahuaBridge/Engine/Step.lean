import DahuaBridge.Engine.State
import DahuaBridge.Lib.Run

/-!
# The tunnel engine: steps

The tasks of `rust-engine/src/main.rs` and `rust-engine/src/process.rs`, one step at a time
and in any order. Any number of clients may connect. What comes from outside (the datagrams,
the clients, the clock, the failures) is in the event.

The realm ids are those of runs in which `rand::random` does not repeat itself. Log output
is left out, and so is `http_request`, which `process_reader` fills and never reads.
-/

namespace DahuaBridge.Engine

/-- The arguments of the process that matter here. -/
structure Config where
  remotePort : U32
  gapTimeout : Duration

inductive Event
  /-- A connection whose `handle_client` has drawn its realm. -/
  | accept (service : Service) (realm : U32)
  | handleClient (i : Nat) (localAddress : Option HttpRewriteConfig)
  | bindTimeout (i : Nat)
  | clientRead (i : Nat) (data : Bytes)
  /-- The end of the input, or an error. -/
  | clientClosed (i : Nat)
  | processReader (i : Nat)
  | processWriter (i : Nat)
  /-- The socket takes some bytes. -/
  | clientWrite (i n : Nat)
  | writeError (i : Nat)
  | heartbeat
  | dhWriterRecv
  | dhWriterSend (now : Instant)
  | receive (now : Instant) (packet : PTCPPacket)
  | dhReader (now : Instant)
  | retransmit (now : Instant)
  /-- `restart_on_socket_error`, or a receive that was idle for too long. -/
  | socketError

/-! ## Pieces -/

def setClient (e : Engine) (i : Nat) (c : Client) : Engine :=
  { e with clients := e.clients.set i c }

/-- `dh_tx.send(event).await`, when there is room. -/
def enqueue (e : Engine) (event : PTCPEvent) : Option Engine :=
  if e.dhQueue.length < 128 then some { e with dhQueue := e.dhQueue ++ [event] } else none

/-- `session.lock().unwrap().send(body)`. -/
def sendBody (e : Engine) (now : Instant) (body : PTCPBody) : Engine :=
  let (packet, session) := e.session.send now body
  { e with session, sent := e.sent ++ [packet] }

def note (e : Engine) (n : Note) : Engine := { e with notes := e.notes ++ [n] }

/-- `channels.lock().unwrap().remove(&realm_id)` by a task of the client. -/
def removeChannel (e : Engine) (realm : U32) : Engine :=
  { e with channels := e.channels.erase realm }.note (.closed realm)

/-- `rx.recv()` does not return `None` as long as there is a sender. -/
def hasSender (e : Engine) (i : Nat) : Bool :=
  e.channels.entries.any (fun entry => entry.2 = i) ||
    match e.dhReader with
    | .forward j _ _ => j = i
    | _ => false

/-- The permit of a connection goes back to `onvif_slots`. -/
def releasePermit (e : Engine) (c : Client) : Engine :=
  if c.service = .onvif then { e with onvifSlots := e.onvifSlots + 1 } else e

/-! ## Tasks of a client -/

def remotePort (config : Config) : Service → U32
  | .rtsp => config.remotePort
  | .onvif => 80

/-- `handle_client` up to the point where the channel of its realm is in `channels`. -/
def accept (e : Engine) (service : Service) (realm : U32) : Option Engine :=
  if ∀ c ∈ e.clients, c.realm ≠ realm then
    match service, e.onvifSlots with
    | .onvif, 0 => none
    | .onvif, slots + 1 =>
      some { e with
        onvifSlots := slots
        channels := e.channels.insert realm e.clients.length
        clients := e.clients ++ [{ realm, service }]
        notes := e.notes ++ [.opened realm] }
    | .rtsp, _ =>
      some { e with
        channels := e.channels.insert realm e.clients.length
        clients := e.clients ++ [{ realm, service }]
        notes := e.notes ++ [.opened realm] }
  else none

def handleClient (config : Config) (e : Engine) (i : Nat) (localAddress : Option HttpRewriteConfig)
    (c : Client) : Option Engine :=
  match c.handler with
  | .insertConn =>
    some ({ e with connChannels := e.connChannels.insert c.realm i }.setClient i
      { c with handler := .sendConnect })
  | .sendConnect =>
    (e.setClient i { c with handler := .waitConn }).enqueue
      (.connect c.realm (remotePort config c.service))
  | .waitConn =>
    match c.conn with
    | .waiting => none
    | .dropped => some (e.setClient i { c with handler := .removeChannel })
    | .connected =>
      let writer := match c.service, localAddress with
        | .onvif, some rewrite => ProcessWriter.collecting rewrite []
        | _, _ => .receiving
      let onvifRealm := if c.service = .onvif then some c.realm else e.onvifRealm
      some ({ e with onvifRealm }.setClient i { c with handler := .done, reader := .reading, writer })
  | .removeChannel => some ((e.removeChannel c.realm).setClient i { c with handler := .removeConn })
  | .removeConn =>
    some ({ e with connChannels := e.connChannels.erase c.realm }.setClient i
      { c with handler := .exit })
  | .exit => some { e with exited := true }
  | .done => none

def bindTimeout (e : Engine) (i : Nat) (c : Client) : Option Engine :=
  if c.handler = .waitConn ∧ c.conn = .waiting then
    some (e.setClient i { c with handler := .removeChannel })
  else none

def clientRead (e : Engine) (i : Nat) (data : Bytes) (c : Client) : Option Engine :=
  -- the buffer has 4096 bytes
  if c.reader = .reading ∧ 1 ≤ data.length ∧ data.length ≤ 4096 then
    some (e.setClient i { c with reader := .sendData data, readBytes := c.readBytes ++ data })
  else none

def clientClosed (e : Engine) (i : Nat) (c : Client) : Option Engine :=
  if c.reader = .reading then
    some (e.setClient i { c with reader := if c.service = .rtsp then .sendDisconnect else .done })
  else none

def processReader (e : Engine) (i : Nat) (c : Client) : Option Engine :=
  match c.reader with
  | .sendData data => (e.setClient i { c with reader := .reading }).enqueue (.data c.realm data)
  | .sendDisconnect =>
    (e.setClient i { c with reader := .removeChannel }).enqueue (.disconnect c.realm)
  | .removeChannel => some ((e.removeChannel c.realm).setClient i { c with reader := .done })
  | _ => none

/-- The answer to an ONVIF request, if there is one. -/
def answerStage (config : HttpRewriteConfig) (response : Bytes) : ProcessWriter :=
  if response.isEmpty then .removeChannel else .answering (answer config response)

/-- `rx.recv()` in `process_writer`, and its last step. -/
def processWriter (e : Engine) (i : Nat) (c : Client) : Option Engine :=
  match c.writer with
  | .receiving =>
    match c.rx with
    | data :: rx => some (e.setClient i { c with writer := .writing data, rx })
    | [] =>
      if e.hasSender i then none
      else some ((e.releasePermit c).setClient i { c with writer := .closed })
  | .collecting config response =>
    match c.rx with
    | data :: rx =>
      let response := response ++ data
      let writer := if httpResponseComplete response then answerStage config response
        else .collecting config response
      some (e.setClient i { c with writer, rx })
    | [] =>
      if e.hasSender i then none
      else some (e.setClient i { c with writer := answerStage config response })
  | .removeChannel =>
    some (((e.removeChannel c.realm).releasePermit c).setClient i { c with writer := .closed })
  | _ => none

/-- A part of `write_all`. -/
def clientWrite (e : Engine) (i n : Nat) (c : Client) : Option Engine :=
  match c.writer with
  | .writing left =>
    if n ≤ left.length ∧ (0 < n ∨ left = []) then
      let writer := if left.drop n = [] then .receiving else .writing (left.drop n)
      some (e.setClient i { c with writer, written := c.written ++ left.take n })
    else none
  | .answering left =>
    if n ≤ left.length ∧ (0 < n ∨ left = []) then
      let writer := if left.drop n = [] then .removeChannel else .answering (left.drop n)
      some (e.setClient i { c with writer, written := c.written ++ left.take n })
    else none
  | _ => none

def writeError (e : Engine) (i : Nat) (c : Client) : Option Engine :=
  match c.writer with
  | .writing _ => some ((e.releasePermit c).setClient i { c with writer := .failed })
  -- the result of the write is not looked at
  | .answering _ => some (e.setClient i { c with writer := .removeChannel })
  | _ => none

/-! ## Tasks of the session -/

def dhWriterRecv (e : Engine) : Option Engine :=
  match e.dhWriter, e.dhQueue with
  | none, event :: dhQueue => some { e with dhWriter := some event, dhQueue }
  | _, _ => none

def dhWriterSend (e : Engine) (now : Instant) : Option Engine :=
  match e.dhWriter with
  | some event => some ({ e with dhWriter := none }.sendBody now event.body)
  | none => none

/-- `ptcp_read`, and `recv` on the session. -/
def receive (config : Config) (e : Engine) (now : Instant) (packet : PTCPPacket) : Option Engine :=
  match e.dhReader with
  | .reading =>
    let (packets, session) := e.session.recvPacket config.gapTimeout now packet
    some { e with
      session
      delivered := e.delivered ++ packets
      dhReader := if packet.body = .empty then .handle packets else .acknowledge packets }
  | _ => none

/-- The client that has left its sender in `conn_channels` gets `true`, or sees it dropped. -/
def signalConn (e : Engine) (realm : U32) (conn : ConnResult) : Engine :=
  match e.connChannels.lookup realm with
  | some i => { e with
      connChannels := e.connChannels.erase realm
      clients := e.clients.modify i fun c => { c with conn } }
  | none => e

/-- The first step of `dh_reader` for a packet. -/
def handlePacket (e : Engine) (packet : PTCPPacket) (packets : List PTCPPacket) : Engine :=
  let e := e.note (.handled packet)
  match packet.body with
  | .status realm status =>
    if status = "CONN" then { e.signalConn realm .connected with dhReader := .handle packets }
    else if status = "DISC" then
      { e with channels := e.channels.erase realm, dhReader := .removeConn realm packets }
    else { e with dhReader := .handle packets }
  | .payload p =>
    match e.channels.lookup p.realm with
    | some i => { e with dhReader := .forward i p.data packets }
    | none => { e with dhReader := .handle packets }
  | _ => { e with dhReader := .handle packets }

/-- `tx.send(data)`. It is an error if `process_writer` has ended. -/
def Client.send (c : Client) (data : Bytes) : Client :=
  match c.writer with
  | .closed => c
  | .failed => c
  | _ => { c with rx := c.rx ++ [data] }

def forward (e : Engine) (i : Nat) (data : Bytes) : Engine :=
  { e with clients := e.clients.modify i (·.send data) }

def dhReaderStep (e : Engine) (now : Instant) : Option Engine :=
  match e.dhReader with
  | .reading => none
  | .acknowledge packets => some { e.sendBody now .empty with dhReader := .handle packets }
  | .handle [] => some { e with dhReader := .reading }
  | .handle (packet :: packets) => some (e.handlePacket packet packets)
  | .forward i data packets => some { e.forward i data with dhReader := .handle packets }
  | .removeConn realm packets =>
    some { e.signalConn realm .dropped with dhReader := .closeOnvif realm packets }
  | .closeOnvif realm packets =>
    some { e with
      onvifRealm := if e.onvifRealm = some realm then none else e.onvifRealm
      dhReader := .handle packets }

/-- The loop that retransmits. The packets that are due go to the socket. -/
def retransmit (e : Engine) (now : Instant) : Engine :=
  let (_, session) := e.session.dueRetransmissions now
  { e with session, exited := session.hasRetransmissionStall now }

/-! ## Steps -/

/-- A step of the task of client `i`. -/
def clientStep (e : Engine) (i : Nat) (task : Client → Option Engine) : Option Engine :=
  match e.clients[i]? with
  | some c => task c
  | none => none

def step (config : Config) (e : Engine) (event : Event) : Option Engine :=
  if e.exited then none
  else match event with
    | .accept service realm => e.accept service realm
    | .handleClient i localAddress => e.clientStep i (handleClient config e i localAddress)
    | .bindTimeout i => e.clientStep i (e.bindTimeout i)
    | .clientRead i data => e.clientStep i (e.clientRead i data)
    | .clientClosed i => e.clientStep i (e.clientClosed i)
    | .processReader i => e.clientStep i (e.processReader i)
    | .processWriter i => e.clientStep i (e.processWriter i)
    | .clientWrite i n => e.clientStep i (e.clientWrite i n)
    | .writeError i => e.clientStep i (e.writeError i)
    | .heartbeat => e.enqueue .heartbeat
    | .dhWriterRecv => e.dhWriterRecv
    | .dhWriterSend now => e.dhWriterSend now
    | .receive now packet => receive config e now packet
    | .dhReader now => e.dhReaderStep now
    | .retransmit now => some (e.retransmit now)
    | .socketError => some { e with exited := true }

/-- The engine that adopts a session. -/
def start (session : PTCPSession) : Engine := { session }

/-! ## What the steps do to the clients -/

section Clients

variable {e e' : Engine} {i j : Nat} {c c' : Client}

/-- A new client has a realm that no other has, and joins at the end. -/
theorem accept_eq_some {service : Service} {realm : U32} (h : e.accept service realm = some e') :
    (∀ c ∈ e.clients, c.realm ≠ realm) ∧ ∃ onvifSlots, e' = { e with
      onvifSlots
      channels := e.channels.insert realm e.clients.length
      clients := e.clients ++ [{ realm, service }]
      notes := e.notes ++ [.opened realm] } := by
  unfold accept at h
  split at h
  · next hfresh =>
    split at h
    · cases h
    · cases h
      exact ⟨hfresh, _, rfl⟩
    · cases h
      exact ⟨hfresh, _, rfl⟩
  · cases h

theorem nodup_realms_concat (h : (e.clients.map Client.realm).Nodup)
    (hfresh : ∀ d ∈ e.clients, d.realm ≠ c.realm) :
    ((e.clients ++ [c]).map Client.realm).Nodup := by
  rw [List.map_append, List.map_singleton, List.nodup_append]
  refine ⟨h, List.nodup_singleton _, fun r hr r' hr' => ?_⟩
  obtain ⟨d, hd, rfl⟩ := List.mem_map.mp hr
  rw [List.mem_singleton.mp hr']
  exact hfresh d hd

/-- A client of the longer list is an old one or the new one. -/
theorem getElem?_concat_cases {clients : List Client} (h : (clients ++ [c])[i]? = some c') :
    i < clients.length ∧ clients[i]? = some c' ∨ i = clients.length ∧ c' = c := by
  rcases Nat.lt_trichotomy i clients.length with hlt | rfl | hgt
  · rw [List.getElem?_append_left hlt] at h
    exact .inl ⟨hlt, h⟩
  · rw [List.getElem?_concat_length] at h
    exact .inr ⟨rfl, (Option.some.inj h).symm⟩
  · rw [List.getElem?_eq_none (by rw [List.length_append]; exact hgt)] at h
    cases h

theorem clientStep_eq_some {task : Client → Option Engine} (h : e.clientStep i task = some e') :
    ∃ c, e.clients[i]? = some c ∧ task c = some e' := by
  unfold Engine.clientStep at h
  split at h
  · next c hc => exact ⟨c, hc, h⟩
  · cases h

theorem enqueue_eq_some {event : PTCPEvent} (h : e.enqueue event = some e') :
    e' = { e with dhQueue := e.dhQueue ++ [event] } := by
  unfold enqueue at h
  split at h
  · exact (Option.some.inj h).symm
  · cases h

theorem getElem?_setClient (hc : e.clients[i]? = some c) :
    (e.setClient i c').clients[j]? = if i = j then some c' else e.clients[j]? := by
  have hi : i < e.clients.length := (List.getElem?_eq_some_iff.mp hc).1
  show (e.clients.set i c')[j]? = _
  rw [List.getElem?_set, if_pos hi]

/-- A step of one client that keeps what `f` reads keeps it for the list. -/
theorem map_setClient {β : Type*} {f : Client → β} (hc : e.clients[i]? = some c) (hf : f c' = f c) :
    (e.setClient i c').clients.map f = e.clients.map f := by
  refine List.ext_getElem? fun j => ?_
  rw [List.getElem?_map, getElem?_setClient hc, List.getElem?_map]
  split
  · next hij => rw [← hij, hc, Option.map_some, Option.map_some, hf]
  · rfl

/-- Two clients with one realm are one. -/
theorem index_inj (h : (e.clients.map Client.realm).Nodup) (hi : e.clients[i]? = some c)
    (hj : e.clients[j]? = some c') (hrealm : c.realm = c'.realm) : i = j := by
  have hmap {k : Nat} {d : Client} (hk : e.clients[k]? = some d) :
      (e.clients.map Client.realm)[k]? = some d.realm := by rw [List.getElem?_map, hk]; rfl
  have hlt : i < (e.clients.map Client.realm).length := by
    rw [List.length_map]
    exact (List.getElem?_eq_some_iff.mp hi).1
  exact (List.getElem?_inj hlt h).mp ((hmap hi).trans (hrealm ▸ (hmap hj).symm))

@[simp] theorem clients_releasePermit : (e.releasePermit c).clients = e.clients := by
  unfold Engine.releasePermit
  split <;> rfl

theorem modify_eq_set_of_getElem? {α : Type*} {l : List α} {a : α} {f : α → α} (h : l[i]? = some a) :
    l.modify i f = l.set i (f a) := by
  have hi : i < l.length := (List.getElem?_eq_some_iff.mp h).1
  refine List.ext_getElem? fun k => ?_
  rw [List.getElem?_set, if_pos hi]
  split
  · next hik => rw [← hik, List.getElem?_modify_eq, h, Option.map_eq_map, Option.map_some]
  · next hik => rw [List.getElem?_modify_ne f l hik]

@[simp] theorem Client.send_realm (c : Client) (data : Bytes) : (c.send data).realm = c.realm := by
  unfold Client.send
  split <;> rfl

@[simp] theorem Client.send_service (c : Client) (data : Bytes) :
    (c.send data).service = c.service := by
  unfold Client.send
  split <;> rfl

@[simp] theorem Client.send_handler (c : Client) (data : Bytes) :
    (c.send data).handler = c.handler := by
  unfold Client.send
  split <;> rfl

@[simp] theorem Client.send_writer (c : Client) (data : Bytes) :
    (c.send data).writer = c.writer := by
  unfold Client.send
  split <;> rfl

end Clients

end DahuaBridge.Engine
