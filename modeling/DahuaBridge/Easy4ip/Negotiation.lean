import DahuaBridge.Handshake.Udp
import DahuaBridge.Lib.Run

/-!
# The Easy4IP negotiation

The text protocol of `UDP` in `app/vendor/dh_p2p/helpers.py` and what `main` of
`app/vendor/dh_p2p/main.py` does with its main socket in direct transport, from the first
probe to the channel response or the start of the engine. One step takes one datagram from
the socket, or the error of a read that got none.

The addresses are those that the answers name. What a request says beside its path and its
`CSeq`, the requests that go over other sockets and log output are left out.
-/

namespace DahuaBridge.Easy4ip

/-! ## Requests and responses -/

/-- The requests whose response is read. -/
inductive Call
  | probeP2psrv
  | onlineP2psrv
  | onlineRelay
  | relayAgent
  deriving DecidableEq

/-- All requests. The response to the last three is not read by `request`. -/
inductive Path
  | call (call : Call)
  | p2pChannel
  | relayStart
  | relayChannel
  deriving DecidableEq

structure Endpoint where
  host : String
  port : Int
  deriving DecidableEq

/-- What `parse_response` returns. A field of the body is `none` where `main` cannot read it. -/
structure Response where
  code : Int
  status : String
  /-- The header `CSeq`, or `""`. -/
  cseq : String
  ds : Option Endpoint := none
  us : Option Endpoint := none
  address : Option Endpoint := none
  token : Option String := none
  agent : Option Endpoint := none
  deriving DecidableEq

inductive Datagram
  /-- It is not UTF-8, or it starts with neither `DH` nor `HTTP/`. -/
  | other (data : Bytes)
  /-- `parse_response` raises. -/
  | malformed
  | response (response : Response)
  deriving DecidableEq

/-- What a read of the socket gets. -/
inductive Event
  | datagram (datagram : Datagram)
  /-- `OSError` or `socket.timeout`. -/
  | error
  deriving DecidableEq

structure Config where
  /-- `main_server` and `main_port`. -/
  server : Endpoint
  /-- The request ids that were drawn. A retry of `p2p-channel` takes the first one again. -/
  cseq : Path → Int
  /-- `P2P_WAIT_FOR_CHANNEL_RESPONSE`. -/
  waitForChannelResponse : Bool

/-- `response_cseq and response_cseq != str(request_cseq)`. -/
def Response.isForeign (r : Response) (requestCseq : Int) : Bool :=
  r.cseq ≠ "" && r.cseq ≠ toString requestCseq

/-! ## State -/

/-- Where `main` is. -/
inductive Point
  /-- In the loop of `request`, with so many reads to go after the next one. -/
  | request (call : Call) (left : Nat)
  /-- Waits for the channel response for the first time. -/
  | natInfo
  | relayChannel
  /-- In the loop of `read_ptcp`, with so many reads to go after the next one. -/
  | relaySync (left : Nat)
  /-- Waits for the channel response in the retry loop. -/
  | channelAttempt (attempt : Nat)
  /-- The retry loop has `res`. -/
  | channel (res : Response)
  | launched
  /-- `sys.exit(1)`. -/
  | exited
  /-- An exception that ends the use of the socket. -/
  | raised
  deriving DecidableEq

structure Sent where
  path : Path
  cseq : Int
  remote : Endpoint
  deriving DecidableEq

structure UDP where
  remote : Endpoint
  lastRequestCseq : Option Int := none
  pendingResponses : List Response := []
  /-- The requests that went out. -/
  sent : List Sent := []
  deriving DecidableEq

/-- What became of a response. -/
inductive Fate
  | queued
  | ignored
  | returned
  /-- `read` has called `sys.exit`. -/
  | exited
  /-- It was the last one that the loop of `request` reads. -/
  | gaveUp
  /-- `read_ptcp` looks for something else. -/
  | skipped
  deriving DecidableEq

structure Reading where
  point : Point
  response : Response
  fate : Fate
  deriving DecidableEq

structure Main where
  udp : UDP
  point : Point
  /-- The datagrams that the loop of `read` has passed over. -/
  unexpected : Nat := 0
  agent : Option Endpoint := none
  /-- All responses read, in order. -/
  log : List Reading := []
  deriving DecidableEq

/-! ## Pieces -/

namespace Main

def goTo (m : Main) (point : Point) : Main := { m with point, unexpected := 0 }

def setRemote (m : Main) (remote : Endpoint) : Main := { m with udp := { m.udp with remote } }

/-- `request` up to the point where the datagram is sent. -/
def sendRequest (config : Config) (m : Main) (path : Path) : Main :=
  { m with udp := { m.udp with
      lastRequestCseq := some (config.cseq path)
      sent := m.udp.sent ++ [⟨path, config.cseq path, m.udp.remote⟩] } }

/-- `request`, up to its first read. -/
def startRequest (config : Config) (m : Main) (call : Call) : Main :=
  (m.sendRequest config (.call call)).goTo (.request call 9)

def queue (m : Main) (r : Response) : Main :=
  { m with udp := { m.udp with pendingResponses := m.udp.pendingResponses ++ [r] } }

/-- Notes down what becomes of a response. -/
def note (m : Main) (r : Response) (fate : Fate) : Main :=
  { m with log := m.log ++ [⟨m.point, r, fate⟩] }

/-- `read`, and what its caller does with the response. -/
def read (m : Main) (returnError : Bool) (d : Datagram) (use : Response → Main) : Main :=
  match d with
  | .other _ =>
    if m.unexpected + 1 < 10 then { m with unexpected := m.unexpected + 1 } else m.goTo .raised
  | .malformed => m.goTo .raised
  | .response r => if !returnError && 400 ≤ r.code then (m.note r .exited).goTo .exited else use r

end Main

/-- The first loop of `read_for_cseq`: the first queued response with the request id leaves the
queue. Nothing calls it. -/
def UDP.takePending (udp : UDP) (requestCseq : Int) : Option Response × UDP :=
  match udp.pendingResponses.find? (·.cseq = toString requestCseq) with
  | some r => (some r, { udp with pendingResponses := udp.pendingResponses.erase r })
  | none => (none, udp)

namespace Main

/-! ## `request` and what follows it -/

/-- The first wait for the channel response, after `setup_relay_agent`. -/
def startWait (config : Config) (m : Main) : Main :=
  (m.setRemote config.server).goTo
    (if config.waitForChannelResponse then .channelAttempt 1 else .natInfo)

/-- `main` has the response to a request. -/
def proceed (config : Config) (m : Main) (r : Response) : Call → Main
  | .probeP2psrv => m.startRequest config .onlineP2psrv
  | .onlineP2psrv =>
    match r.ds, r.us with
    | some _, some _ =>
      -- the device is asked over other sockets; then `p2p-channel` and `setup_relay_agent`
      let m := (m.setRemote config.server).sendRequest config .p2pChannel
      (m.setRemote config.server).startRequest config .onlineRelay
    | _, _ => m.goTo .raised
  | .onlineRelay =>
    match r.address with
    | some relay => (m.setRemote relay).startRequest config .relayAgent
    | none => m.goTo .raised
  | .relayAgent =>
    match r.token, r.agent with
    | some _, some agent =>
      let m := (({ m with agent := some agent }).setRemote agent).sendRequest config .relayStart
      m.startWait config
    | _, _ => m.goTo .raised

/-- The body of the loop of `request`. -/
def request (config : Config) (m : Main) (call : Call) (left : Nat) (r : Response) : Main :=
  let again (m : Main) (fate : Fate) : Main :=
    match left with
    | 0 => (m.note r .gaveUp).goTo .raised
    | left + 1 => (m.note r fate).goTo (.request call left)
  if r.isForeign (config.cseq (.call call)) then again (m.queue r) .queued
  else if r.code < 200 then again m .ignored
  else (m.note r .returned).proceed config r call

/-! ## The waits for the channel response -/

/-- The retry loop of `main`, from its start. -/
def fallBack (config : Config) (m : Main) : Main :=
  (m.setRemote config.server).goTo (.channelAttempt 1)

def natInfo (config : Config) (m : Main) (r : Response) : Main :=
  if r.code < 200 then (m.note r .ignored).goTo .natInfo
  else if 400 ≤ r.code then (m.note r .returned).fallBack config
  else
    let m := ((m.note r .returned).setRemote config.server).sendRequest config .relayChannel
    (m.setRemote (m.agent.getD config.server)).goTo .relayChannel

def relayChannel (config : Config) (m : Main) (r : Response) : Main :=
  if r.code < 200 then (m.note r .ignored).goTo .relayChannel
  else if 400 ≤ r.code then (m.note r .returned).fallBack config
  else (m.note r .returned).goTo (.relaySync 19)

/-- `read_ptcp` has not found a PTCP packet yet. -/
def skipDatagram (m : Main) : Nat → Main
  | 0 => m.goTo .raised
  | left + 1 => m.goTo (.relaySync left)

def relaySync (config : Config) (m : Main) (left : Nat) : Datagram → Main
  | .other data =>
    if 4 ≤ data.length ∧ data.take 4 = magic then
      match PTCP.parse data with
      | none => m.goTo .raised
      | some ptcp => if ptcp.body = syncBytes then m.goTo .launched else m.fallBack config
    else m.skipDatagram left
  | .malformed => m.skipDatagram left
  | .response r => (m.note r .skipped).skipDatagram left

def channelAttempt (m : Main) (attempt : Nat) (r : Response) : Main :=
  if r.code < 200 then (m.note r .ignored).goTo (.channelAttempt attempt)
  else (m.note r .returned).goTo (.channel r)

/-- The next round of the retry loop, which asks for the channel again. -/
def retry (config : Config) (m : Main) (attempt : Nat) : Main :=
  if attempt < 5 then
    ((m.setRemote config.server).sendRequest config .p2pChannel).goTo (.channelAttempt (attempt + 1))
  else m.goTo .raised

end Main

/-! ## Steps -/

def step (config : Config) (m : Main) (event : Event) : Option Main :=
  match m.point, event with
  | .request call left, .datagram d => some (m.read false d (m.request config call left))
  | .request _ _, .error => some (m.goTo .raised)
  | .natInfo, .datagram d => some (m.read true d (m.natInfo config))
  | .natInfo, .error => some (m.fallBack config)
  | .relayChannel, .datagram d => some (m.read true d (m.relayChannel config))
  | .relayChannel, .error => some (m.fallBack config)
  | .relaySync left, .datagram d => some (m.relaySync config left d)
  | .relaySync _, .error => some (m.fallBack config)
  | .channelAttempt attempt, .datagram d => some (m.read true d (m.channelAttempt attempt))
  | .channelAttempt attempt, .error => some (m.retry config attempt)
  | .channel _, _ => none
  | .launched, _ => none
  | .exited, _ => none
  | .raised, _ => none

/-- The socket of the server that is probed. -/
def start (config : Config) : Main :=
  ({ udp := { remote := config.server }, point := .request .probeP2psrv 9 } : Main).sendRequest
    config (.call .probeP2psrv)

end DahuaBridge.Easy4ip
