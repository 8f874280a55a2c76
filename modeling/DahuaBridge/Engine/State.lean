import DahuaBridge.Http.Relay
import DahuaBridge.Ptcp.Session

/-!
# The tunnel engine: state

What the tasks of `rust-engine/src/main.rs` share (the PTCP session, the channel maps, the
queue to the writer task) and where each task is. A task is at one of the points where
another one may come in between: an `await`, or the release of a lock.

The unbounded channel of a client is the list `rx` of its chunks, and the sender that the
map `channels` holds for it is the index of the client. The model also notes down what was
sent, received, read and written.
-/

namespace DahuaBridge

namespace Engine

/-- `PTCPEvent`. -/
inductive PTCPEvent
  | heartbeat
  | connect (realm remotePort : U32)
  | disconnect (realm : U32)
  | data (realm : U32) (data : Bytes)
  deriving DecidableEq

/-- The body that `dh_writer` sends for an event. -/
def PTCPEvent.body : PTCPEvent → PTCPBody
  | heartbeat => .heartbeat
  | connect realm remotePort => .bind realm remotePort
  | disconnect realm => .status realm "DISC"
  | data realm bytes => .payload { realm, data := bytes }

inductive Service
  | rtsp
  | onvif
  deriving DecidableEq

/-! ## Tasks -/

/-- `handle_client`, once it has put the channel of its realm into `channels`. -/
inductive HandleClient
  | insertConn
  | sendConnect
  | waitConn
  /-- The bind has failed: the realm is removed from both maps, and the process exits. -/
  | removeChannel
  | removeConn
  | exit
  | done
  deriving DecidableEq

/-- `process_reader`. -/
inductive ProcessReader
  | notSpawned
  | reading
  | sendData (data : Bytes)
  | sendDisconnect
  | removeChannel
  | done
  deriving DecidableEq

/-- `process_writer`. The last three steps are those with `http_rewrite`. -/
inductive ProcessWriter
  | notSpawned
  | receiving
  | writing (left : Bytes)
  /-- All senders are gone and the channel is empty. -/
  | closed
  /-- A write was an error. -/
  | failed
  | collecting (config : HttpRewriteConfig) (response : Bytes)
  | answering (left : Bytes)
  | removeChannel

/-- What `conn_rx` has got. -/
inductive ConnResult
  | waiting
  | connected
  | dropped
  deriving DecidableEq

structure Client where
  realm : U32
  service : Service
  handler : HandleClient := .insertConn
  conn : ConnResult := .waiting
  reader : ProcessReader := .notSpawned
  writer : ProcessWriter := .notSpawned
  rx : List Bytes := []
  /-- All that was read from the socket. -/
  readBytes : Bytes := []
  /-- All that the socket has taken. -/
  written : Bytes := []

/-- `dh_reader`. The list is what is left of the packets that `recv` has returned. -/
inductive DhReader
  | reading
  | acknowledge (packets : List PTCPPacket)
  | handle (packets : List PTCPPacket)
  /-- The sender of client `i` was looked up and is not used yet. -/
  | forward (i : Nat) (data : Bytes) (packets : List PTCPPacket)
  | removeConn (realm : U32) (packets : List PTCPPacket)
  | closeOnvif (realm : U32) (packets : List PTCPPacket)

/-- The packets that `dh_reader` has yet to look at. -/
def DhReader.left : DhReader → List PTCPPacket
  | reading => []
  | acknowledge packets => packets
  | handle packets => packets
  | forward _ _ packets => packets
  | removeConn _ packets => packets
  | closeOnvif _ packets => packets

/-! ## The engine -/

/-- What happens to the entry of a realm in `channels`, and the packets that `dh_reader`
looks at, in their order. -/
inductive Note
  | opened (realm : U32)
  | closed (realm : U32)
  | handled (packet : PTCPPacket)

end Engine

open Engine in
structure Engine where
  session : PTCPSession
  channels : AList fun _ : U32 => Nat := ∅
  connChannels : AList fun _ : U32 => Nat := ∅
  onvifRealm : Option U32 := none
  onvifSlots : Nat := 1
  /-- The channel `dh_tx`, `dh_rx`. -/
  dhQueue : List PTCPEvent := []
  /-- The event that `dh_writer` has taken and not sent yet. -/
  dhWriter : Option PTCPEvent := none
  dhReader : DhReader := .reading
  clients : List Client := []
  exited : Bool := false
  /-- The packets that `send` has returned. -/
  sent : List PTCPPacket := []
  /-- The packets that `recv` has returned. -/
  delivered : List PTCPPacket := []
  notes : List Note := []

end DahuaBridge
