import Mathlib.Algebra.Order.Ring.Rat
import Mathlib.Logic.Function.Basic
import DahuaBridge.Lib.Python

/-!
# The state of the P2P manager

The data of `app/p2p_manager.py`: `ServiceState`, `WorkerState` and `P2PManager`,
with the threads that act on them.

Objects that the code compares by identity live in two heaps and are named by
their place there. A process belongs to exactly one `ServiceState`, and exactly
one `_read_output` thread reads it, so the three share a heap entry. The same
holds for a worker and its `_start_onvif_after_rtsp` thread.

`onvif_server` and `proxy_process` of a worker are never set, and no caller asks
for the service `"both"`; these are left out. Times are rational seconds.
-/

namespace DahuaBridge

/-! ## Cameras -/

inductive Vendor where
  | dahua
  | policetech
  | imou
  deriving DecidableEq, Repr

inductive VideoStream where
  | main
  | sub
  deriving DecidableEq, Repr

abbrev CameraId := Int

/-- A row of the table `cameras`, which is also the dict that the manager gets. -/
structure Camera where
  id : CameraId
  name : String
  vendor : Vendor
  serial : String
  username : String
  passwordEnc : String
  channel : Int
  stream : VideoStream
  enabled : Bool
  motionEnabled : Bool
  synologyWebhook : Option String
  status : String
  lastError : Option String
  deriving DecidableEq, Repr

/-- `camera["vendor"] in ("dahua", "policetech")`. -/
def Vendor.hasP2P (vendor : Vendor) : Bool := vendor = .dahua || vendor = .policetech

/-! ## Settings -/

inductive Backend where
  | engine
  | vendor
  deriving DecidableEq

/-- The environment variables and constructor arguments that the manager reads. -/
structure Config where
  backend : Backend := .engine
  firstPort : Int := 15540
  maxCameras : Int := 30
  /-- `P2P_LOG_HISTORY`. -/
  logHistory : Nat := 10000
  transientRetrySeconds : Nat := 15
  /-- `P2P_ONVIF_WAIT_FOR_RTSP_SECONDS`. -/
  onvifWaitForRtsp : ℚ := 90

/-- `LOG_HISTORY_LIMIT`. -/
def Config.logHistoryLimit (cfg : Config) : Nat := max 500 cfg.logHistory

/-- `wait_seconds`. -/
def Config.waitSeconds (cfg : Config) : ℚ := max 10 cfg.onvifWaitForRtsp

def TRANSIENT_FAILURE_MARKERS : List String :=
  ["timed out", "temporary failure in name resolution", "connection refused", "timeout occurred",
    "did not return nat info", "did not return p2p channel",
    "did not return authentication salt", "devpwd_invalidsalt",
    "encrypted p2p channel response did not include nonce",
    "p2p channel response missing required fields", "no easy4ip p2p server responded"]

/-- `port_for`; `none` is its `ValueError`. -/
def Config.portFor (cfg : Config) (camera : CameraId) : Option Int :=
  if camera < 1 ∨ cfg.maxCameras < camera then none else some (cfg.firstPort + camera - 1)

def Config.onvifPortFor (cfg : Config) (camera : CameraId) : Option Int :=
  (cfg.portFor camera).map (· + 1000)

/-! ## Services -/

inductive Service where
  | rtsp
  | onvif
  deriving DecidableEq, Repr

/-- `service.upper()`. -/
def Service.tag : Service → String
  | rtsp => "RTSP"
  | onvif => "ONVIF"

inductive Status where
  | connecting
  | online
  | error
  | stopped
  deriving DecidableEq, Repr

/-- The command that a process was started with. -/
inductive Launch where
  /-- `app.vendor.dh_p2p.main`, from `_start_service`. -/
  | engine (service : Service) (bindPort publicRtspPort : Int) (serial username password : String)
  /-- The Wine worker, from `_start_vendor_service`, with its port map. -/
  | vendor (serial username password : String) (map : Int × Int)
  deriving DecidableEq

structure Process where
  launch : Launch
  /-- `none` while the process is alive. -/
  returncode : Option Int := none

structure ServiceState where
  process : Process
  service : Service
  status : Status := .connecting
  lastError : Option String := none
  reconnectAttempt : Nat := 0
  onlineSince : Option ℚ := none
  readyEvent : Bool := false

abbrev ServiceRef := Nat
abbrev WorkerRef := Nat

/-- The dict `services` of a worker, in its insertion order. -/
structure Services where
  rtsp : Option ServiceRef := none
  onvif : Option ServiceRef := none

namespace Services

def get (services : Services) : Service → Option ServiceRef
  | .rtsp => services.rtsp
  | .onvif => services.onvif

def set (services : Services) (service : Service) (ref : ServiceRef) : Services :=
  match service with
  | .rtsp => { services with rtsp := some ref }
  | .onvif => { services with onvif := some ref }

def values (services : Services) : List ServiceRef := services.rtsp.toList ++ services.onvif.toList

@[simp] theorem get_set_self (services : Services) (service : Service) (ref : ServiceRef) :
    (services.set service ref).get service = some ref := by cases service <;> rfl

theorem get_set_ne (services : Services) {service service' : Service} (ref : ServiceRef)
    (h : service' ≠ service) : (services.set service ref).get service' = services.get service' := by
  cases service <;> cases service' <;> first | rfl | exact absurd rfl h

theorem mem_values {services : Services} {ref : ServiceRef} :
    ref ∈ services.values ↔ ∃ service, services.get service = some ref := by
  simp only [values, List.mem_append, Option.mem_toList]
  constructor
  · rintro (h | h)
    · exact ⟨.rtsp, h⟩
    · exact ⟨.onvif, h⟩
  · rintro ⟨service, h⟩
    cases service with
    | rtsp => exact .inl h
    | onvif => exact .inr h

end Services

/-- A line of a worker's log: what a process has printed, or a message of the manager. -/
inductive LogLine where
  | printed (ref : ServiceRef) (service : Service) (line : String)
  | message (text : String)
  deriving DecidableEq

def LogLine.text : LogLine → String
  | printed _ service line => "[P2P] [" ++ service.tag ++ "] " ++ line
  | message text => text

structure WorkerState where
  port : Int
  camera : Camera
  password : String
  services : Services := {}
  logs : List String := []
  /-- No code reads this: all lines that were ever put into `logs`. -/
  history : List LogLine := []

/-! ## Threads -/

/-- Where a `_read_output` thread is. -/
inductive Reader where
  /-- In the loop over the lines of the process. -/
  | reading
  /-- Past the end of the output, in `process.wait()`. -/
  | waiting
  /-- In the delay before a restart; `peer` is `peer_restart_service = "rtsp"`. -/
  | sleeping (delay : ℚ) (peer : Bool)
  | done
  deriving DecidableEq

/-- The reader is in a delay after which it restarts the peer too. -/
def Reader.awaitsPeer : Reader → Bool
  | sleeping _ peer => peer
  | _ => false

/-- Where a `_start_onvif_after_rtsp` thread is. -/
inductive OnvifWait where
  /-- `start` has not started the thread. -/
  | none
  /-- At the head of the loop. -/
  | polling
  /-- Waiting for the RTSP state that the loop has looked up. -/
  | watching (rtsp : ServiceRef)
  /-- Past the loop, waiting for the lifecycle lock. -/
  | starting
  | done
  deriving DecidableEq

/-- A service state, its process, and the thread `_read_output(camera_id, worker, state)`. -/
structure ServiceThread where
  cameraId : CameraId
  worker : WorkerRef
  state : ServiceState
  reader : Reader := .reading

/-- A worker and the thread `_start_onvif_after_rtsp(camera_id, worker)`. -/
structure WorkerThread where
  worker : WorkerState
  onvif : OnvifWait := .none

/-- What the holder of a lifecycle lock still has to do. -/
inductive Section where
  /-- `stop`: terminate these. -/
  | stop (remaining : List ServiceRef)
  /-- `start`: terminate these, then create the worker. -/
  | start (camera : Camera) (password : String) (remaining : List ServiceRef)
  /-- `start`: start the RTSP process of the worker. -/
  | launch (worker : WorkerRef)
  /-- `start`: start the ONVIF thread of the worker, and return. -/
  | spawn (worker : WorkerRef)

structure Sys where
  /-- `_workers`. -/
  workers : CameraId → Option WorkerRef := fun _ => none
  workerHeap : List WorkerThread := []
  serviceHeap : List ServiceThread := []
  /-- The lifecycle locks; `none` is a free lock. -/
  lock : CameraId → Option Section := fun _ => none
  /-- No code reads this: `stop` has returned and no `start` has taken the lock since. -/
  stopped : CameraId → Bool := fun _ => false

/-! ## Status -/

/-- `WorkerState.status`, from the statuses of its services. -/
def statusOf (statuses : List Status) : Status :=
  if statuses.isEmpty then .stopped
  else if statuses.all (· = .online) then .online
  else if .error ∈ statuses then .error
  else if .connecting ∈ statuses then .connecting
  else if .online ∈ statuses then .connecting
  else .stopped

def ServiceThread.alive (thread : ServiceThread) : Bool := thread.state.process.returncode.isNone

def ServiceThread.asleep (thread : ServiceThread) : Bool :=
  match thread.reader with
  | .sleeping _ _ => true
  | _ => false

namespace Sys

/-- The states of a worker's services. -/
def states (s : Sys) (worker : WorkerState) : List ServiceState :=
  worker.services.values.filterMap fun ref => (s.serviceHeap[ref]?).map ServiceThread.state

/-- `WorkerState.status`. -/
def workerStatus (s : Sys) (worker : WorkerState) : Status :=
  statusOf ((s.states worker).map ServiceState.status)

/-- `WorkerState.last_error`: the first service with a text that is not empty. -/
def workerLastError (s : Sys) (worker : WorkerState) : Option String :=
  (s.states worker).findSome? fun state =>
    (state.lastError.filter (· ≠ "")).map fun error => state.service.tag ++ ": " ++ error

/-- The worker of a camera. -/
def current (s : Sys) (camera : CameraId) : Option WorkerThread :=
  (s.workers camera).bind (s.workerHeap[·]?)

/-- The service state recorded for a camera and a service. -/
def recorded (s : Sys) (camera : CameraId) (service : Service) : Option ServiceRef :=
  (s.current camera).bind fun thread => thread.worker.services.get service

end Sys

end DahuaBridge
