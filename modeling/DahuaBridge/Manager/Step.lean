import DahuaBridge.Lib.Run
import DahuaBridge.Manager.State

/-!
# What the manager's threads do

One event is one atomic step of one thread, or a process that exits by itself. A
section under `_lock` is one step. A lifecycle section is one step where `_lock`
is held throughout it (`_start_onvif_after_rtsp`, the restart in `_read_output`);
`start` and `stop` release `_lock` inside theirs, so they take several steps, and
the lock says in between what its holder still has to do.

`_terminate_process_group` returns when the process is dead. What the environment
decides is part of the event: return codes, output lines, the clock, the random
part of a delay, and whether `Popen` succeeds.
-/

namespace DahuaBridge

/-! ## Texts -/

/-- `line.isspace()` for one character. -/
def isPySpace (c : Char) : Bool := Text.isWhiteSpace c || (0x1C ≤ c.toNat && c.toNat ≤ 0x1F)

/-- `raw_line.rstrip()`. -/
def rstrip (line : String) : String := String.ofList (Text.trimEnd isPySpace line.toList)

/-- `pattern in line`. -/
def hasText (pattern line : String) : Bool := Text.contains pattern.toList line.toList

/-- `line.startswith("READY remote=")`. -/
def isReadyLine (line : String) : Bool := "READY remote=".toList.isPrefixOf line.toList

/-- `parts.get("remote")` for a `READY` line. A later item of that name wins. -/
def readyRemote (line : String) : Option String :=
  let items := ((Text.words isPySpace line.toList).drop 1).filterMap (Text.splitOnce (· = '='))
  (items.reverse.lookup "remote".toList).map String.ofList

/-- `items[-n:]`. -/
def lastN {α : Type} (n : Nat) (items : List α) : List α := items.drop (items.length - n)

/-- A transient failure marker occurs in the last hundred lines. -/
def isTransient (logs : List String) : Bool :=
  (lastN 100 logs).any fun line =>
    TRANSIENT_FAILURE_MARKERS.any fun marker =>
      Text.contains marker.toList (Text.lower line.toList)

/-- The branches of the line dispatcher, in its order. -/
inductive LineKind where
  | ready (remote : Option String)
  | media
  | transport
  | onvifUnavailable
  | error
  | other

/-- The branch that a line printed by a process of the service takes. -/
def lineKind (service : Service) (line : String) : LineKind :=
  if isReadyLine line then .ready (readyRemote line)
  else if hasText "RTSP media data:" line && service = .rtsp then .media
  else if hasText "Ready to connect" line then .transport
  else if hasText "optional ONVIF channel unavailable" line then .onvifUnavailable
  else if hasText "Error:" line || hasText "Traceback" line then .error
  else .other

/-! ## Service states -/

namespace ServiceState

def setOnline (state : ServiceState) : ServiceState :=
  { state with status := .online, lastError := none }

/-- `ready_event.set()`. -/
def setReady (state : ServiceState) : ServiceState := { state with readyEvent := true }

def clearError (state : ServiceState) : ServiceState := { state with lastError := none }

/-- What a line does to the state of the process that printed it. -/
def onLine (state : ServiceState) (line : String) (now : ℚ) : ServiceState :=
  match lineKind state.service line with
  | .ready remote =>
    { state.setOnline with onlineSince := if remote = some "554" then some now else state.onlineSince }
  | .media => { state.setOnline with onlineSince := some now }
  | .transport => state.setReady.clearError
  | .onvifUnavailable => state
  | .error => { state with lastError := some line }
  | .other => state

/-- What a line of kind `kind` does to the ONVIF state of the same worker. -/
def onOnvif (kind : LineKind) (state : ServiceState) : ServiceState :=
  match kind with
  | .ready remote => if remote = some "80" then state.setOnline else state
  | .onvifUnavailable =>
    { state with status := .error, lastError := some "P2P port 80 unavailable" }
  | _ => state

/-- The process has been online for a minute or more. -/
def longOnline (state : ServiceState) (now : ℚ) : Bool :=
  match state.onlineSince with
  | some since => 60 ≤ now - since
  | none => false

/-- After an exit with code 75. -/
def reconnect (state : ServiceState) (now : ℚ) : ServiceState :=
  { state with
    status := .connecting
    lastError := none
    onlineSince := none
    reconnectAttempt := (if state.longOnline now then 0 else state.reconnectAttempt) + 1 }

/-- The process is dead; a return code that it had stays. -/
def exited (code : Int) (state : ServiceState) : ServiceState :=
  { state with process := { state.process with
    returncode := state.process.returncode <|> some code } }

/-- After an exit with code 0. -/
def setStopped (state : ServiceState) : ServiceState := { state with status := .stopped }

/-- After an exit with another code than 0 and 75; a text in `last_error` stays. -/
def fail (code : Int) (status : Status) (state : ServiceState) : ServiceState :=
  { state with
    status := status
    lastError := if state.lastError.getD "" = "" then
        some ("P2P worker exited with code " ++ toString code)
      else state.lastError }

end ServiceState

/-- `restart_delay` after an exit with code 75. -/
def reconnectDelay (attempt : Nat) (jitter : ℚ) : ℚ := min 30 (2 ^ min attempt 5) + jitter

/-- The port that the process of a service listens on. -/
def Config.bindPort (cfg : Config) (worker : WorkerState) (camera : CameraId) :
    Service → Option Int
  | .rtsp => some worker.port
  | .onvif => cfg.onvifPortFor camera

namespace Sys

/-! ## Writing to the heaps -/

def modifyService (s : Sys) (ref : ServiceRef) (f : ServiceThread → ServiceThread) : Sys :=
  { s with serviceHeap := s.serviceHeap.modify ref f }

def modifyWorker (s : Sys) (ref : WorkerRef) (f : WorkerThread → WorkerThread) : Sys :=
  { s with workerHeap := s.workerHeap.modify ref f }

def modifyState (s : Sys) (ref : ServiceRef) (f : ServiceState → ServiceState) : Sys :=
  s.modifyService ref fun thread => { thread with state := f thread.state }

def setReader (s : Sys) (ref : ServiceRef) (reader : Reader) : Sys :=
  s.modifyService ref fun thread => { thread with reader := reader }

def setOnvif (s : Sys) (ref : WorkerRef) (onvif : OnvifWait) : Sys :=
  s.modifyWorker ref fun thread => { thread with onvif := onvif }

def setLock (s : Sys) (camera : CameraId) (holder : Option Section) : Sys :=
  { s with lock := Function.update s.lock camera holder }

/-- `_append_worker_log`. -/
def appendLog (cfg : Config) (s : Sys) (ref : WorkerRef) (line : LogLine) : Sys :=
  s.modifyWorker ref fun thread =>
    { thread with worker := { thread.worker with
      logs := lastN cfg.logHistoryLimit (thread.worker.logs ++ [line.text])
      history := thread.worker.history ++ [line] } }

/-- `worker.services.get(service)`. -/
def serviceOf (s : Sys) (ref : WorkerRef) (service : Service) : Option ServiceRef :=
  (s.workerHeap[ref]?).bind fun thread => thread.worker.services.get service

/-- Changes the state that a worker has under a service, if there is one. -/
def modifyServiceOf (s : Sys) (ref : WorkerRef) (service : Service)
    (f : ServiceState → ServiceState) : Sys :=
  match s.serviceOf ref service with
  | some state => s.modifyState state f
  | none => s

/-- The process exits, or `_terminate_process_group` has returned. -/
def exitProcess (s : Sys) (ref : ServiceRef) (code : Int) : Sys :=
  s.modifyState ref (ServiceState.exited code)

/-! ## Starting processes -/

/-- A new process with its `ServiceState`, recorded under the service, and its reader. -/
def addService (s : Sys) (camera : CameraId) (worker : WorkerRef) (service : Service)
    (launch : Launch) : Sys :=
  let thread : ServiceThread := { cameraId := camera, worker, state := { process := { launch }, service } }
  { s with
    serviceHeap := s.serviceHeap ++ [thread]
    workerHeap := s.workerHeap.modify worker fun owner =>
      { owner with worker := { owner.worker with
        services := owner.worker.services.set service s.serviceHeap.length } } }

/-- `_start_service`; `none` when it raises, which it does if `Popen` fails. -/
def startService (cfg : Config) (s : Sys) (camera : CameraId) (worker : WorkerRef)
    (service : Service) (ok : Bool) : Option Sys := do
  let owner ← s.workerHeap[worker]?
  let bindPort ← cfg.bindPort owner.worker camera service
  guard ok
  let launch := Launch.engine service bindPort owner.worker.port owner.worker.camera.serial
    owner.worker.camera.username owner.worker.password
  let message := "[P2P] [" ++ service.tag ++ "] Starting " ++ service.tag ++ " P2P session"
  some ((s.addService camera worker service launch).appendLog cfg worker (.message message))

/-- `_start_vendor_service`. -/
def startVendorService (cfg : Config) (s : Sys) (camera : CameraId) (worker : WorkerRef)
    (ok : Bool) : Option Sys := do
  let owner ← s.workerHeap[worker]?
  let _ ← cfg.onvifPortFor camera
  guard ok
  let launch := Launch.vendor owner.worker.camera.serial owner.worker.camera.username
    owner.worker.password (554, owner.worker.port)
  some ((s.addService camera worker .rtsp launch).appendLog cfg worker
    (.message "[P2P] Starting private Dahua P2P RTSP worker"))

/-! ## `start` and `stop` -/

/-- Takes the lifecycle lock and pops the worker. The holder's next task is `task`
of the processes to terminate. -/
def popWorker (s : Sys) (camera : CameraId) (task : List ServiceRef → Section) : Sys :=
  let remaining := match s.current camera with
    | some thread => thread.worker.services.values
    | none => []
  { s with
    workers := Function.update s.workers camera none
    lock := Function.update s.lock camera (some (task remaining)) }

/-- The holder terminates the next process. -/
def kill (s : Sys) (camera : CameraId) (code : Int) : Option Sys :=
  match s.lock camera with
  | some (.stop (ref :: remaining)) =>
    some ((s.exitProcess ref code).setLock camera (some (.stop remaining)))
  | some (.start row password (ref :: remaining)) =>
    some ((s.exitProcess ref code).setLock camera (some (.start row password remaining)))
  | _ => none

/-- `start` after its call of `stop`: the checks, and the new worker. -/
def createWorker (cfg : Config) (s : Sys) (camera : CameraId) : Option Sys :=
  match s.lock camera with
  | some (.start row password []) =>
    -- both failures raise `ValueError`, which releases the lock
    if row.vendor.hasP2P then
      match cfg.portFor camera with
      | none => some (s.setLock camera none)
      | some port =>
        some { s with
          workers := Function.update s.workers camera (some s.workerHeap.length)
          workerHeap := s.workerHeap ++ [{ worker := { port, camera := row, password } }]
          lock := Function.update s.lock camera (some (.launch s.workerHeap.length)) }
    else
      some (s.setLock camera none)
  | _ => none

/-- `start` starts the first process of the new worker. -/
def launch (cfg : Config) (s : Sys) (camera : CameraId) (ok : Bool) : Option Sys :=
  match s.lock camera with
  | some (.launch worker) =>
    let free := s.setLock camera none
    match cfg.backend with
    | .vendor => some ((free.startVendorService cfg camera worker ok).getD free)
    | .engine =>
      let spawning := s.setLock camera (some (.spawn worker))
      some ((spawning.startService cfg camera worker .rtsp ok).getD free)
  | _ => none

/-- `start` starts the ONVIF thread and returns. -/
def spawn (s : Sys) (camera : CameraId) : Option Sys :=
  match s.lock camera with
  | some (.spawn worker) => some ((s.setOnvif worker .polling).setLock camera none)
  | _ => none

/-- `stop` returns. -/
def stopReturns (s : Sys) (camera : CameraId) : Option Sys :=
  match s.lock camera with
  | some (.stop []) =>
    some { s.setLock camera none with stopped := Function.update s.stopped camera true }
  | _ => none

/-! ## `_start_onvif_after_rtsp` -/

/-- The head of the loop; `expired` says that the deadline has passed. -/
def onvifCheck (cfg : Config) (s : Sys) (worker : WorkerRef) (expired : Bool) : Option Sys := do
  let thread ← s.workerHeap[worker]?
  guard (thread.onvif = .polling)
  if expired then
    some ((s.appendLog cfg worker (.message
      ("[P2P] RTSP negotiation did not become ready within " ++ Python.fixedText cfg.waitSeconds ++
        "s; starting ONVIF independently"))).setOnvif worker .starting)
  else if s.workers thread.worker.camera.id = some worker then
    match thread.worker.services.rtsp with
    | some rtsp => some (s.setOnvif worker (.watching rtsp))
    | none => some (s.setOnvif worker .done)
  else
    some (s.setOnvif worker .done)

/-- The wait for the ready event and the poll of the process. -/
def onvifWatch (s : Sys) (worker : WorkerRef) : Option Sys := do
  let thread ← s.workerHeap[worker]?
  match thread.onvif with
  | .watching rtsp =>
    let service ← s.serviceHeap[rtsp]?
    if service.state.readyEvent || !service.alive then
      some (s.setOnvif worker .starting)
    else
      some (s.setOnvif worker .polling)
  | _ => none

/-- The section under both locks. -/
def onvifStart (cfg : Config) (s : Sys) (worker : WorkerRef) (ok : Bool) : Option Sys := do
  let thread ← s.workerHeap[worker]?
  guard (thread.onvif = .starting)
  let camera := thread.worker.camera.id
  guard (s.lock camera).isNone
  let s := s.setOnvif worker .done
  if s.workers camera = some worker ∧ thread.worker.services.onvif = none then
    some ((s.startService cfg camera worker .onvif ok).getD s)
  else
    some s

/-! ## `_read_output` -/

/-- A line of output. -/
def handleLine (cfg : Config) (s : Sys) (ref : ServiceRef) (raw : String) (now : ℚ) :
    Option Sys := do
  let thread ← s.serviceHeap[ref]?
  guard (thread.reader = .reading)
  let line := rstrip raw
  let s := s.appendLog cfg thread.worker (.printed ref thread.state.service line)
  some ((s.modifyState ref (·.onLine line now)).modifyServiceOf thread.worker .onvif
    (ServiceState.onOnvif (lineKind thread.state.service line)))

/-- The end of the output. -/
def endOutput (s : Sys) (ref : ServiceRef) : Option Sys := do
  let thread ← s.serviceHeap[ref]?
  guard (thread.reader = .reading)
  some ((s.modifyState ref ServiceState.setReady).setReader ref .waiting)

/-- The worker of the thread is current and its state is recorded there. -/
def isRecorded (s : Sys) (ref : ServiceRef) (thread : ServiceThread) : Bool :=
  s.workers thread.cameraId = some thread.worker &&
    match s.workerHeap[thread.worker]? with
    | some owner => ref ∈ owner.worker.services.values
    | none => false

/-- The worker's RTSP session that an ONVIF exit finds stuck in connecting. -/
def stuckPeer (s : Sys) (ref : ServiceRef) (thread : ServiceThread) : Bool :=
  thread.state.service = .onvif &&
    match s.serviceOf thread.worker .rtsp with
    | some peer => peer ≠ ref && match s.serviceHeap[peer]? with
      | some rtsp => rtsp.state.status = .connecting && rtsp.alive
      | none => false
    | none => false

/-- The exit with code 75. -/
def reconnectExit (cfg : Config) (s : Sys) (ref : ServiceRef) (thread : ServiceThread)
    (now jitter : ℚ) : Sys :=
  let delay := reconnectDelay (thread.state.reconnect now).reconnectAttempt jitter
  let peer := s.stuckPeer ref thread
  let s := ((s.setReader ref (.sleeping delay peer)).modifyState ref (·.reconnect now)).appendLog cfg
    thread.worker (.message ("[P2P] P2P engine requested reconnect; rebuilding this session in " ++
      Python.floatText delay ++ " seconds"))
  if peer then
    (s.modifyServiceOf thread.worker .rtsp ServiceState.clearError).appendLog cfg thread.worker
      (.message "[P2P] RTSP channel is still connecting; rebuilding the RTSP session with ONVIF")
  else s

/-- An exit with another code. -/
def otherExit (cfg : Config) (s : Sys) (ref : ServiceRef) (thread : ServiceThread) (code : Int)
    (logs : List String) (jitter : ℚ) : Sys :=
  if code ≠ 0 ∧ isTransient logs then
    let s := (s.modifyState ref (ServiceState.fail code .connecting)).appendLog cfg thread.worker
      (.message ("[P2P] Transient Easy4IP failure; retrying in " ++
        toString cfg.transientRetrySeconds ++ " seconds"))
    s.setReader ref (.sleeping (cfg.transientRetrySeconds + jitter) false)
  else if code = 0 then
    (s.modifyState ref ServiceState.setStopped).setReader ref .done
  else
    (s.modifyState ref (ServiceState.fail code .error)).setReader ref .done

/-- `process.wait()` has returned: what to do about the exit. -/
def handleExit (cfg : Config) (s : Sys) (ref : ServiceRef) (now jitter : ℚ) : Option Sys := do
  let thread ← s.serviceHeap[ref]?
  guard (thread.reader = .waiting)
  let code ← thread.state.process.returncode
  let owner ← s.workerHeap[thread.worker]?
  if s.isRecorded ref thread then
    if code = 75 then
      -- `random.uniform(0.0, 5.0)`
      guard (0 ≤ jitter ∧ jitter ≤ 5)
      some (s.reconnectExit cfg ref thread now jitter)
    else
      -- `random.uniform(0.0, 10.0)`
      guard (0 ≤ jitter ∧ jitter ≤ 10)
      some (s.otherExit cfg ref thread code owner.worker.logs jitter)
  else
    some (s.setReader ref .done)

/-- The restart of the RTSP session by the ONVIF reader. -/
def restartPeer (cfg : Config) (s : Sys) (camera : CameraId) (worker : WorkerRef) (code : Int)
    (ok : Bool) : Sys :=
  if s.workers camera = some worker then
    match s.serviceOf worker .rtsp with
    | some peer =>
      let s := (s.exitProcess peer code).appendLog cfg worker
        (.message "[P2P] Restarting RTSP after the ONVIF channel detected a stalled tunnel")
      (s.startService cfg camera worker .rtsp ok).getD s
    | none => s
  else
    s

/-- The section under both locks after the delay; an exception ends it early. -/
def restart (cfg : Config) (s : Sys) (ref : ServiceRef) (ok : Bool) (code : Int) (peerOk : Bool) :
    Option Sys := do
  let thread ← s.serviceHeap[ref]?
  match thread.reader with
  | .sleeping _ peer =>
    guard (s.lock thread.cameraId).isNone
    let s := s.setReader ref .done
    let finish (s : Sys) : Sys :=
      if peer then s.restartPeer cfg thread.cameraId thread.worker code peerOk else s
    if s.isRecorded ref thread then
      match s.startService cfg thread.cameraId thread.worker thread.state.service ok with
      | some s => some (finish s)
      | none => some s
    else
      some (finish s)
  | _ => none

end Sys

/-! ## Events -/

inductive Event where
  /-- `start(camera, password)` takes the lifecycle lock; its call of `stop` pops the worker. -/
  | start (camera : Camera) (password : String)
  /-- `stop(camera_id)` takes the lifecycle lock and pops the worker. -/
  | stop (camera : CameraId)
  | kill (camera : CameraId) (code : Int)
  | createWorker (camera : CameraId)
  | launch (camera : CameraId) (ok : Bool)
  | spawn (camera : CameraId)
  | stopReturns (camera : CameraId)
  | onvifCheck (worker : WorkerRef) (expired : Bool)
  | onvifWatch (worker : WorkerRef)
  | onvifStart (worker : WorkerRef) (ok : Bool)
  /-- A process exits by itself. -/
  | exit (ref : ServiceRef) (code : Int)
  | line (ref : ServiceRef) (raw : String) (now : ℚ)
  | endOutput (ref : ServiceRef)
  | handleExit (ref : ServiceRef) (now jitter : ℚ)
  | restart (ref : ServiceRef) (ok : Bool) (code : Int) (peerOk : Bool)

/-- One step; `none` when the event cannot happen. -/
def Sys.step (cfg : Config) (s : Sys) : Event → Option Sys
  | .start camera password =>
    if (s.lock camera.id).isNone then
      some { s.popWorker camera.id (.start camera password) with
        stopped := Function.update s.stopped camera.id false }
    else none
  | .stop camera => if (s.lock camera).isNone then some (s.popWorker camera .stop) else none
  | .kill camera code => s.kill camera code
  | .createWorker camera => s.createWorker cfg camera
  | .launch camera ok => s.launch cfg camera ok
  | .spawn camera => s.spawn camera
  | .stopReturns camera => s.stopReturns camera
  | .onvifCheck worker expired => s.onvifCheck cfg worker expired
  | .onvifWatch worker => s.onvifWatch worker
  | .onvifStart worker ok => s.onvifStart cfg worker ok
  | .exit ref code =>
    match s.serviceHeap[ref]? with
    | some thread => if thread.alive then some (s.exitProcess ref code) else none
    | none => none
  | .line ref raw now => s.handleLine cfg ref raw now
  | .endOutput ref => s.endOutput ref
  | .handleExit ref now jitter => s.handleExit cfg ref now jitter
  | .restart ref ok code peerOk => s.restart cfg ref ok code peerOk

/-- The state after a run from an empty manager. -/
def runManager (cfg : Config) (events : List Event) : Option Sys :=
  Run.run (Sys.step cfg) events {}

end DahuaBridge
