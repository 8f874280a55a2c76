import DahuaBridge.Api.Database
import DahuaBridge.Lib.Run

/-!
# The request handlers

`add_camera`, `update_camera` and `delete_camera` of `app/main.py`. A handler takes
its database transaction, its calls of `p2p_manager.stop` and its calls of
`p2p_manager.start` one after the other; FastAPI runs the handlers of several
requests side by side, and nothing keeps their steps apart.

A call of the manager is one step here, which leaves in `_workers` what the call
does. An exception in a transaction rolls it back; one after the commit, such as those of
`cipher()` and of `Popen`, does not.
-/

namespace DahuaBridge

/-! ## Responses -/

/-- `public_camera`: the row without the password, with what the manager knows of it. -/
structure PublicCamera where
  id : CameraId
  name : String
  vendor : Vendor
  serial : String
  username : String
  channel : Int
  stream : VideoStream
  enabled : Bool
  motionEnabled : Bool
  synologyWebhook : Option String
  status : Status
  lastError : Option String
  rtspMain : String
  rtspSub : String
  rtspPath : String
  onvifPort : Int
  onvifService : String

inductive Response where
  | item (status : Nat) (camera : PublicCamera)
  | noContent
  | error (status : Nat) (detail : String)

/-- An exception that the handler does not catch. -/
def Response.internal : Response := .error 500 "Internal Server Error"

/-- The `HTTPException` of `cipher()`. -/
def Response.noSecret : Response := .error 503 "APP_SECRET_KEY must contain at least 24 characters"

/-- No row has the id. One that SQLite cannot bind raises `OverflowError` before that is found. -/
def Response.noCamera (camera : CameraId) : Response :=
  if Database.bindable camera then .error 404 "Camera not found" else .internal

/-- `rtsp_uri`; `none` is the `ValueError` of `port_for`. -/
def Config.rtspUri (cfg : Config) (camera : CameraId) (channel subtype : Int) : Option String :=
  (cfg.portFor camera).map fun port => "rtsp://NAS-IP:" ++ toString port ++
    "/cam/realmonitor?channel=" ++ toString (channel + 1) ++ "&subtype=" ++ toString subtype

def Config.publicCamera (cfg : Config) (row : Camera) (report : Status × Option String) :
    Option PublicCamera := do
  let rtspMain ← cfg.rtspUri row.id row.channel 0
  let rtspSub ← cfg.rtspUri row.id row.channel 1
  let onvifPort ← cfg.onvifPortFor row.id
  some
    { id := row.id
      name := row.name
      vendor := row.vendor
      serial := row.serial
      username := row.username
      channel := row.channel
      stream := row.stream
      enabled := row.enabled
      motionEnabled := row.motionEnabled
      synologyWebhook := row.synologyWebhook
      status := report.1
      lastError := report.2
      rtspMain, rtspSub
      rtspPath := if row.stream = .main then rtspMain else rtspSub
      onvifPort
      onvifService := "http://NAS-IP:" ++ toString onvifPort ++ "/onvif/device_service" }

/-- An answer that names a camera could be made only because its id has a port. -/
theorem portFor_of_publicCamera {cfg : Config} {row : Camera} {report : Status × Option String}
    {item : PublicCamera} (h : cfg.publicCamera row report = some item) :
    (cfg.portFor row.id).isSome := by
  cases hport : cfg.portFor row.id with
  | some port => rfl
  | none =>
    rw [Config.publicCamera, Config.rtspUri, hport] at h
    cases h

/-! ## The manager and the server -/

/-- What `_workers` holds of a camera. -/
structure Worker where
  port : Int
  camera : Camera
  password : String

abbrev Workers := CameraId → Option Worker

/-- `p2p_manager.stop`. -/
def Workers.stop (workers : Workers) (camera : CameraId) : Workers :=
  Function.update workers camera none

/-- What may fail in a request besides its transaction. -/
structure Faults where
  /-- `APP_SECRET_KEY` is long enough for `cipher()`. -/
  secret : Bool := true
  /-- The system can start a process. -/
  popen : Bool := true

/-- No argument and no variable of the process holds U+0000: `Popen` raises `ValueError` for
one that does. -/
def Camera.launchable (row : Camera) (password : String) : Bool :=
  [row.serial, row.username, password].all fun text => text.toList.all fun c => c.toNat ≠ 0

/-- `p2p_manager.start` up to the start of its first process, and whether it comes to that: it
may raise `ValueError` after its `stop`. -/
def Workers.enter (cfg : Config) (workers : Workers) (row : Camera) (password : String) :
    Workers × Bool :=
  let stopped := workers.stop row.id
  if row.vendor.hasP2P then
    match cfg.portFor row.id with
    | some port => (Function.update stopped row.id (some { port, camera := row, password }), true)
    | none => (stopped, false)
  else (stopped, false)

/-- `p2p_manager.start`, and whether it returns: `Popen` may raise with the worker entered. -/
def Workers.start (cfg : Config) (faults : Faults) (workers : Workers) (row : Camera)
    (password : String) : Workers × Bool :=
  let (workers, entered) := workers.enter cfg row password
  (workers, entered && (faults.popen && row.launchable password))

/-- The worker of a camera of a vendor with P2P whose id has a port is entered. -/
theorem Workers.enter_eq {cfg : Config} (workers : Workers) {row : Camera} (password : String)
    {port : Int} (hvendor : row.vendor.hasP2P = true) (hport : cfg.portFor row.id = some port) :
    (workers.enter cfg row password).2 = true ∧
      (workers.enter cfg row password).1 row.id = some { port, camera := row, password } ∧
      ∀ camera, camera ≠ row.id → (workers.enter cfg row password).1 camera = workers camera := by
  rw [Workers.enter, if_pos hvendor, hport]
  refine ⟨rfl, Function.update_self .., fun camera hne => ?_⟩
  exact (Function.update_of_ne hne ..).trans (Function.update_of_ne hne ..)

/-- `cipher()`. What `encrypt` makes depends on a random part and on the time. -/
structure Cipher where
  encrypt : Nat → String → String
  decrypt : String → Option String
  decrypt_encrypt : ∀ nonce password, decrypt (encrypt nonce password) = some password

/-- What the environment decides in a step. -/
structure Env where
  /-- How much an id exceeds the next one. -/
  gap : Nat := 0
  nonce : Nat := 0
  /-- What `p2p_manager.status` says of a camera that has a worker. -/
  report : Status × Option String := (.connecting, none)
  faults : Faults := {}

structure Server where
  db : Database := {}
  workers : Workers := fun _ => none

/-- `p2p_manager.status`. -/
def Server.report (server : Server) (env : Env) (camera : CameraId) : Status × Option String :=
  if (server.workers camera).isSome then env.report else (.stopped, none)

/-- A row whose camera should have a worker. -/
def Camera.wantsWorker (row : Camera) : Bool := row.enabled && row.vendor.hasP2P

/-! ## The handlers -/

/-- What a handler does next. -/
inductive Handler where
  /-- `add_camera`: the transaction. -/
  | add (camera : CameraInput)
  /-- `add_camera`: the start. -/
  | addStart (row : Camera) (password : String) (result : PublicCamera)
  /-- `update_camera`: the transaction. -/
  | update (camera : CameraId) (patch : CameraPatch)
  /-- `update_camera`: the stop. -/
  | updateStop (row : Camera) (result : PublicCamera)
  /-- `update_camera`: the start. -/
  | updateStart (row : Camera) (password : String) (result : PublicCamera)
  /-- `delete_camera`: the stop. -/
  | delete (camera : CameraId)
  /-- `delete_camera`: the transaction. -/
  | deleteRow (camera : CameraId)
  | done (response : Response)

namespace Handler

/-- The transaction of `add_camera`. -/
def addRow (cfg : Config) (cipher : Cipher) (env : Env) (server : Server) (camera : CameraInput) :
    Server × Handler :=
  match server.db.insert env.gap camera (cipher.encrypt env.nonce camera.password) with
  | none => (server, .done (.error 409 "A camera with this serial already exists"))
  | some (db, row) =>
    match cfg.publicCamera row (server.report env row.id) with
    -- only `IntegrityError` is caught
    | none => (server, .done .internal)
    | some result =>
      ({ server with db },
        if camera.enabled && camera.vendor.hasP2P then .addStart row camera.password result
        else .done (.item 201 result))

/-- `update_camera`, up to the end of its transaction. -/
def updateRow (cfg : Config) (cipher : Cipher) (env : Env) (server : Server) (camera : CameraId)
    (patch : CameraPatch) : Server × Handler :=
  match patch.password with
  -- `None.encode()`
  | .null => (server, .done .internal)
  | _ =>
    if patch.isEmpty then (server, .done (.error 400 "No changes supplied"))
    else
      match server.db.update camera patch (cipher.encrypt env.nonce) with
      | .error .notFound => (server, .done (.noCamera camera))
      | .error .integrity => (server, .done .internal)
      | .ok (db, row) =>
        match cfg.publicCamera row (server.report env row.id) with
        | none => (server, .done .internal)
        | some result => ({ server with db }, .updateStop row result)

/-- The call of `start` with which a handler ends. -/
def finishStart (cfg : Config) (faults : Faults) (server : Server) (row : Camera)
    (password : String) (response : Response) : Server × Handler :=
  let (workers, returned) := server.workers.start cfg faults row password
  ({ server with workers }, .done (if returned then response else .internal))

/-- One step of a handler. -/
def step (cfg : Config) (cipher : Cipher) (env : Env) (server : Server) :
    Handler → Server × Handler
  | add camera =>
    if env.faults.secret then addRow cfg cipher env server camera else (server, .done .noSecret)
  | addStart row password result =>
    finishStart cfg env.faults server row password (.item 201 result)
  | update camera patch =>
    -- without a password there is nothing to encrypt
    if env.faults.secret || patch.password.isUnset then updateRow cfg cipher env server camera patch
    else (server, .done .noSecret)
  | updateStop row result =>
    ({ server with workers := server.workers.stop row.id },
      if row.wantsWorker then
        if env.faults.secret then
          match cipher.decrypt row.passwordEnc with
          | some password => .updateStart row password result
          -- `InvalidToken`
          | none => .done .internal
        else .done .noSecret
      else .done (.item 200 result))
  | updateStart row password result =>
    finishStart cfg env.faults server row password (.item 200 result)
  | delete camera =>
    ({ server with workers := server.workers.stop camera }, .deleteRow camera)
  | deleteRow camera =>
    match server.db.select camera with
    | some _ => ({ server with db := server.db.delete camera }, .done .noContent)
    | none => (server, .done (.noCamera camera))
  | done response => (server, .done response)

end Handler

/-! ## Requests -/

inductive Request where
  | post (camera : CameraInput)
  | patch (camera : CameraId) (patch : CameraPatch)
  | delete (camera : CameraId)

def Request.handler : Request → Handler
  | .post camera => .add camera
  | .patch camera changes => .update camera changes
  | .delete camera => .delete camera

/-! ## Concurrent requests -/

/-- The server with the handlers of all requests so far. -/
structure Api where
  server : Server := {}
  handlers : List Handler := []

inductive ApiEvent where
  | request (request : Request)
  | step (handler : Nat) (env : Env)

def Api.step (cfg : Config) (cipher : Cipher) (api : Api) : ApiEvent → Option Api
  | .request request => some { api with handlers := api.handlers ++ [request.handler] }
  | .step i env =>
    match api.handlers[i]? with
    | none => none
    | some (.done _) => none
    | some handler =>
      let (server, next) := handler.step cfg cipher env api.server
      some { server, handlers := api.handlers.set i next }

/-- The handler has answered. -/
def Handler.isDone : Handler → Bool
  | .done _ => true
  | _ => false

/-! ## An example -/

def plainCipher : Cipher := ⟨fun _ password => password, some, fun _ _ => rfl⟩

def exampleCamera : CameraInput where
  name := ⟨"Yard", by decide, by decide⟩
  vendor := .dahua
  serial := ⟨"5K00001", by decide, by decide⟩
  password := ⟨"secret", by decide, by decide⟩

end DahuaBridge
