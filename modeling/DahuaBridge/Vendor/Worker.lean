import DahuaBridge.Lib.Run
import DahuaBridge.Lib.SeqNum

/-!
# The vendor worker

`main` of `vendor-worker/p2p_relay_multi.c`. A step is one call of `P2PDll` or of the
system, with the code up to the next one. What the call returns is in the event, and
`stop_requested` may be set between any two steps.

Log output, `Sleep` and the strings that are only passed on to the DLL are left out. The
calls that concern a handle are recorded in the order in which they are made.
-/

namespace DahuaBridge.VendorWorker

/-! ## Arguments -/

structure PortMap where
  remotePort : Int
  localPort : Int
  connected : Bool
  deriving DecidableEq, Inhabited

/-- `arg_value`. The arguments are those after the name of the program. -/
def argValue (name : String) (fallback : Option String) : List String → Option String
  | arg :: value :: rest => if arg = name then some value else argValue name fallback (value :: rest)
  | _ => fallback

/-- The decimal digits at the front of a text, and what follows them. -/
def scanDigits (text : List Char) : Option (Nat × List Char) :=
  match text.takeWhile Char.isDigit with
  | [] => none
  | digits => some (digits.foldl (fun n digit => 10 * n + (digit.toNat - '0'.toNat)) 0,
      text.dropWhile Char.isDigit)

/-- `isspace`. -/
def isSpace (c : Char) : Bool := c = ' ' || ('\t' ≤ c && c ≤ '\r')

/-- `%d` of `sscanf`, for numbers that fit an `int`. -/
def scanInt (text : List Char) : Option (Int × List Char) :=
  match text.dropWhile isSpace with
  | '-' :: text => (scanDigits text).map fun (n, rest) => (-(n : Int), rest)
  | '+' :: text => (scanDigits text).map fun (n, rest) => ((n : Int), rest)
  | text => (scanDigits text).map fun (n, rest) => ((n : Int), rest)

/-- `sscanf(text, "%d:%d", ..) == 2`. -/
def scanPair (text : String) : Option (Int × Int) :=
  match scanInt text.toList with
  | some (remote, ':' :: rest) => (scanInt rest).map fun (port, _) => (remote, port)
  | _ => none

/-- `parse_maps` with room for `max_maps`. -/
def parseMaps : Nat → List String → List PortMap
  | maxMaps + 1, arg :: value :: rest =>
    if arg = "--map" then
      match scanPair value with
      | some (remote, port) =>
        if 0 < remote ∧ 0 < port then ⟨remote, port, false⟩ :: parseMaps maxMaps rest
        else parseMaps (maxMaps + 1) rest
      | none => parseMaps (maxMaps + 1) rest
    else parseMaps (maxMaps + 1) (value :: rest)
  | _, _ => []

/-! ## State -/

/-- A pointer of the DLL. `none` is `NULL`. -/
abbrev Handle := Option Nat

/-- The calls that get or give a handle, and the points where a map is marked connected. -/
inductive Call
  | init (rc : Int) (out : Handle)
  | unInit (handle : Handle)
  | queryServerStatus (handle : Handle)
  | deviceStatus (handle : Handle)
  | getDeviceInfo (handle : Handle)
  | connect (i : Nat) (handle : Handle) (rc : Int)
  | queryChannelStatus (handle : Handle)
  | disconnect (handle : Handle)
  | marked (i : Nat)
  | freeLibrary
  deriving DecidableEq

/-- Where `main` is: the call that comes next, with the local variables of its loop. -/
inductive Pc
  | loadLibrary
  | getProcAddress
  | init
  | serverStatus
  | deviceStatus
  | deviceInfo
  | mapInit (i : Nat)
  | mapStatus (i : Nat)
  | connect (i attempt : Nat)
  | retryUnInit (i attempt : Nat)
  | retryInit (i attempt : Nat)
  | retryStatus (i attempt : Nat)
  | channelDeadline (i : Nat)
  | channelCheck (i : Nat) (deadline : BitVec 32) (st : Int)
  | channelTick (i : Nat) (deadline : BitVec 32) (st : Int)
  | channelQuery (i : Nat) (deadline : BitVec 32)
  | monitorCheck
  | monitorEach (i : Nat)
  | monitorQuery (i : Nat)
  | disconnect (left : Nat)
  | unInit (left : Nat)
  | freeLibrary
  | exited (code : Int)
  deriving DecidableEq

structure Worker where
  pc : Pc
  maps : List PortMap
  handle : Handle := none
  mapHandles : Nat → Handle := fun _ => none
  rc : Int := 0
  stopRequested : Bool := false
  calls : List Call := []

/-- What the DLL, the system and the signal handlers do. -/
inductive Event
  | stop
  /-- A step that reads nothing from outside. -/
  | proceed
  | loaded (ok : Bool)
  | init (rc : Int) (out : Handle)
  | status (rc : Int)
  | connect (rc : Int) (localPort : Int)
  | tick (now : BitVec 32)
  deriving DecidableEq

namespace Worker

def goto (w : Worker) (pc : Pc) : Worker := { w with pc := pc }

def record (w : Worker) (call : Call) : Worker := { w with calls := w.calls ++ [call] }

def setMapHandle (w : Worker) (i : Nat) (handle : Handle) : Worker :=
  { w with mapHandles := Function.update w.mapHandles i handle }

/-- `main` before it loads the DLL. `user` and `password` are the environment variables. -/
def start (args : List String) (user password : Option String) : Worker :=
  let serial := argValue "--serial" none args
  let user := argValue "--user" user args
  let password := argValue "--password" password args
  let maps := parseMaps 8 args
  if serial = none ∨ user = none ∨ password = none ∨ maps = [] then { pc := .exited 2, maps }
  else { pc := .loadLibrary, maps }

/-! ## Steps -/

/-- `goto cleanup`. -/
def cleanup (w : Worker) : Worker := w.goto (.disconnect w.maps.length)

/-- `goto cleanup_error`. -/
def cleanupError (w : Worker) : Worker := { w with rc := if w.rc ≠ 0 then w.rc else 9 }.cleanup

/-- The head of the loop over the maps. -/
def enterMap (w : Worker) (i : Nat) : Worker :=
  if i < w.maps.length then
    -- the first map goes without a handle of its own
    if 0 < i then w.goto (.mapInit i) else w.goto (.connect i 1)
  else w.goto .monitorCheck

/-- After the loop over the attempts. -/
def afterAttempts (w : Worker) (i : Nat) : Worker :=
  if w.rc ≠ 0 then
    if w.maps[i]?.map PortMap.remotePort = some 80 then w.enterMap (i + 1) else w.cleanupError
  else
    { w with maps := w.maps.modify i fun map => { map with connected := true } }.record (.marked i)
      |>.goto (.channelDeadline i)

/-- After the loop that waits for the channel. -/
def afterWait (w : Worker) (i : Nat) (st : Int) : Worker :=
  if st ≠ 0 ∧ st ≠ 1 then w.cleanupError else w.enterMap (i + 1)

def isConnected (w : Worker) (i : Nat) : Bool := w.maps[i]?.map PortMap.connected = some true

/-- One step of `main`. -/
def step (w : Worker) : Event → Option Worker
  | .stop =>
    match w.pc with
    | .exited _ => none
    | _ => some { w with stopRequested := true }
  | .loaded ok =>
    match w.pc with
    | .loadLibrary => some (w.goto (if ok then .getProcAddress else .exited 3))
    | .getProcAddress => some (if ok then w.goto .init else { w with rc := 4 }.goto .freeLibrary)
    | _ => none
  | .init rc out =>
    match w.pc with
    | .init =>
      let w := { w.record (.init rc out) with handle := out, rc }
      some (if rc ≠ 0 ∨ out = none then { w with rc := 5 }.goto .freeLibrary
        else w.goto .serverStatus)
    | .mapInit i =>
      let w := { (w.record (.init rc out)).setMapHandle i out with rc }
      some (if rc ≠ 0 ∨ out = none then w.cleanupError else w.goto (.mapStatus i))
    | .retryInit i attempt =>
      let w := { (w.record (.init rc out)).setMapHandle i out with rc }
      some (if rc ≠ 0 ∨ out = none then w.afterAttempts i else w.goto (.retryStatus i attempt))
    | _ => none
  | .status rc =>
    match w.pc with
    | .serverStatus =>
      some ({ w.record (.queryServerStatus w.handle) with rc }.goto .deviceStatus)
    | .deviceStatus =>
      let w := { w.record (.deviceStatus w.handle) with rc }
      some (if rc ≠ 0 then w.cleanupError else w.goto .deviceInfo)
    | .deviceInfo => some ({ w.record (.getDeviceInfo w.handle) with rc }.enterMap 0)
    | .mapStatus i =>
      let w := { w.record (.deviceStatus (w.mapHandles i)) with rc }
      some (if rc ≠ 0 then w.cleanupError else w.goto (.connect i 1))
    | .retryStatus i attempt =>
      let w := { w.record (.deviceStatus (w.mapHandles i)) with rc }
      some (if rc ≠ 0 then w.afterAttempts i else w.goto (.connect i (attempt + 1)))
    | .channelQuery i deadline =>
      let w := w.record (.queryChannelStatus (w.mapHandles i))
      some (if rc = 0 ∨ rc = 1 then w.afterWait i rc
        else if rc ≠ 11 then w.cleanupError
        else w.goto (.channelCheck i deadline rc))
    | .monitorQuery i =>
      let w := w.record (.queryChannelStatus (w.mapHandles i))
      let w := if rc ≠ 0 ∧ rc ≠ 1 ∧ rc ≠ 11 then { w with stopRequested := true, rc := 10 } else w
      some (w.goto (.monitorEach (i + 1)))
    | _ => none
  | .connect rc localPort =>
    match w.pc with
    | .connect i attempt =>
      let w := { w.record (.connect i (w.mapHandles i) rc) with
        maps := w.maps.modify i fun map => { map with localPort }
        rc }
      some (if rc = 17 ∧ attempt < 3 then w.goto (.retryUnInit i attempt) else w.afterAttempts i)
    | _ => none
  | .tick now =>
    match w.pc with
    | .channelDeadline i => some (w.goto (.channelCheck i (now + 90000) 11))
    | .channelTick i deadline st =>
      some (if now < deadline then w.goto (.channelQuery i deadline) else w.afterWait i st)
    | _ => none
  | .proceed =>
    match w.pc with
    | .retryUnInit i attempt =>
      let w := if w.mapHandles i = none then w else w.record (.unInit (w.mapHandles i))
      some ((w.setMapHandle i none).goto (.retryInit i attempt))
    | .channelCheck i deadline st =>
      some (if w.stopRequested then w.afterWait i st else w.goto (.channelTick i deadline st))
    | .monitorCheck => some (if w.stopRequested then w.cleanup else w.goto (.monitorEach 0))
    | .monitorEach i =>
      some (w.goto (if i < w.maps.length then
          if w.isConnected i then .monitorQuery i else .monitorEach (i + 1)
        else .monitorCheck))
    | .disconnect 0 => some (w.goto (.unInit w.maps.length))
    | .disconnect (i + 1) =>
      let w := if w.isConnected i ∧ w.mapHandles i ≠ none
        then w.record (.disconnect (w.mapHandles i)) else w
      some (w.goto (.disconnect i))
    | .unInit 0 => some (w.goto .freeLibrary)
    | .unInit (i + 1) =>
      let w := if w.mapHandles i ≠ none then w.record (.unInit (w.mapHandles i)) else w
      some (w.goto (.unInit i))
    | .freeLibrary => some ((w.record .freeLibrary).goto (.exited w.rc))
    | _ => none

end Worker

end DahuaBridge.VendorWorker
