import DahuaBridge.Handshake.Handoff
import DahuaBridge.Engine.Session

/-!
# Setting up the channel

The PTCP part of `main` in `app/vendor/dh_p2p/main.py`: from the first sync request to
`launch_engine`. The script waits for one datagram at a time, so where it waits is a phase, and
a step is what comes in there, or the timeout.

* `request_keeps`, `read_keeps`: the rules for the two things that a step does on a socket.
* `step_keeps`: the rule for what depends on the two sockets only.
* `setup_bounded`: the script comes to its end, whatever the peers send.
-/

namespace DahuaBridge

open Tiling

/-! ## The two sockets -/

/-- The socket to the relay agent, `main_remote`, or to the device, `device_remote`. -/
inductive Via
  | relay
  | device
  deriving DecidableEq

/-- What the script has said or heard on a socket. -/
inductive Turn
  | request (body : Bytes)
  | read (body : Bytes)
  deriving DecidableEq

structure Remote where
  udp : UDP := {}
  turns : List Turn := []
  /-- The datagrams that `request_ptcp` has sent. -/
  datagrams : List Bytes := []

/-- `request_ptcp(body)`. -/
@[irreducible] def Remote.requestPtcp (remote : Remote) (body : Bytes) : Option Remote :=
  (remote.udp.requestPtcp body).map fun sent => {
    udp := sent.2
    turns := remote.turns ++ [.request body]
    datagrams := remote.datagrams ++ [sent.1] }

/-- `read_ptcp()`, once it has a packet: the body of it. -/
def Remote.readPtcp (remote : Remote) (data : Bytes) : Option (Remote × Bytes) :=
  (remote.udp.readPtcp [data]).map fun res =>
    ({ remote with udp := res.2, turns := remote.turns ++ [.read res.1.body] }, res.1.body)

/-- How the script ends. -/
inductive Outcome
  | launched (via : Via)
  | connectionError (message : String)
  /-- `sys.exit(1)`, when the device does not answer the first hole punch. -/
  | exited
  /-- The text protocol does not tell where the device is. -/
  | noChannel
  /-- The `ValueError` or `struct.error` of a helper. -/
  | raised
  deriving DecidableEq

/-- Where the script waits. A number is how often its loop goes on after this. -/
inductive Phase
  /-- The text protocol of the first attempt to use the relay. -/
  | earlyChannel
  | earlySync
  /-- The text protocol that tells the addresses of the device. -/
  | negotiating
  | relaySync
  | sign (left : Nat)
  | punch
  | punchAuth (rtransId : Bytes)
  | drain (left replies : Nat)
  | deviceSync
  | channel (left : Nat)
  | closing (left : Nat)
  | ended (outcome : Outcome)
  deriving DecidableEq

/-- What `main` has when it gets here. The addresses are the two bytes of a port and the four
of an IP address. -/
structure SetupConfig where
  /-- `transport == "relay"`. -/
  relayTransport : Bool
  /-- `P2P_WAIT_FOR_CHANNEL_RESPONSE` is `1`. -/
  waitForChannel : Bool
  /-- There is a `randsalt`. -/
  randsalt : Bool
  aid : Bytes
  cookie : Bytes
  transId : Bytes
  pubAddr : Bytes
  localAddr : Bytes

structure Setup where
  phase : Phase
  /-- How many datagrams `read_ptcp` looks at after the next one. -/
  tries : Nat := 19
  relay : Remote := {}
  device : Remote := {}
  /-- The hole punches. -/
  punches : List Bytes := []
  sign : Bytes := []

inductive SetupEvent
  | datagram (data : Bytes)
  /-- Nothing came in time. For the text protocol: it has failed. -/
  | timeout
  /-- The text protocol has come to its end. -/
  | channelResponse

namespace Setup

def remote (s : Setup) : Via → Remote
  | .relay => s.relay
  | .device => s.device

def setRemote (s : Setup) : Via → Remote → Setup
  | .relay, remote => { s with relay := remote }
  | .device, remote => { s with device := remote }

def finish (s : Setup) (outcome : Outcome) : Setup := { s with phase := .ended outcome }

/-- `request_ptcp(body)`, and what the script does next. -/
def request (s : Setup) (via : Via) (body : Bytes) (next : Setup → Setup) : Setup :=
  ((s.remote via).requestPtcp body).elim (s.finish .raised) fun remote =>
    next (s.setRemote via remote)

/-- The loop of `read_ptcp`, at its `recv`, and what the script does with the body. -/
def read (s : Setup) (via : Via) (event : SetupEvent) (timeout : Option Setup)
    (next : Setup → Bytes → Setup) : Option Setup :=
  match event with
  | .datagram data =>
    if 4 ≤ data.length ∧ data.take 4 = magic then
      some <| ((s.remote via).readPtcp data).elim (s.finish .raised) fun res =>
        next ({ s with tries := 19 }.setRemote via res.1) res.2
    else
      match s.tries with
      | 0 => some (s.finish .raised)
      | tries + 1 => some { s with tries }
  | .timeout => timeout
  | .channelResponse => none

/-! ## The bodies -/

/-- `b"\x17\x00\x00\x00" + b"\x00\x00\x00\x00\x00\x00\x00\x00"`. -/
def signRequest : Bytes := [0x17, 0, 0, 0, 0, 0, 0, 0, 0, 0, 0, 0]

def channelRequest (sign : Bytes) : Bytes := [0x19, 0, 0, 0, 0, 0, 0, 0, 0, 0, 0, 0] ++ sign

def closeRequest : Bytes := [0x1B, 0, 0, 0, 0, 0, 0, 0, 0, 0, 0, 0]

/-- `bytes(0xFF - b for b in data)`. -/
def inverted (data : Bytes) : Bytes := data.map (0xFF - ·)

def punchRequest (config : SetupConfig) : Bytes :=
  [0xFF, 0xFE, 0xFF, 0xE7] ++ config.cookie ++ config.transId ++ [0x7F, 0xD5, 0xFF, 0xF7] ++
    inverted config.aid ++ [0xFF, 0xFB, 0xFF, 0xF7, 0xFF, 0xFE] ++ inverted config.pubAddr

def punchAnswer (config : SetupConfig) (rtransId : Bytes) : Bytes :=
  [0xFE, 0xFE, 0xFF, 0xE7] ++ config.cookie ++ rtransId ++ [0x7F, 0xD6, 0xFF, 0xF7] ++
    inverted config.aid ++ [0xFF, 0xFB, 0xFF, 0xF7, 0xFF, 0xFE] ++ config.localAddr

def punchAuthAnswer (config : SetupConfig) (rtransId : Bytes) : Bytes :=
  [0xFE, 0xFE, 0xFF, 0xF3] ++ config.cookie ++ rtransId ++ [0x7F, 0xD6, 0xFF, 0xF7] ++
    inverted config.aid ++ [0xFF, 0xFB, 0xFF, 0xF7, 0xFF, 0xFE] ++
    [0xA8, 0x13, 0x3F, 0x57, 0xFE, 0x37]

/-- `body.hex()`. -/
def hex (body : Bytes) : String :=
  String.ofList (body.flatMap fun b =>
    [Nat.digitChar (b.toNat / 16), Nat.digitChar (b.toNat % 16)])

/-! ## The script -/

def nextSign (s : Setup) : Nat → Setup
  | 0 => s.finish (.connectionError "Relay server did not return PTCP sign response 0x18")
  | left + 1 => { s with phase := .sign left }

def nextChannel (s : Setup) : Nat → Setup
  | 0 => s.finish (.connectionError "Device did not return PTCP channel response 0x1A")
  | left + 1 => { s with phase := .channel left }

def nextClosing (s : Setup) : Nat → Setup
  | 0 => s.finish (.connectionError "Device did not acknowledge PTCP channel setup")
  | left + 1 => { s with phase := .closing left }

/-- After the loop that drains the answers to the hole punch. -/
def drained (s : Setup) : Nat → Setup
  | 0 => s.finish (.launched .relay)
  | _ + 1 => s.request .device syncBytes fun s => { s with phase := .deviceSync }

/-- The body of a heartbeat for the loop on the relay. -/
def relayHeartbeat (body : Bytes) : Bool := body.head? = some 0x13

def isSign (body : Bytes) : Bool := 12 < body.length && body.head? = some 0x18

/-- The body of a heartbeat for the loop on the device. -/
def deviceHeartbeat (body : Bytes) : Bool := 4 ≤ body.length && body.head? = some 0x13

def isChannelResponse (body : Bytes) : Bool := body.head? = some 0x1A

def step (config : SetupConfig) (s : Setup) (event : SetupEvent) : Option Setup :=
  match s.phase with
  | .earlyChannel =>
    match event with
    | .channelResponse => some (s.request .relay syncBytes fun s => { s with phase := .earlySync })
    | .timeout => some { s with phase := .negotiating }
    | .datagram _ => none
  | .earlySync =>
    s.read .relay event (some { s with tries := 19, phase := .negotiating }) fun s body =>
      if body = syncBytes then s.finish (.launched .relay) else { s with phase := .negotiating }
  | .negotiating =>
    match event with
    | .channelResponse => some (s.request .relay syncBytes fun s => { s with phase := .relaySync })
    | .timeout => some (s.finish .noChannel)
    | .datagram _ => none
  | .relaySync =>
    -- a read without a timeout
    s.read .relay event none fun s body =>
      if config.relayTransport then
        if body = syncBytes then s.finish (.launched .relay)
        else s.finish (.connectionError "Relay transport did not acknowledge PTCP sync")
      else s.request .relay signRequest fun s => { s with phase := .sign 11 }
  | .sign left =>
    s.read .relay event (some (s.nextSign 0)) fun s body =>
      if relayHeartbeat body then s.request .relay [] fun s => s.nextSign left
      else if isSign body then
        { s with sign := body.drop 12 }.request .relay [] fun s =>
          { s with phase := .punch, punches := s.punches ++ [punchRequest config] }
      else s.nextSign left
  | .punch =>
    match event with
    | .datagram data =>
      let rtransId := (data.drop 8).take 12
      some { s with
        punches := s.punches ++ [punchAnswer config rtransId]
        phase := if config.randsalt then .punchAuth rtransId else .drain 4 0 }
    | .timeout => some (s.finish .exited)
    | .channelResponse => none
  | .punchAuth rtransId =>
    match event with
    | .datagram _ =>
      some { s with
        punches := s.punches ++ List.replicate 5 (punchAuthAnswer config rtransId)
        phase := .drain 4 0 }
    | _ => none
  | .drain left replies =>
    match event with
    | .datagram _ =>
      match left with
      | 0 => some (s.drained (replies + 1))
      | left + 1 => some { s with phase := .drain left (replies + 1) }
    | .timeout => some (s.drained replies)
    | .channelResponse => none
  | .deviceSync =>
    s.read .device event (some (s.finish (.launched .relay))) fun s body =>
      if body = syncBytes then
        s.request .device (channelRequest s.sign) fun s => { s with phase := .channel 7 }
      else s.finish (.connectionError ("Unexpected direct PTCP sync response: " ++ hex body))
  | .channel left =>
    s.read .device event (some (s.nextChannel 0)) fun s body =>
      if deviceHeartbeat body then s.request .device [] fun s => s.nextChannel left
      else if isChannelResponse body then
        s.request .device closeRequest fun s => { s with phase := .closing 5 }
      else s.nextChannel left
  | .closing left =>
    s.read .device event (some (s.nextClosing 0)) fun s body =>
      if body = [] then s.finish (.launched .device) else s.nextClosing left
  | .ended _ => none

/-- The first attempt to use the relay is made in direct mode only. -/
def start (config : SetupConfig) : Setup :=
  if config.relayTransport ∨ config.waitForChannel then { phase := .negotiating }
  else { phase := .earlyChannel }

/-! ## What a step does -/

section Rules

variable {config : SetupConfig} {s s' : Setup} {via : Via} {event : SetupEvent}
  {timeout : Option Setup}

/-- What holds after a request, when it is sent and when it cannot be packed. -/
theorem request_keeps {I : Setup → Prop} {body : Bytes} {next : Setup → Setup}
    (hraised : I (s.finish .raised))
    (hsaid : ∀ remote, (s.remote via).requestPtcp body = some remote →
      I (next (s.setRemote via remote))) :
    I (s.request via body next) := by
  unfold request
  cases hrequest : (s.remote via).requestPtcp body with
  | none => exact hraised
  | some remote => exact hsaid remote hrequest

/-- What holds after a step of `read_ptcp`. -/
theorem read_keeps {I : Setup → Prop} {next : Setup → Bytes → Setup}
    (hraised : I (s.finish .raised)) (hskipped : ∀ tries, s.tries = tries + 1 → I { s with tries })
    (htimeout : ∀ t, timeout = some t → I t)
    (hheard : ∀ data remote body, (s.remote via).readPtcp data = some (remote, body) →
      I (next ({ s with tries := 19 }.setRemote via remote) body))
    (hread : s.read via event timeout next = some s') : I s' := by
  unfold read at hread
  split at hread
  · next data =>
    split at hread
    · cases hread
      cases hres : (s.remote via).readPtcp data with
      | none => exact hraised
      | some res => exact hheard data res.1 res.2 hres
    · split at hread
      · cases hread
        exact hraised
      · next tries htries =>
        cases hread
        exact hskipped tries htries
  · exact htimeout s' hread
  · cases hread

/-- What depends on the sockets only, and is kept by a request and by a read, is kept. -/
theorem step_keeps {I : Setup → Prop}
    (hcongr : ∀ s s' : Setup, s'.relay = s.relay → s'.device = s.device → I s → I s')
    (hsaid : ∀ (s : Setup) via body remote, (s.remote via).requestPtcp body = some remote → I s →
      I (s.setRemote via remote))
    (hheard : ∀ (s : Setup) via data remote body,
      (s.remote via).readPtcp data = some (remote, body) → I s → I (s.setRemote via remote))
    (h : I s) (hstep : s.step config event = some s') : I s' := by
  have hrequest {s : Setup} {via : Via} {body : Bytes} {next : Setup → Setup} (h : I s)
      (hnext : ∀ t, I t → I (next t)) : I (s.request via body next) :=
    request_keeps (I := I) (hcongr s _ rfl rfl h) fun _ hsent => hnext _ (hsaid s via body _ hsent h)
  have hread {s t : Setup} {via : Via} {timeout : Option Setup} {next : Setup → Bytes → Setup}
      (h : I s) (htimeout : ∀ t, timeout = some t → I t) (hnext : ∀ t body, I t → I (next t body))
      (hread : s.read via event timeout next = some t) : I t := by
    refine read_keeps (I := I) (hcongr s _ rfl rfl h) (fun _ _ => hcongr s _ rfl rfl h) htimeout ?_
      hread
    exact fun data remote body hres => hnext _ _
      (hheard { s with tries := 19 } via data remote body hres (hcongr s _ rfl rfl h))
  have hsign (t : Setup) (left : Nat) (h : I t) : I (t.nextSign left) := by
    cases left <;> exact hcongr t _ rfl rfl h
  have hchannel (t : Setup) (left : Nat) (h : I t) : I (t.nextChannel left) := by
    cases left <;> exact hcongr t _ rfl rfl h
  have hclosing (t : Setup) (left : Nat) (h : I t) : I (t.nextClosing left) := by
    cases left <;> exact hcongr t _ rfl rfl h
  have hdrained (t : Setup) (replies : Nat) (h : I t) : I (t.drained replies) := by
    cases replies with
    | zero => exact hcongr t _ rfl rfl h
    | succ replies =>
      unfold drained
      exact hrequest h fun u hu => hcongr u _ rfl rfl hu
  unfold step at hstep
  cases hphase : s.phase with
  | earlyChannel =>
    simp only [hphase] at hstep
    split at hstep
    · exact Option.some.inj hstep ▸ hrequest h fun t ht => hcongr t _ rfl rfl ht
    · exact Option.some.inj hstep ▸ hcongr s _ rfl rfl h
    · cases hstep
  | earlySync =>
    simp only [hphase] at hstep
    refine hread h (fun t ht => ?_) (fun t body h => ?_) hstep
    · cases ht
      exact hcongr s _ rfl rfl h
    · split <;> exact hcongr t _ rfl rfl h
  | negotiating =>
    simp only [hphase] at hstep
    split at hstep
    · exact Option.some.inj hstep ▸ hrequest h fun t ht => hcongr t _ rfl rfl ht
    · exact Option.some.inj hstep ▸ hcongr s _ rfl rfl h
    · cases hstep
  | relaySync =>
    simp only [hphase] at hstep
    refine hread h (fun t ht => by cases ht) (fun t body h => ?_) hstep
    split
    · split <;> exact hcongr t _ rfl rfl h
    · exact hrequest h fun u hu => hcongr u _ rfl rfl hu
  | sign left =>
    simp only [hphase] at hstep
    refine hread h (fun t ht => Option.some.inj ht ▸ hsign s 0 h) (fun t body h => ?_) hstep
    split
    · exact hrequest h fun u hu => hsign u left hu
    · split
      · exact hrequest (hcongr t _ rfl rfl h) fun u hu => hcongr u _ rfl rfl hu
      · exact hsign t left h
  | punch =>
    simp only [hphase] at hstep
    split at hstep
    · exact Option.some.inj hstep ▸ hcongr s _ rfl rfl h
    · exact Option.some.inj hstep ▸ hcongr s _ rfl rfl h
    · cases hstep
  | punchAuth rtransId =>
    simp only [hphase] at hstep
    split at hstep
    · exact Option.some.inj hstep ▸ hcongr s _ rfl rfl h
    · cases hstep
  | drain left replies =>
    simp only [hphase] at hstep
    split at hstep
    · split at hstep
      · exact Option.some.inj hstep ▸ hdrained s (replies + 1) h
      · exact Option.some.inj hstep ▸ hcongr s _ rfl rfl h
    · exact Option.some.inj hstep ▸ hdrained s replies h
    · cases hstep
  | deviceSync =>
    simp only [hphase] at hstep
    refine hread h (fun t ht => ?_) (fun t body h => ?_) hstep
    · cases ht
      exact hcongr s _ rfl rfl h
    · split
      · exact hrequest h fun u hu => hcongr u _ rfl rfl hu
      · exact hcongr t _ rfl rfl h
  | channel left =>
    simp only [hphase] at hstep
    refine hread h (fun t ht => Option.some.inj ht ▸ hchannel s 0 h) (fun t body h => ?_) hstep
    split
    · exact hrequest h fun u hu => hchannel u left hu
    · split
      · exact hrequest h fun u hu => hcongr u _ rfl rfl hu
      · exact hchannel t left h
  | closing left =>
    simp only [hphase] at hstep
    refine hread h (fun t ht => Option.some.inj ht ▸ hclosing s 0 h) (fun t body h => ?_) hstep
    split
    · exact hcongr t _ rfl rfl h
    · exact hclosing t left h
  | ended outcome =>
    simp only [hphase] at hstep
    cases hstep

/-! ## The script comes to its end -/

/-- How many datagrams and timeouts may still come before the script is over. -/
def rank (s : Setup) : Nat :=
  match s.phase with
  | .earlyChannel => 589
  | .earlySync => 569 + s.tries
  | .negotiating => 568
  | .relaySync => 548 + s.tries
  | .sign left => 308 + 20 * left + s.tries
  | .punch => 307
  | .punchAuth _ => 306
  | .drain left _ => 301 + left
  | .deviceSync => 281 + s.tries
  | .channel left => 121 + 20 * left + s.tries
  | .closing left => 1 + 20 * left + s.tries
  | .ended _ => 0

theorem rank_nextSign (left : Nat) (htries : s.tries ≤ 19) :
    (s.nextSign left).tries ≤ 19 ∧ (s.nextSign left).rank < 308 + 20 * left := by
  cases left with
  | zero => exact ⟨htries, Nat.succ_pos _⟩
  | succ left =>
    refine ⟨htries, ?_⟩
    show 308 + 20 * left + s.tries < _
    omega

theorem rank_nextChannel (left : Nat) (htries : s.tries ≤ 19) :
    (s.nextChannel left).tries ≤ 19 ∧ (s.nextChannel left).rank < 121 + 20 * left := by
  cases left with
  | zero => exact ⟨htries, Nat.succ_pos _⟩
  | succ left =>
    refine ⟨htries, ?_⟩
    show 121 + 20 * left + s.tries < _
    omega

theorem rank_nextClosing (left : Nat) (htries : s.tries ≤ 19) :
    (s.nextClosing left).tries ≤ 19 ∧ (s.nextClosing left).rank < 1 + 20 * left := by
  cases left with
  | zero => exact ⟨htries, Nat.succ_pos _⟩
  | succ left =>
    refine ⟨htries, ?_⟩
    show 1 + 20 * left + s.tries < _
    omega

theorem rank_drained (replies : Nat) (htries : s.tries ≤ 19) :
    (s.drained replies).tries ≤ 19 ∧ (s.drained replies).rank < 301 := by
  cases replies with
  | zero => exact ⟨htries, Nat.succ_pos _⟩
  | succ replies =>
    unfold drained
    refine request_keeps (I := fun t => t.tries ≤ 19 ∧ t.rank < 301) ⟨htries, Nat.succ_pos _⟩ ?_
    refine fun remote _ => ⟨htries, ?_⟩
    show 281 + s.tries < 301
    omega

theorem read_rank {base : Nat} {next : Setup → Bytes → Setup} (htries : s.tries ≤ 19)
    (hbase : 0 < base) (hrank : ∀ tries, rank { s with tries } = base + tries)
    (htimeout : ∀ t, timeout = some t → t.tries ≤ 19 ∧ t.rank < base)
    (hnext : ∀ t body, t.tries ≤ 19 → (next t body).tries ≤ 19 ∧ (next t body).rank < base)
    (hread : s.read via event timeout next = some s') : s'.tries ≤ 19 ∧ s'.rank < s.rank := by
  have hself : s.rank = base + s.tries := hrank s.tries
  have hbelow {t : Setup} (ht : t.tries ≤ 19 ∧ t.rank < base) : t.tries ≤ 19 ∧ t.rank < s.rank :=
    ⟨ht.1, hself ▸ Nat.lt_add_right s.tries ht.2⟩
  refine read_keeps (I := fun t => t.tries ≤ 19 ∧ t.rank < s.rank) ?_ (fun tries hskip => ?_)
    (fun t ht => hbelow (htimeout t ht)) (fun data remote body _ => ?_) hread
  · exact hbelow ⟨htries, hbase⟩
  · rw [hskip] at htries
    rw [hrank, hself, hskip]
    exact ⟨Nat.le_of_succ_le htries, Nat.lt_succ_self _⟩
  · refine hbelow (hnext _ body ?_)
    cases via <;> exact Nat.le_refl 19

theorem request_rank {bound : Nat} {body : Bytes} {next : Setup → Setup} (htries : s.tries ≤ 19)
    (hbound : 0 < bound) (hnext : ∀ t, t.tries ≤ 19 → (next t).tries ≤ 19 ∧ (next t).rank < bound) :
    (s.request via body next).tries ≤ 19 ∧ (s.request via body next).rank < bound := by
  refine request_keeps (I := fun t => t.tries ≤ 19 ∧ t.rank < bound) ⟨htries, hbound⟩ ?_
  refine fun remote _ => hnext _ ?_
  cases via <;> exact htries

/-- Every step brings the script nearer to its end. -/
theorem step_rank (htries : s.tries ≤ 19) (hstep : s.step config event = some s') :
    s'.tries ≤ 19 ∧ s'.rank < s.rank := by
  have hended (t : Setup) (outcome : Outcome) {bound : Nat} (ht : t.tries ≤ 19)
      (hbound : 0 < bound) : (t.finish outcome).tries ≤ 19 ∧ (t.finish outcome).rank < bound :=
    ⟨ht, hbound⟩
  unfold step at hstep
  cases hphase : s.phase with
  | earlyChannel =>
    have hrank : s.rank = 589 := by rw [rank, hphase]
    simp only [hphase] at hstep
    rw [hrank]
    split at hstep
    · cases hstep
      refine request_rank htries (by decide) fun t ht => ⟨ht, ?_⟩
      show 569 + t.tries < 589
      omega
    · cases hstep
      exact ⟨htries, show 568 < 589 by decide⟩
    · cases hstep
  | earlySync =>
    have hrank (tries : Nat) : rank { s with tries } = 569 + tries := by simp only [rank, hphase]
    simp only [hphase] at hstep
    refine read_rank htries (by decide) hrank (fun t ht => ?_) (fun t body ht => ?_) hstep
    · cases ht
      exact ⟨Nat.le_refl 19, show 568 < 569 by decide⟩
    · split
      · exact hended t _ ht (by decide)
      · exact ⟨ht, show 568 < 569 by decide⟩
  | negotiating =>
    have hrank : s.rank = 568 := by rw [rank, hphase]
    simp only [hphase] at hstep
    rw [hrank]
    split at hstep
    · cases hstep
      refine request_rank htries (by decide) fun t ht => ⟨ht, ?_⟩
      show 548 + t.tries < 568
      omega
    · cases hstep
      exact hended s _ htries (by decide)
    · cases hstep
  | relaySync =>
    have hrank (tries : Nat) : rank { s with tries } = 548 + tries := by simp only [rank, hphase]
    simp only [hphase] at hstep
    refine read_rank htries (by decide) hrank (fun t ht => by cases ht) (fun t body ht => ?_) hstep
    split
    · split <;> exact hended t _ ht (by decide)
    · refine request_rank ht (by decide) fun t ht => ⟨ht, ?_⟩
      show 308 + 20 * 11 + t.tries < 548
      omega
  | sign left =>
    have hrank (tries : Nat) : rank { s with tries } = 308 + 20 * left + tries := by
      simp only [rank, hphase]
    simp only [hphase] at hstep
    refine read_rank htries (by omega) hrank (fun t ht => ?_) (fun t body ht => ?_) hstep
    · cases ht
      exact hended s _ htries (by omega)
    · split
      · exact request_rank ht (by omega) fun t ht => rank_nextSign left ht
      · split
        · refine request_rank ht (by omega) fun t ht => ⟨ht, ?_⟩
          show 307 < 308 + 20 * left
          omega
        · exact rank_nextSign left ht
  | punch =>
    have hrank : s.rank = 307 := by rw [rank, hphase]
    simp only [hphase] at hstep
    rw [hrank]
    split at hstep
    · cases hstep
      refine ⟨htries, ?_⟩
      cases config.randsalt with
      | true => exact show 306 < 307 by decide
      | false => exact show 305 < 307 by decide
    · cases hstep
      exact hended s _ htries (by decide)
    · cases hstep
  | punchAuth rtransId =>
    have hrank : s.rank = 306 := by rw [rank, hphase]
    simp only [hphase] at hstep
    rw [hrank]
    split at hstep
    · cases hstep
      exact ⟨htries, show 305 < 306 by decide⟩
    · cases hstep
  | drain left replies =>
    have hrank : s.rank = 301 + left := by rw [rank, hphase]
    have hdrained (replies : Nat) :
        (s.drained replies).tries ≤ 19 ∧ (s.drained replies).rank < 301 + left :=
      ⟨(rank_drained replies htries).1, Nat.lt_add_right left (rank_drained replies htries).2⟩
    simp only [hphase] at hstep
    rw [hrank]
    split at hstep
    · split at hstep
      · cases hstep
        exact hdrained _
      · cases hstep
        exact ⟨htries, Nat.lt_succ_self _⟩
    · cases hstep
      exact hdrained _
    · cases hstep
  | deviceSync =>
    have hrank (tries : Nat) : rank { s with tries } = 281 + tries := by simp only [rank, hphase]
    simp only [hphase] at hstep
    refine read_rank htries (by decide) hrank (fun t ht => ?_) (fun t body ht => ?_) hstep
    · cases ht
      exact hended s _ htries (by decide)
    · split
      · refine request_rank ht (by decide) fun t ht => ⟨ht, ?_⟩
        show 121 + 20 * 7 + t.tries < 281
        omega
      · exact hended t _ ht (by decide)
  | channel left =>
    have hrank (tries : Nat) : rank { s with tries } = 121 + 20 * left + tries := by
      simp only [rank, hphase]
    simp only [hphase] at hstep
    refine read_rank htries (by omega) hrank (fun t ht => ?_) (fun t body ht => ?_) hstep
    · cases ht
      exact hended s _ htries (by omega)
    · split
      · exact request_rank ht (by omega) fun t ht => rank_nextChannel left ht
      · split
        · refine request_rank ht (by omega) fun t ht => ⟨ht, ?_⟩
          show 1 + 20 * 5 + t.tries < 121 + 20 * left
          omega
        · exact rank_nextChannel left ht
  | closing left =>
    have hrank (tries : Nat) : rank { s with tries } = 1 + 20 * left + tries := by
      simp only [rank, hphase]
    simp only [hphase] at hstep
    refine read_rank htries (by omega) hrank (fun t ht => ?_) (fun t body ht => ?_) hstep
    · cases ht
      exact hended s _ htries (by omega)
    · split
      · exact hended t _ ht (by omega)
      · exact rank_nextClosing left ht
  | ended outcome =>
    simp only [hphase] at hstep
    cases hstep

/-- The script waits without a timeout in two places only. -/
theorem step_timeout (hstuck : s.step config .timeout = none) :
    s.phase = .relaySync ∨ (∃ rtransId, s.phase = .punchAuth rtransId) ∨
      ∃ outcome, s.phase = .ended outcome := by
  unfold step at hstuck
  cases hphase : s.phase with
  | relaySync => exact .inl rfl
  | punchAuth rtransId => exact .inr (.inl ⟨rtransId, rfl⟩)
  | ended outcome => exact .inr (.inr ⟨outcome, rfl⟩)
  | _ =>
    simp only [hphase] at hstuck
    exact absurd hstuck (Option.some_ne_none _)

/-- Whatever the peers send, the script is over after at most 589 datagrams and timeouts. When it
does not go on after a timeout, it is over, or it waits for the sync of the relay or for the
salt of the device. -/
theorem setup_bounded {events : List SetupEvent}
    (hrun : Run.run (step config) events (start config) = some s) :
    events.length ≤ 589 ∧ (s.step config .timeout = none →
      s.phase = .relaySync ∨ (∃ rtransId, s.phase = .punchAuth rtransId) ∨
        ∃ outcome, s.phase = .ended outcome) := by
  have hstart : (start config).tries ≤ 19 ∧ (start config).rank ≤ 589 := by
    unfold start
    split
    · exact ⟨Nat.le_refl 19, show 568 ≤ 589 by decide⟩
    · exact ⟨Nat.le_refl 19, Nat.le_refl 589⟩
  have hrank : s.rank + events.length ≤ (start config).rank :=
    Run.run_length_le (I := fun t => t.tries ≤ 19) hstart.1
      (fun _ _ _ ht hstep => step_rank ht hstep) hrun
  exact ⟨Nat.le_trans (Nat.le_trans (Nat.le_add_left ..) hrank) hstart.2, step_timeout⟩

/-- The relay never answers the first attempt, and the text protocol fails. -/
theorem setup_bounded_noChannel :
    ∃ config s, Run.run (step config) [.channelResponse, .timeout, .timeout] (start config) =
      some s ∧ ∃ outcome, s.phase = .ended outcome := by
  let config : SetupConfig := ⟨false, false, true, [], [], [], [], []⟩
  have hends : (Run.run (step config) [.channelResponse, .timeout, .timeout]
      (start config)).map phase = some (.ended .noChannel) := by decide +kernel
  obtain ⟨s, hrun, hphase⟩ := Option.map_eq_some_iff.mp hends
  have hstuck : s.step config .timeout = none := by
    unfold step
    simp only [hphase]
  rcases (setup_bounded hrun).2 hstuck with hsync | ⟨rtransId, hpunch⟩ | hended
  · exact absurd (hphase.symm.trans hsync) Phase.noConfusion
  · exact absurd (hphase.symm.trans hpunch) Phase.noConfusion
  · exact ⟨config, s, hrun, hended⟩

end Rules

end Setup

end DahuaBridge
