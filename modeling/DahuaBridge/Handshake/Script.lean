import DahuaBridge.Handshake.Setup

/-!
# What is said in the setup

Every run of the setup says the same things in the same order, on both sockets.

* `Setup.Script`, `Setup.Punched`: the invariants. What was said so far, phase by phase.
* `Tallied`: the counters of a socket go with what was said on it.
* `setup_launch`: what was said when a socket is handed to the engine.
-/

namespace DahuaBridge

namespace Setup

theorem turns_requestPtcp {remote remote' : Remote} {body : Bytes}
    (h : remote.requestPtcp body = some remote') :
    remote'.turns = remote.turns ++ [.request body] := by
  unfold Remote.requestPtcp at h
  obtain ⟨_, _, rfl⟩ := Option.map_eq_some_iff.mp h
  rfl

theorem turns_readPtcp {remote remote' : Remote} {data body : Bytes}
    (h : remote.readPtcp data = some (remote', body)) :
    remote'.turns = remote.turns ++ [.read body] := by
  unfold Remote.readPtcp at h
  obtain ⟨_, _, hres⟩ := Option.map_eq_some_iff.mp h
  cases hres
  rfl

/-! ## What is said -/

/-- What a loop reads over: `n` packets before the one that it waits for. A heartbeat gets an
empty packet. -/
inductive Waits (isHeartbeat isLast : Bytes → Bool) : Nat → List Turn → Prop
  | nil : Waits isHeartbeat isLast 0 []
  | other {n : Nat} {turns : List Turn} (body : Bytes) : Waits isHeartbeat isLast n turns →
      isHeartbeat body = false → isLast body = false →
      Waits isHeartbeat isLast (n + 1) (turns ++ [.read body])
  | heartbeat {n : Nat} {turns : List Turn} (body : Bytes) : Waits isHeartbeat isLast n turns →
      isHeartbeat body = true → Waits isHeartbeat isLast (n + 1) (turns ++ [.read body, .request []])

/-- The first attempt to use the relay: it is not made, or it fails. -/
inductive Early : List Turn → Prop
  | skipped : Early []
  | silent : Early [.request syncBytes]
  | refused (body : Bytes) : body ≠ syncBytes → Early [.request syncBytes, .read body]

/-- The relay was asked for the sign, and the loop has read over `n` packets. -/
def Asked (n : Nat) (turns : List Turn) : Prop :=
  ∃ early first waits, Early early ∧ Waits relayHeartbeat isSign n waits ∧
    turns = early ++ [.request syncBytes, .read first, .request signRequest] ++ waits

/-- The relay has given the sign. -/
def Signed (sign : Bytes) (turns : List Turn) : Prop :=
  ∃ n asked answer, Asked n asked ∧ n ≤ 11 ∧ isSign answer = true ∧ sign = answer.drop 12 ∧
    turns = asked ++ [.read answer, .request []]

/-- The device was given the sign, and the loop has read over `n` packets. -/
def Opened (sign : Bytes) (n : Nat) (turns : List Turn) : Prop :=
  ∃ waits, Waits deviceHeartbeat isChannelResponse n waits ∧
    turns = [.request syncBytes, .read syncBytes, .request (channelRequest sign)] ++ waits

/-- The device has opened the channel, and the last loop has read over `n` packets. -/
def Closing (sign : Bytes) (n : Nat) (turns : List Turn) : Prop :=
  ∃ k opened answer waits, Opened sign k opened ∧ k ≤ 7 ∧ isChannelResponse answer = true ∧
    Waits (fun _ => false) List.isEmpty n waits ∧
    turns = opened ++ [.read answer, .request closeRequest] ++ waits

/-- What the device has said when its socket is handed over. -/
def DeviceReady (sign : Bytes) (turns : List Turn) : Prop :=
  ∃ n closing, Closing sign n closing ∧ n ≤ 5 ∧ turns = closing ++ [.read []]

/-- The relay has answered a sync with a sync. -/
def RelaySynced (turns : List Turn) : Prop :=
  ∃ early, Early early ∧ turns = early ++ [.request syncBytes, .read syncBytes]

/-- What was said on the two sockets, phase by phase. -/
def Script (s : Setup) : Prop :=
  match s.phase with
  | .earlyChannel => s.relay.turns = [] ∧ s.device.turns = []
  | .earlySync => s.relay.turns = [.request syncBytes] ∧ s.device.turns = []
  | .negotiating => Early s.relay.turns ∧ s.device.turns = []
  | .relaySync => (∃ early, Early early ∧ s.relay.turns = early ++ [.request syncBytes]) ∧
      s.device.turns = []
  | .sign left => (∃ n, Asked n s.relay.turns ∧ n + left = 11) ∧ s.device.turns = []
  | .punch => Signed s.sign s.relay.turns ∧ s.device.turns = []
  | .punchAuth _ => Signed s.sign s.relay.turns ∧ s.device.turns = []
  | .drain _ _ => Signed s.sign s.relay.turns ∧ s.device.turns = []
  | .deviceSync => Signed s.sign s.relay.turns ∧ s.device.turns = [.request syncBytes]
  | .channel left => Signed s.sign s.relay.turns ∧ ∃ n, Opened s.sign n s.device.turns ∧ n + left = 7
  | .closing left => Signed s.sign s.relay.turns ∧ ∃ n, Closing s.sign n s.device.turns ∧ n + left = 5
  | .ended (.launched .device) => Signed s.sign s.relay.turns ∧ DeviceReady s.sign s.device.turns
  | .ended (.launched .relay) => RelaySynced s.relay.turns ∧ s.device.turns = [] ∨
      Signed s.sign s.relay.turns ∧ (s.device.turns = [] ∨ s.device.turns = [.request syncBytes])
  | .ended _ => True

section Script

variable {config : SetupConfig} {s s' : Setup} {event : SetupEvent}

theorem script_nextSign {left n : Nat} (hasked : Asked n s.relay.turns) (hn : n + left = 12)
    (hdevice : s.device.turns = []) : (s.nextSign left).Script := by
  cases left with
  | zero => trivial
  | succ left => exact ⟨⟨n, hasked, Nat.succ.inj hn⟩, hdevice⟩

theorem script_nextChannel {left n : Nat} (hsigned : Signed s.sign s.relay.turns)
    (hopened : Opened s.sign n s.device.turns) (hn : n + left = 8) :
    (s.nextChannel left).Script := by
  cases left with
  | zero => trivial
  | succ left => exact ⟨hsigned, n, hopened, Nat.succ.inj hn⟩

theorem script_nextClosing {left n : Nat} (hsigned : Signed s.sign s.relay.turns)
    (hclosing : Closing s.sign n s.device.turns) (hn : n + left = 6) :
    (s.nextClosing left).Script := by
  cases left with
  | zero => trivial
  | succ left => exact ⟨hsigned, n, hclosing, Nat.succ.inj hn⟩

theorem script_drained {replies : Nat} (hsigned : Signed s.sign s.relay.turns)
    (hdevice : s.device.turns = []) : (s.drained replies).Script := by
  cases replies with
  | zero => exact .inr ⟨hsigned, .inl hdevice⟩
  | succ replies =>
    unfold drained
    refine request_keeps (I := Script) trivial fun remote hsent => ⟨hsigned, ?_⟩
    exact (turns_requestPtcp hsent).trans (congrArg (· ++ [Turn.request syncBytes]) hdevice)

theorem Asked.other {n : Nat} {turns : List Turn} {body : Bytes} (h : Asked n turns)
    (hheartbeat : relayHeartbeat body = false) (hsign : isSign body = false) :
    Asked (n + 1) (turns ++ [.read body]) := by
  obtain ⟨early, first, waits, hearly, hwaits, rfl⟩ := h
  exact ⟨early, first, _, hearly, hwaits.other body hheartbeat hsign, List.append_assoc ..⟩

theorem Asked.heartbeat {n : Nat} {turns : List Turn} {body : Bytes} (h : Asked n turns)
    (hheartbeat : relayHeartbeat body = true) :
    Asked (n + 1) (turns ++ [.read body, .request []]) := by
  obtain ⟨early, first, waits, hearly, hwaits, rfl⟩ := h
  exact ⟨early, first, _, hearly, hwaits.heartbeat body hheartbeat, List.append_assoc ..⟩

theorem Opened.other {sign body : Bytes} {n : Nat} {turns : List Turn} (h : Opened sign n turns)
    (hheartbeat : deviceHeartbeat body = false) (hresponse : isChannelResponse body = false) :
    Opened sign (n + 1) (turns ++ [.read body]) := by
  obtain ⟨waits, hwaits, rfl⟩ := h
  exact ⟨_, hwaits.other body hheartbeat hresponse, List.append_assoc ..⟩

theorem Opened.heartbeat {sign body : Bytes} {n : Nat} {turns : List Turn} (h : Opened sign n turns)
    (hheartbeat : deviceHeartbeat body = true) :
    Opened sign (n + 1) (turns ++ [.read body, .request []]) := by
  obtain ⟨waits, hwaits, rfl⟩ := h
  exact ⟨_, hwaits.heartbeat body hheartbeat, List.append_assoc ..⟩

theorem Closing.other {sign body : Bytes} {n : Nat} {turns : List Turn} (h : Closing sign n turns)
    (hbody : body ≠ []) : Closing sign (n + 1) (turns ++ [.read body]) := by
  obtain ⟨k, opened, answer, waits, hopened, hk, hanswer, hwaits, rfl⟩ := h
  exact ⟨k, opened, answer, _, hopened, hk, hanswer,
    hwaits.other body rfl (List.isEmpty_eq_false_iff.mpr hbody), List.append_assoc ..⟩

theorem script_tries {tries : Nat} (h : s.Script) : Script { s with tries } := h

theorem Script.step (h : s.Script) (hstep : s.step config event = some s') : s'.Script := by
  have hskipped (tries : Nat) (_ : s.tries = tries + 1) : Script { s with tries } := script_tries h
  have hsucc {n left k : Nat} (hn : n + left = k) : n + 1 + left = k + 1 :=
    (Nat.succ_add n left).trans (congrArg Nat.succ hn)
  unfold Setup.step at hstep
  unfold Script at h
  cases hphase : s.phase with
  | earlyChannel =>
    simp only [hphase] at hstep h
    obtain ⟨hrelay, hdevice⟩ := h
    split at hstep
    · cases hstep
      refine request_keeps (I := Script) trivial fun remote hsent => ⟨?_, hdevice⟩
      exact (turns_requestPtcp hsent).trans (congrArg (· ++ [Turn.request syncBytes]) hrelay)
    · cases hstep
      exact ⟨hrelay ▸ .skipped, hdevice⟩
    · cases hstep
  | earlySync =>
    simp only [hphase] at hstep h
    obtain ⟨hrelay, hdevice⟩ := h
    refine read_keeps (I := Script) trivial hskipped (fun t ht => ?_) ?_ hstep
    · cases ht
      exact ⟨hrelay ▸ .silent, hdevice⟩
    · intro data remote body hread
      have hturns : remote.turns = [.request syncBytes] ++ [.read body] :=
        (turns_readPtcp hread).trans (congrArg (· ++ _) hrelay)
      split
      · next hsync => exact .inl ⟨⟨[], .skipped, hsync ▸ hturns⟩, hdevice⟩
      · next hother => exact ⟨hturns ▸ .refused body hother, hdevice⟩
  | negotiating =>
    simp only [hphase] at hstep h
    obtain ⟨hearly, hdevice⟩ := h
    split at hstep
    · cases hstep
      refine request_keeps (I := Script) trivial fun remote hsent => ?_
      exact ⟨⟨_, hearly, turns_requestPtcp hsent⟩, hdevice⟩
    · cases hstep
      trivial
    · cases hstep
  | relaySync =>
    simp only [hphase] at hstep h
    obtain ⟨⟨early, hearly, hrelay⟩, hdevice⟩ := h
    refine read_keeps (I := Script) trivial hskipped (fun t ht => by cases ht) ?_ hstep
    intro data remote body hread
    have hturns : remote.turns = early ++ [.request syncBytes] ++ [.read body] :=
      (turns_readPtcp hread).trans (congrArg (· ++ _) hrelay)
    split
    · split
      · next hsync =>
        exact .inl ⟨⟨early, hearly, (hsync ▸ hturns).trans (List.append_assoc ..)⟩, hdevice⟩
      · trivial
    · refine request_keeps (I := Script) trivial fun remote' hsent => ⟨⟨0, ?_, rfl⟩, hdevice⟩
      refine ⟨early, body, [], hearly, .nil, ?_⟩
      have hasked : remote'.turns = remote.turns ++ [.request signRequest] := turns_requestPtcp hsent
      show remote'.turns = _
      rw [hasked, hturns, List.append_nil, List.append_assoc, List.append_assoc]
      rfl
  | sign left =>
    simp only [hphase] at hstep h
    obtain ⟨⟨n, hasked, hn⟩, hdevice⟩ := h
    refine read_keeps (I := Script) trivial hskipped (fun t ht => ?_) ?_ hstep
    · cases ht
      trivial
    intro data remote body hread
    have hturns : remote.turns = s.relay.turns ++ [.read body] := turns_readPtcp hread
    split
    · next hheartbeat =>
      refine request_keeps (I := Script) trivial fun remote' hsent => ?_
      have hacked : remote'.turns = s.relay.turns ++ [.read body, .request []] := by
        rw [turns_requestPtcp hsent]
        exact (congrArg (· ++ _) hturns).trans (List.append_assoc ..)
      exact script_nextSign (hacked ▸ hasked.heartbeat hheartbeat) (hsucc hn) hdevice
    · next hheartbeat =>
      have hheartbeat := Bool.not_eq_true _ ▸ hheartbeat
      split
      · next hsign =>
        refine request_keeps (I := Script) trivial fun remote' hsent => ⟨?_, hdevice⟩
        have hacked : remote'.turns = s.relay.turns ++ [.read body, .request []] := by
          rw [turns_requestPtcp hsent]
          exact (congrArg (· ++ _) hturns).trans (List.append_assoc ..)
        exact ⟨n, _, body, hasked, Nat.le.intro hn, hsign, rfl, hacked⟩
      · next hsign =>
        have hsign := Bool.not_eq_true _ ▸ hsign
        exact script_nextSign (hturns ▸ hasked.other hheartbeat hsign) (hsucc hn) hdevice
  | punch =>
    simp only [hphase] at hstep h
    split at hstep
    · next data =>
      cases hstep
      show Script { s with phase := _, punches := _ }
      split <;> exact h
    · cases hstep
      trivial
    · cases hstep
  | punchAuth rtransId =>
    simp only [hphase] at hstep h
    split at hstep
    · cases hstep
      exact h
    · cases hstep
  | drain left replies =>
    simp only [hphase] at hstep h
    split at hstep
    · split at hstep
      · cases hstep
        exact script_drained h.1 h.2
      · cases hstep
        exact h
    · cases hstep
      exact script_drained h.1 h.2
    · cases hstep
  | deviceSync =>
    simp only [hphase] at hstep h
    obtain ⟨hsigned, hdevice⟩ := h
    refine read_keeps (I := Script) trivial hskipped (fun t ht => ?_) ?_ hstep
    · cases ht
      exact .inr ⟨hsigned, .inr hdevice⟩
    intro data remote body hread
    have hturns : remote.turns = [.request syncBytes] ++ [.read body] :=
      (turns_readPtcp hread).trans (congrArg (· ++ _) hdevice)
    split
    · next hsync =>
      refine request_keeps (I := Script) trivial fun remote' hsent =>
        ⟨hsigned, 0, ⟨[], .nil, ?_⟩, rfl⟩
      have hopened : remote'.turns = remote.turns ++ [.request (channelRequest s.sign)] :=
        turns_requestPtcp hsent
      show remote'.turns = _
      rw [hopened, hturns, hsync]
      rfl
    · trivial
  | channel left =>
    simp only [hphase] at hstep h
    obtain ⟨hsigned, n, hopened, hn⟩ := h
    refine read_keeps (I := Script) trivial hskipped (fun t ht => ?_) ?_ hstep
    · cases ht
      trivial
    intro data remote body hread
    have hturns : remote.turns = s.device.turns ++ [.read body] := turns_readPtcp hread
    split
    · next hheartbeat =>
      refine request_keeps (I := Script) trivial fun remote' hsent => ?_
      have hacked : remote'.turns = s.device.turns ++ [.read body, .request []] := by
        rw [turns_requestPtcp hsent]
        exact (congrArg (· ++ _) hturns).trans (List.append_assoc ..)
      exact script_nextChannel hsigned (hacked ▸ hopened.heartbeat hheartbeat) (hsucc hn)
    · next hheartbeat =>
      have hheartbeat := Bool.not_eq_true _ ▸ hheartbeat
      split
      · next hresponse =>
        refine request_keeps (I := Script) trivial fun remote' hsent => ⟨hsigned, 0, ?_, rfl⟩
        have hclose : remote'.turns = s.device.turns ++ [.read body, .request closeRequest] := by
          rw [turns_requestPtcp hsent]
          exact (congrArg (· ++ _) hturns).trans (List.append_assoc ..)
        exact ⟨n, _, body, [], hopened, Nat.le.intro hn, hresponse, .nil,
          hclose.trans (List.append_nil _).symm⟩
      · next hresponse =>
        have hresponse := Bool.not_eq_true _ ▸ hresponse
        exact script_nextChannel hsigned (hturns ▸ hopened.other hheartbeat hresponse) (hsucc hn)
  | closing left =>
    simp only [hphase] at hstep h
    obtain ⟨hsigned, n, hclosing, hn⟩ := h
    refine read_keeps (I := Script) trivial hskipped (fun t ht => ?_) ?_ hstep
    · cases ht
      trivial
    intro data remote body hread
    have hturns : remote.turns = s.device.turns ++ [.read body] := turns_readPtcp hread
    split
    · next hempty =>
      exact ⟨hsigned, n, _, hclosing, Nat.le.intro hn, hempty ▸ hturns⟩
    · next hbody =>
      exact script_nextClosing hsigned (hturns ▸ hclosing.other hbody) (hsucc hn)
  | ended outcome =>
    simp only [hphase] at hstep
    cases hstep

end Script

/-! ## The counters -/

/-- The body that was sent in a turn. -/
def sentBody : Turn → Bytes
  | .request body => body
  | .read _ => []

/-- The body that was read in a turn. -/
def readBody : Turn → Bytes
  | .request _ => []
  | .read body => body

/-- The turn adds to `ptcp_count`. -/
def counted (turn : Turn) : Bool := sentBody turn ≠ [] ∧ sentBody turn ≠ syncBytes

/-- The counters of a socket go with what was said on it. -/
structure Tallied (remote : Remote) : Prop where
  sent : remote.udp.ptcpSent = (remote.turns.flatMap sentBody).length
  recv : remote.udp.ptcpRecv = (remote.turns.flatMap readBody).length
  count : remote.udp.ptcpCount = remote.turns.countP counted

section Tallied

variable {config : SetupConfig} {s s' : Setup} {event : SetupEvent} {remote remote' : Remote}
  {body data : Bytes}

theorem Tallied.request (h : Tallied remote) (hsent : remote.requestPtcp body = some remote') :
    Tallied remote' := by
  unfold Remote.requestPtcp UDP.requestPtcp at hsent
  obtain ⟨_, hudp, rfl⟩ := Option.map_eq_some_iff.mp hsent
  obtain ⟨datagram, -, hudp⟩ := Option.bind_eq_some_iff.mp hudp
  cases hudp
  refine ⟨?_, ?_, ?_⟩
  · show remote.udp.ptcpSent + body.length = _
    rw [h.sent, List.flatMap_append, List.length_append, List.flatMap_singleton]
    rfl
  · show remote.udp.ptcpRecv = _
    rw [h.recv, List.flatMap_append, List.length_append, List.flatMap_singleton]
    rfl
  · rw [List.countP_append, List.countP_singleton, ← h.count]
    show (if 0 < body.length ∧ body ≠ syncBytes then _ else _) = _
    by_cases hcounted : body ≠ [] ∧ body ≠ syncBytes
    · rw [if_pos ⟨List.length_pos_iff.mpr hcounted.1, hcounted.2⟩,
        if_pos (show counted (.request body) = true from decide_eq_true hcounted)]
    · rw [if_neg fun h => hcounted ⟨List.length_pos_iff.mp h.1, h.2⟩,
        if_neg (show ¬ counted (.request body) = true from fun h => hcounted (of_decide_eq_true h))]
      rfl

theorem Tallied.read (h : Tallied remote) (hread : remote.readPtcp data = some (remote', body)) :
    Tallied remote' := by
  unfold Remote.readPtcp UDP.readPtcp at hread
  obtain ⟨_, hudp, hres⟩ := Option.map_eq_some_iff.mp hread
  obtain ⟨_, _, hudp⟩ := Option.bind_eq_some_iff.mp hudp
  obtain ⟨res, _, hudp⟩ := Option.bind_eq_some_iff.mp hudp
  cases hudp
  cases hres
  refine ⟨?_, ?_, ?_⟩
  · rw [List.flatMap_append, List.length_append, ← h.sent]
    rfl
  · rw [List.flatMap_append, List.length_append, ← h.recv, List.flatMap_singleton]
    rfl
  · rw [List.countP_append, ← h.count]
    rfl

/-- Nothing but empty packets is sent in a loop. -/
theorem Waits.silent {isHeartbeat isLast : Bytes → Bool} {n : Nat} {turns : List Turn}
    (h : Waits isHeartbeat isLast n turns) : ∀ turn ∈ turns, sentBody turn = [] := by
  induction h with
  | nil => exact fun _ h => absurd h List.not_mem_nil
  | other body _ _ _ ih =>
    intro turn hturn
    rcases List.mem_append.mp hturn with hturn | hturn
    · exact ih turn hturn
    · rw [List.mem_singleton.mp hturn]
      rfl
  | heartbeat body _ _ ih =>
    intro turn hturn
    rcases List.mem_append.mp hturn with hturn | hturn
    · exact ih turn hturn
    · rcases List.mem_cons.mp hturn with rfl | hturn
      · rfl
      · rw [List.mem_singleton.mp hturn]
        rfl

end Tallied

/-! ## The hole punch -/

/-- The request, the answer with the transaction id of the device, and five answers more when
the device is asked to authenticate. -/
def HolePunched (config : SetupConfig) (punches : List Bytes) : Prop :=
  ∃ rtransId, punches = [punchRequest config, punchAnswer config rtransId] ++
    if config.randsalt then List.replicate 5 (punchAuthAnswer config rtransId) else []

/-- The hole punches, phase by phase. With the relay as transport there are none. -/
def Punched (config : SetupConfig) (s : Setup) : Prop :=
  match s.phase with
  | .earlyChannel | .earlySync => config.relayTransport = false ∧ s.sign = [] ∧ s.punches = []
  | .negotiating | .relaySync => s.sign = [] ∧ s.punches = []
  | .sign _ => config.relayTransport = false ∧ s.punches = []
  | .punch => config.relayTransport = false ∧ s.punches = [punchRequest config]
  | .punchAuth rtransId => config.relayTransport = false ∧ config.randsalt = true ∧
      s.punches = [punchRequest config, punchAnswer config rtransId]
  | .drain _ _ | .deviceSync | .channel _ | .closing _ | .ended (.launched .device) =>
      config.relayTransport = false ∧ HolePunched config s.punches
  | .ended (.launched .relay) => s.sign = [] ∧ s.punches = [] ∨
      config.relayTransport = false ∧ HolePunched config s.punches
  | .ended _ => config.relayTransport = true → s.punches = []

section Punched

variable {config : SetupConfig} {s s' : Setup} {event : SetupEvent}

theorem punched_nextSign (left : Nat) (hdirect : config.relayTransport = false)
    (hpunches : s.punches = []) : (s.nextSign left).Punched config := by
  cases left with
  | zero => exact fun _ => hpunches
  | succ left => exact ⟨hdirect, hpunches⟩

theorem punched_raised (hdirect : config.relayTransport = false) :
    (s.finish .raised).Punched config :=
  fun hrelay => absurd (hdirect.symm.trans hrelay) Bool.false_ne_true

theorem punched_nextChannel (left : Nat)
    (h : config.relayTransport = false ∧ HolePunched config s.punches) :
    (s.nextChannel left).Punched config := by
  cases left with
  | zero => exact fun hrelay => absurd (h.1.symm.trans hrelay) Bool.false_ne_true
  | succ left => exact h

theorem punched_nextClosing (left : Nat)
    (h : config.relayTransport = false ∧ HolePunched config s.punches) :
    (s.nextClosing left).Punched config := by
  cases left with
  | zero => exact fun hrelay => absurd (h.1.symm.trans hrelay) Bool.false_ne_true
  | succ left => exact h

theorem punched_drained (replies : Nat)
    (h : config.relayTransport = false ∧ HolePunched config s.punches) :
    (s.drained replies).Punched config := by
  cases replies with
  | zero => exact .inr h
  | succ replies => exact request_keeps (I := Punched config) (punched_raised h.1) fun _ _ => h

theorem Punched.step (h : s.Punched config) (hstep : s.step config event = some s') :
    s'.Punched config := by
  have hskipped (tries : Nat) (_ : s.tries = tries + 1) : Punched config { s with tries } := h
  unfold Setup.step at hstep
  unfold Punched at h
  cases hphase : s.phase with
  | earlyChannel =>
    simp only [hphase] at hstep h
    split at hstep
    · cases hstep
      exact request_keeps (I := Punched config) (punched_raised h.1) fun _ _ => h
    · cases hstep
      exact h.2
    · cases hstep
  | earlySync =>
    simp only [hphase] at hstep h
    refine read_keeps (I := Punched config) (punched_raised h.1) hskipped (fun t ht => ?_) ?_ hstep
    · cases ht
      exact h.2
    · intro data remote body _
      split
      · exact .inl h.2
      · exact h.2
  | negotiating =>
    simp only [hphase] at hstep h
    split at hstep
    · cases hstep
      exact request_keeps (I := Punched config) (fun _ => h.2) fun _ _ => h
    · cases hstep
      exact fun _ => h.2
    · cases hstep
  | relaySync =>
    simp only [hphase] at hstep h
    refine read_keeps (I := Punched config) (fun _ => h.2) hskipped (fun t ht => by cases ht) ?_ hstep
    intro data remote body _
    split
    · split
      · exact .inl h
      · exact fun _ => h.2
    · next hdirect =>
      have hdirect := Bool.not_eq_true _ ▸ hdirect
      exact request_keeps (I := Punched config) (punched_raised hdirect) fun _ _ => ⟨hdirect, h.2⟩
  | sign left =>
    simp only [hphase] at hstep h
    refine read_keeps (I := Punched config) (punched_raised h.1) hskipped (fun t ht => ?_) ?_ hstep
    · cases ht
      exact fun _ => h.2
    intro data remote body _
    split
    · exact request_keeps (I := Punched config) (punched_raised h.1)
        fun _ _ => punched_nextSign left h.1 h.2
    · split
      · refine request_keeps (I := Punched config) (punched_raised h.1) fun _ _ => ⟨h.1, ?_⟩
        exact congrArg (· ++ [punchRequest config]) h.2
      · exact punched_nextSign left h.1 h.2
  | punch =>
    simp only [hphase] at hstep h
    split at hstep
    · next data =>
      cases hstep
      have hpunches : s.punches ++ [punchAnswer config ((data.drop 8).take 12)] =
          [punchRequest config, punchAnswer config ((data.drop 8).take 12)] :=
        congrArg (· ++ _) h.2
      cases hsalt : config.randsalt with
      | true => exact ⟨h.1, hsalt, hpunches⟩
      | false =>
        refine ⟨h.1, (data.drop 8).take 12, ?_⟩
        rw [hsalt, hpunches]
        rfl
    · cases hstep
      exact fun hrelay => absurd (h.1.symm.trans hrelay) Bool.false_ne_true
    · cases hstep
  | punchAuth rtransId =>
    simp only [hphase] at hstep h
    split at hstep
    · cases hstep
      obtain ⟨hdirect, hsalt, hpunches⟩ := h
      refine ⟨hdirect, rtransId, ?_⟩
      rw [if_pos hsalt, ← hpunches]
    · cases hstep
  | drain left replies =>
    simp only [hphase] at hstep h
    split at hstep
    · split at hstep
      · cases hstep
        exact punched_drained _ h
      · cases hstep
        exact h
    · cases hstep
      exact punched_drained _ h
    · cases hstep
  | deviceSync =>
    simp only [hphase] at hstep h
    refine read_keeps (I := Punched config) (punched_raised h.1) hskipped (fun t ht => ?_) ?_ hstep
    · cases ht
      exact .inr h
    intro data remote body _
    split
    · exact request_keeps (I := Punched config) (punched_raised h.1) fun _ _ => h
    · exact fun hrelay => absurd (h.1.symm.trans hrelay) Bool.false_ne_true
  | channel left =>
    simp only [hphase] at hstep h
    refine read_keeps (I := Punched config) (punched_raised h.1) hskipped (fun t ht => ?_) ?_ hstep
    · cases ht
      exact punched_nextChannel 0 h
    intro data remote body _
    split
    · exact request_keeps (I := Punched config) (punched_raised h.1)
        fun _ _ => punched_nextChannel left h
    · split
      · exact request_keeps (I := Punched config) (punched_raised h.1) fun _ _ => h
      · exact punched_nextChannel left h
  | closing left =>
    simp only [hphase] at hstep h
    refine read_keeps (I := Punched config) (punched_raised h.1) hskipped (fun t ht => ?_) ?_ hstep
    · cases ht
      exact punched_nextClosing 0 h
    intro data remote body _
    split
    · exact h
    · exact punched_nextClosing left h
  | ended outcome =>
    simp only [hphase] at hstep
    cases hstep

end Punched

/-! ## Handing over -/

section Launched

variable {config : SetupConfig} {s : Setup} {via : Via} {events : List SetupEvent}

/-- A camera that is reached directly, and asks for authentication. -/
def directConfig : SetupConfig where
  relayTransport := false
  waitForChannel := true
  randsalt := true
  aid := [1, 2, 3, 4, 5, 6, 7, 8]
  cookie := [9, 9, 9, 9]
  transId := List.replicate 12 7
  pubAddr := [0x1F, 0x90, 203, 0, 113, 5]
  localAddr := [0x1F, 0x90, 192, 168, 1, 108]

/-- The sync and the sign of the relay, the hole punch, and the sync, the channel response and the
acknowledgement of the device, which sends a heartbeat in between. -/
def directSetup : List SetupEvent := [
  .channelResponse,
  .datagram syncAnswer.serialize,
  .datagram (PTCPPacket.serialize ⟨4, 16, 0x0000FFFF, 1, 0,
    .command ([0x18, 0, 0, 0, 0, 0, 0, 0, 0, 0, 0, 0] ++ [0xAB, 0xCD])⟩),
  .datagram (List.replicate 24 0xFE), .datagram [0xFF], .datagram [0xFE], .timeout,
  .datagram syncAnswer.serialize,
  .datagram (PTCPPacket.serialize ⟨4, 18, 0x0000FFFF, 1, 0, .command [0x13, 0, 0, 0]⟩),
  .datagram (PTCPPacket.serialize ⟨8, 18, 0x0000FFFE, 2, 0, .command [0x1A, 0, 0, 0]⟩),
  .datagram (PTCPPacket.serialize ⟨12, 30, 0x0000FFFD, 3, 0, .empty⟩)]

end Launched

end Setup

end DahuaBridge
