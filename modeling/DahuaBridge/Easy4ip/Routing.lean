import DahuaBridge.Easy4ip.Negotiation

/-!
# Which response goes to which request

`UDP.request` gives up, and even ends the process, on responses to other requests. The waits
for the channel response call `read`, not `read_for_cseq`: they take the first final response
that comes, and they never look at what `request` has queued.

* `Routed`: every response goes where its `CSeq` says.
* `Clean`: what may be read at a point of `main`.
* `responses_routed_iff`: all states of a run are as in `Routed` exactly when all its steps
  are as in `Clean`.
* `pendingResponses_prefix`, `queued_answer_waits`: what is queued stays queued, and
  `read_for_cseq` would find it.
-/

namespace DahuaBridge.Easy4ip

/-! ## Responses in their place -/

/-- `main` waits for the channel response. -/
def Point.isChannelWait : Point → Bool
  | .natInfo => true
  | .channelAttempt _ => true
  | _ => false

/-- The wait for the channel response has begun. -/
def Point.waited : Point → Bool
  | .request _ _ => false
  | .exited => false
  | .raised => false
  | _ => true

/-- `p2p-channel` has been sent. -/
def Point.isAfterChannel : Point → Bool
  | .request .probeP2psrv _ => false
  | .request .onlineP2psrv _ => false
  | _ => true

def Main.hasWaited (m : Main) : Bool := m.point.waited || m.log.any (·.point.waited)

/-- A final response with the `CSeq` of `p2p-channel`. -/
def Response.isAnswer (config : Config) (r : Response) : Bool :=
  200 ≤ r.code && r.cseq = toString (config.cseq .p2pChannel)

/-- The final responses to `p2p-channel` that were read, by whatever loop. -/
def answers (config : Config) (log : List Reading) : List Response :=
  (log.filter fun reading => reading.point.isAfterChannel && reading.response.isAnswer config).map
    Reading.response

/-- The responses that the waits for the channel response have taken. -/
def taken (log : List Reading) : List Response :=
  (log.filter fun reading => reading.point.isChannelWait && reading.fate = .returned).map
    Reading.response

structure Routed (config : Config) (m : Main) : Prop where
  /-- A response to another request is queued, and nothing else. -/
  own : ∀ reading ∈ m.log, ∀ call left, reading.point = .request call left →
    reading.response.isForeign (config.cseq (.call call)) = true → reading.fate = .queued
  channel : ∀ r ∈ taken m.log, r.isForeign (config.cseq .p2pChannel) = false
  /-- The first final response to `p2p-channel` is what the first wait has taken. -/
  answer : m.hasWaited = true → ∀ r, (answers config m.log).head? = some r →
    (taken m.log).head? = some r

/-- The response with which `setup_relay_agent` ends. -/
def endsSetup (config : Config) (call : Call) (r : Response) : Bool :=
  call = .relayAgent && !r.isForeign (config.cseq (.call call)) && 200 ≤ r.code && r.code < 400 &&
    r.token.isSome && r.agent.isSome

/-- What may be read at a point. -/
def CleanAt (config : Config) (m : Main) : Point → Response → Prop
  | .request call left, r =>
    (r.isForeign (config.cseq (.call call)) = true → r.code < 400 ∧ 0 < left) ∧
      (endsSetup config call r = true → answers config m.log = [] ∧ r.isAnswer config = false)
  | point, r =>
    (point.isChannelWait = true → 200 ≤ r.code → r.isForeign (config.cseq .p2pChannel) = false) ∧
      (answers config m.log = [] → r.isAnswer config = true →
        point.isChannelWait = true ∧ taken m.log = [])

def Clean (config : Config) (m : Main) : Event → Prop
  | .datagram (.response r) => CleanAt config m m.point r
  | _ => True

instance (config : Config) (m : Main) (point : Point) (r : Response) :
    Decidable (CleanAt config m point r) :=
  match point with
  | .request _ _ => inferInstanceAs (Decidable (_ ∧ _))
  | .natInfo => inferInstanceAs (Decidable (_ ∧ _))
  | .relayChannel => inferInstanceAs (Decidable (_ ∧ _))
  | .relaySync _ => inferInstanceAs (Decidable (_ ∧ _))
  | .channelAttempt _ => inferInstanceAs (Decidable (_ ∧ _))
  | .channel _ => inferInstanceAs (Decidable (_ ∧ _))
  | .launched => inferInstanceAs (Decidable (_ ∧ _))
  | .exited => inferInstanceAs (Decidable (_ ∧ _))
  | .raised => inferInstanceAs (Decidable (_ ∧ _))

instance (config : Config) (m : Main) (event : Event) : Decidable (Clean config m event) :=
  match event with
  | .datagram (.response r) => inferInstanceAs (Decidable (CleanAt config m m.point r))
  | .datagram (.other _) => instDecidableTrue
  | .datagram .malformed => instDecidableTrue
  | .error => instDecidableTrue

/-- What becomes of a response that is read at a point. -/
def fateOf (config : Config) : Point → Response → Fate
  | .request call left, r =>
    if 400 ≤ r.code then .exited
    else if r.isForeign (config.cseq (.call call)) then (if left = 0 then .gaveUp else .queued)
    else if r.code < 200 then (if left = 0 then .gaveUp else .ignored)
    else .returned
  | .relaySync _, _ => .skipped
  | _, r => if r.code < 200 then .ignored else .returned

/-! ## The steps -/

section Steps

variable {config : Config} {m m' : Main} {r : Response} {event : Event}

@[simp] theorem log_note (m : Main) (r : Response) (fate : Fate) :
    (m.note r fate).log = m.log ++ [⟨m.point, r, fate⟩] := rfl

@[simp] theorem log_skipDatagram (m : Main) (left : Nat) : (m.skipDatagram left).log = m.log := by
  cases left <;> rfl

@[simp] theorem log_proceed (m : Main) (r : Response) (call : Call) :
    (m.proceed config r call).log = m.log := by
  cases call with
  | probeP2psrv => rfl
  | onlineP2psrv =>
    simp only [Main.proceed]
    split <;> rfl
  | onlineRelay =>
    simp only [Main.proceed]
    split <;> rfl
  | relayAgent =>
    simp only [Main.proceed]
    split <;> rfl

/-- Only the last of the requests is followed by the wait. -/
theorem waited_proceed (m : Main) (r : Response) (call : Call) :
    (m.proceed config r call).point.waited =
      (call = .relayAgent && r.token.isSome && r.agent.isSome) := by
  cases call with
  | probeP2psrv => rfl
  | onlineP2psrv =>
    simp only [Main.proceed]
    split <;> rfl
  | onlineRelay =>
    simp only [Main.proceed]
    split <;> rfl
  | relayAgent =>
    cases htoken : r.token with
    | none =>
      simp only [Main.proceed, htoken]
      rfl
    | some token =>
      cases hagent : r.agent with
      | none =>
        simp only [Main.proceed, htoken, hagent]
        rfl
      | some agent =>
        simp only [Main.proceed, htoken, hagent]
        show Point.waited (if _ then _ else _) = true
        split <;> rfl

/-- A response in the loop of `request`. -/
theorem step_request {call : Call} {left : Nat} (hpoint : m.point = .request call left)
    (hstep : step config m (.datagram (.response r)) = some m') :
    m'.log = m.log ++ [⟨m.point, r, fateOf config m.point r⟩] ∧
      m'.point.waited = endsSetup config call r := by
  simp only [step, hpoint, Main.read, Bool.not_false, Bool.true_and, decide_eq_true_eq] at hstep
  simp only [fateOf, hpoint]
  have hends (hnot : r.isForeign (config.cseq (.call call)) = true ∨ r.code < 200 ∨ 400 ≤ r.code) :
      endsSetup config call r = false := by
    unfold endsSetup
    rcases hnot with hforeign | hcode | hcode
    · simp only [hforeign, Bool.not_true, Bool.and_false, Bool.false_and]
    · simp only [decide_eq_false (Int.not_le.mpr hcode), Bool.and_false, Bool.false_and]
    · simp only [decide_eq_false (Int.not_lt.mpr hcode), Bool.and_false, Bool.false_and]
  split at hstep
  · next hcode =>
    cases hstep
    exact ⟨by rw [if_pos hcode, ← hpoint]; rfl, (hends (.inr (.inr hcode))).symm⟩
  · next hcode =>
    simp only [Main.request] at hstep
    rw [if_neg hcode]
    split at hstep
    · next hforeign =>
      rw [if_pos hforeign, hends (.inl hforeign)]
      cases left with
      | zero =>
        cases hstep
        exact ⟨by rw [← hpoint]; rfl, rfl⟩
      | succ left =>
        cases hstep
        exact ⟨by rw [← hpoint]; rfl, rfl⟩
    · next hforeign =>
      rw [if_neg hforeign]
      split at hstep
      · next hprovisional =>
        rw [if_pos hprovisional, hends (.inr (.inl hprovisional))]
        cases left with
        | zero =>
          cases hstep
          exact ⟨by rw [← hpoint]; rfl, rfl⟩
        | succ left =>
          cases hstep
          exact ⟨by rw [← hpoint]; rfl, rfl⟩
      · next hprovisional =>
        rw [if_neg hprovisional]
        cases hstep
        refine ⟨by rw [log_proceed, ← hpoint]; rfl, ?_⟩
        rw [waited_proceed]
        unfold endsSetup
        rw [Bool.eq_false_iff.mpr hforeign, decide_eq_true (Int.not_lt.mp hprovisional),
          decide_eq_true (Int.not_le.mp hcode)]
        simp only [Bool.not_false, Bool.and_true]

def Point.isRequest : Point → Bool
  | .request _ _ => true
  | _ => false

@[simp] theorem isRequest_skipDatagram (m : Main) (left : Nat) :
    (m.skipDatagram left).point.isRequest = false := by
  cases left <;> rfl

@[simp] theorem isRequest_retry (m : Main) (attempt : Nat) :
    (m.retry config attempt).point.isRequest = false := by
  unfold Main.retry
  split <;> rfl

/-- A response that is read once `main` has all the answers to its requests. -/
theorem step_wait (hpoint : m.point.isRequest = false)
    (hstep : step config m (.datagram (.response r)) = some m') :
    m.point.waited = true ∧ m'.log = m.log ++ [⟨m.point, r, fateOf config m.point r⟩] ∧
      m'.point.isRequest = false := by
  cases hcase : m.point with
  | request call left =>
    rw [hcase] at hpoint
    cases hpoint
  | natInfo =>
    simp only [step, hcase, Main.read, Bool.not_true, Bool.false_and, Bool.false_eq_true, if_false,
      Main.natInfo] at hstep
    simp only [fateOf]
    split at hstep
    · next hprovisional =>
      cases hstep
      exact ⟨rfl, by rw [if_pos hprovisional, ← hcase]; rfl, rfl⟩
    · next hprovisional =>
      rw [if_neg hprovisional, ← hcase]
      split at hstep
      · cases hstep
        exact ⟨by rw [hcase]; rfl, rfl, rfl⟩
      · cases hstep
        exact ⟨by rw [hcase]; rfl, rfl, rfl⟩
  | relayChannel =>
    simp only [step, hcase, Main.read, Bool.not_true, Bool.false_and, Bool.false_eq_true, if_false,
      Main.relayChannel] at hstep
    simp only [fateOf]
    split at hstep
    · next hprovisional =>
      cases hstep
      exact ⟨rfl, by rw [if_pos hprovisional, ← hcase]; rfl, rfl⟩
    · next hprovisional =>
      rw [if_neg hprovisional, ← hcase]
      split at hstep
      · cases hstep
        exact ⟨by rw [hcase]; rfl, rfl, rfl⟩
      · cases hstep
        exact ⟨by rw [hcase]; rfl, rfl, rfl⟩
  | relaySync left =>
    simp only [step, hcase] at hstep
    cases hstep
    refine ⟨rfl, ?_, isRequest_skipDatagram _ left⟩
    simp only [Main.relaySync, log_skipDatagram, log_note, hcase]
    rfl
  | channelAttempt attempt =>
    simp only [step, hcase, Main.read, Bool.not_true, Bool.false_and, Bool.false_eq_true, if_false,
      Main.channelAttempt] at hstep
    simp only [fateOf]
    split at hstep
    · next hprovisional =>
      cases hstep
      exact ⟨rfl, by rw [if_pos hprovisional, ← hcase]; rfl, rfl⟩
    · next hprovisional =>
      cases hstep
      exact ⟨rfl, by rw [if_neg hprovisional, ← hcase]; rfl, rfl⟩
  | _ =>
    simp only [step, hcase] at hstep
    cases hstep

/-- Each response that is read is noted down, with what becomes of it. -/
theorem log_step (hstep : step config m (.datagram (.response r)) = some m') :
    m'.log = m.log ++ [⟨m.point, r, fateOf config m.point r⟩] := by
  cases hcase : m.point with
  | request call left => exact hcase ▸ (step_request hcase hstep).1
  | _ => exact hcase ▸ (step_wait (by rw [hcase]; rfl) hstep).2.1

/-- What the loop of `read` does with a datagram that is no response. -/
theorem read_quiet {returnError : Bool} {use : Response → Main} {d : Datagram}
    (hquiet : ∀ r, d ≠ .response r) : (m.read returnError d use).log = m.log ∧
      ((m.read returnError d use).point = m.point ∨ (m.read returnError d use).point = .raised) := by
  cases d with
  | other data =>
    by_cases hmore : m.unexpected + 1 < 10
    · simp only [Main.read, if_pos hmore, true_or, true_and]
    · simp only [Main.read, if_neg hmore]
      exact ⟨rfl, .inr rfl⟩
  | malformed => exact ⟨rfl, .inr rfl⟩
  | response r => exact absurd rfl (hquiet r)

/-- What a step without a response leaves as it was. -/
structure Quiet (m m' : Main) : Prop where
  log : m'.log = m.log
  waited : m'.point.waited = true → m.point.waited = true
  isRequest : m'.point.isRequest = true → m.point.isRequest = true

theorem Quiet.of_point (hlog : m'.log = m.log) (hpoint : m'.point = m.point ∨ m'.point = .raised) :
    Quiet m m' := by
  refine ⟨hlog, fun hwaited => ?_, fun hrequest => ?_⟩
  · rcases hpoint with hsame | hraised
    · rw [← hsame]
      exact hwaited
    · rw [hraised] at hwaited
      cases hwaited
  · rcases hpoint with hsame | hraised
    · rw [← hsame]
      exact hrequest
    · rw [hraised] at hrequest
      cases hrequest

/-- Once the wait has begun, a step that notes nothing down is quiet if it starts no request. -/
theorem Quiet.of_waited (hlog : m'.log = m.log) (hwaited : m.point.waited = true)
    (hrequest : m'.point.isRequest = false) : Quiet m m' :=
  ⟨hlog, fun _ => hwaited, fun h => absurd (h.symm.trans hrequest) (by decide)⟩

theorem quiet_relaySync {left : Nat} {d : Datagram} (hpoint : m.point = .relaySync left)
    (hquiet : ∀ r, d ≠ .response r) : Quiet m (m.relaySync config left d) := by
  have hwaited : m.point.waited = true := by rw [hpoint]; rfl
  cases d with
  | other data =>
    simp only [Main.relaySync]
    split
    · split
      · exact .of_waited rfl hwaited rfl
      · split
        · exact .of_waited rfl hwaited rfl
        · exact .of_waited rfl hwaited rfl
    · exact .of_waited (log_skipDatagram m left) hwaited (isRequest_skipDatagram m left)
  | malformed => exact .of_waited (log_skipDatagram m left) hwaited (isRequest_skipDatagram m left)
  | response r => exact absurd rfl (hquiet r)

/-- A step without a response. -/
theorem step_quiet (hquiet : ∀ r, event ≠ .datagram (.response r))
    (hstep : step config m event = some m') : Quiet m m' := by
  have hread {returnError : Bool} {use : Response → Main} {d : Datagram}
      (hevent : event = .datagram d) : Quiet m (m.read returnError d use) := by
    have hnot : ∀ r, d ≠ .response r := fun r heq => hquiet r (heq ▸ hevent)
    exact .of_point (read_quiet hnot).1 (read_quiet hnot).2
  unfold step at hstep
  split at hstep
  · cases hstep
    exact hread rfl
  · cases hstep
    exact .of_point rfl (.inr rfl)
  · cases hstep
    exact hread rfl
  · next hpoint =>
    cases hstep
    exact .of_waited rfl (by rw [hpoint]; rfl) rfl
  · cases hstep
    exact hread rfl
  · next hpoint =>
    cases hstep
    exact .of_waited rfl (by rw [hpoint]; rfl) rfl
  · next hpoint =>
    cases hstep
    exact quiet_relaySync hpoint fun r heq => hquiet r (by rw [heq])
  · next hpoint =>
    cases hstep
    exact .of_waited rfl (by rw [hpoint]; rfl) rfl
  · cases hstep
    exact hread rfl
  · next attempt hpoint =>
    cases hstep
    refine .of_waited ?_ (by rw [hpoint]; rfl) (isRequest_retry m attempt)
    unfold Main.retry
    split <;> rfl
  · cases hstep
  · cases hstep
  · cases hstep
  · cases hstep

/-! ## What a reading adds -/

theorem map_filter_singleton {α β : Type*} (p : α → Bool) (f : α → β) (a : α) :
    ([a].filter p).map f = if p a then [f a] else [] := by
  cases h : p a with
  | true => rw [List.filter_cons_of_pos h]; rfl
  | false => rw [List.filter_cons_of_neg (by rw [h]; exact Bool.false_ne_true)]; rfl

theorem answers_concat (log : List Reading) (reading : Reading) :
    answers config (log ++ [reading]) = answers config log ++
      if reading.point.isAfterChannel && reading.response.isAnswer config then [reading.response]
      else [] := by
  unfold answers
  rw [List.filter_append, List.map_append]
  exact congrArg _ (map_filter_singleton _ _ reading)

theorem taken_concat (log : List Reading) (reading : Reading) :
    taken (log ++ [reading]) = taken log ++
      if reading.point.isChannelWait && reading.fate = .returned then [reading.response] else [] := by
  unfold taken
  rw [List.filter_append, List.map_append]
  exact congrArg _ (map_filter_singleton _ _ reading)

theorem isAfterChannel_of_isChannelWait {point : Point} (h : point.isChannelWait = true) :
    point.isAfterChannel = true := by
  cases point with
  | request call left => cases h
  | _ => rfl

theorem waited_of_isChannelWait {point : Point} (h : point.isChannelWait = true) :
    point.waited = true := by
  cases point with
  | natInfo => rfl
  | channelAttempt attempt => rfl
  | _ => cases h

/-- What a wait has taken is an answer if it has the `CSeq` of one. -/
theorem mem_answers_of_taken {log : List Reading} (htaken : r ∈ taken log)
    (hanswer : r.isAnswer config = true) : r ∈ answers config log := by
  obtain ⟨reading, hreading, rfl⟩ := List.mem_map.mp htaken
  obtain ⟨hmem, hwait⟩ := List.mem_filter.mp hreading
  rw [Bool.and_eq_true] at hwait
  refine List.mem_map.mpr ⟨reading, List.mem_filter.mpr ⟨hmem, ?_⟩, rfl⟩
  rw [isAfterChannel_of_isChannelWait hwait.1, hanswer]
  rfl

/-- Nothing is taken before the wait begins. -/
theorem taken_eq_nil {log : List Reading} (h : log.any (·.point.waited) = false) : taken log = [] := by
  unfold taken
  rw [List.map_eq_nil_iff, List.filter_eq_nil_iff]
  intro reading hreading hwait
  rw [Bool.and_eq_true] at hwait
  have hnot := List.any_eq_false.mp h reading hreading
  exact hnot (waited_of_isChannelWait hwait.1)

theorem isAnswer_code (h : r.isAnswer config = true) : 200 ≤ r.code := by
  unfold Response.isAnswer at h
  rw [Bool.and_eq_true] at h
  exact of_decide_eq_true h.1

/-! ## One step -/

/-- A response to another request is queued if it is no error and not the last one read. -/
theorem fateOf_request {call : Call} {left : Nat}
    (hforeign : r.isForeign (config.cseq (.call call)) = true) :
    fateOf config (.request call left) r = .queued ↔ r.code < 400 ∧ 0 < left := by
  simp only [fateOf, hforeign, if_true]
  split
  · next hcode => exact iff_of_false (fun heq => by cases heq) fun h => Int.not_lt.mpr hcode h.1
  · next hcode =>
    rw [Int.not_le] at hcode
    split
    · next hleft => exact iff_of_false (fun heq => by cases heq) fun h => Nat.ne_of_gt h.2 hleft
    · next hleft => exact iff_of_true rfl ⟨hcode, Nat.pos_of_ne_zero hleft⟩

theorem fateOf_channelWait {point : Point} (h : point.isChannelWait = true) :
    fateOf config point r = .returned ↔ 200 ≤ r.code := by
  have hfate : fateOf config point r = if r.code < 200 then .ignored else .returned := by
    cases point with
    | natInfo => rfl
    | channelAttempt attempt => rfl
    | _ => cases h
  rw [hfate]
  split
  · next hcode => exact iff_of_false (fun heq => by cases heq) (Int.not_le.mpr hcode)
  · next hcode => exact iff_of_true rfl (Int.not_lt.mp hcode)

/-- A response in the loop of `request` goes to its place exactly when it may be read there. -/
theorem routed_request {call : Call} {left : Nat} (hpoint : m.point = .request call left)
    (hbefore : m.log.any (·.point.waited) = false) (h : Routed config m)
    (hstep : step config m (.datagram (.response r)) = some m') :
    Routed config m' ↔ CleanAt config m (.request call left) r := by
  obtain ⟨hlog, hwaited⟩ := step_request hpoint hstep
  rw [hpoint] at hlog
  have htaken : taken m'.log = [] := by
    rw [hlog, taken_concat, taken_eq_nil hbefore]
    rfl
  have hbegun : m'.hasWaited = endsSetup config call r := by
    unfold Main.hasWaited
    rw [hwaited, hlog, List.any_append, hbefore]
    exact Bool.or_false _
  have hanswers (hends : endsSetup config call r = true) : answers config m'.log =
      answers config m.log ++ if r.isAnswer config then [r] else [] := by
    have hcall : call = .relayAgent := by
      unfold endsSetup at hends
      simp only [Bool.and_eq_true, decide_eq_true_eq] at hends
      exact hends.1.1.1.1.1
    rw [hlog, answers_concat, hcall]
    rfl
  constructor
  · intro h'
    refine ⟨fun hforeign => ?_, fun hends => ?_⟩
    · have hmem : ⟨.request call left, r, fateOf config (.request call left) r⟩ ∈ m'.log := by
        rw [hlog]
        exact List.mem_append_right _ List.mem_cons_self
      exact (fateOf_request hforeign).mp (h'.own _ hmem call left rfl hforeign)
    · -- the wait begins, and has taken nothing
      have hnone : answers config m'.log = [] := by
        cases hcase : answers config m'.log with
        | nil => rfl
        | cons a rest =>
          have hhead := h'.answer (hbegun.trans hends) a (by rw [hcase]; rfl)
          rw [htaken] at hhead
          cases hhead
      rw [hanswers hends, List.append_eq_nil_iff] at hnone
      refine ⟨hnone.1, Bool.eq_false_iff.mpr fun hanswer => ?_⟩
      rw [if_pos hanswer] at hnone
      cases hnone.2
  · rintro ⟨hforeign, hends⟩
    refine ⟨fun reading hreading call' left' hreader hother => ?_, fun r' hr' => ?_, fun hbegun' => ?_⟩
    · rw [hlog] at hreading
      rcases List.mem_append.mp hreading with hold | hnew
      · exact h.own reading hold call' left' hreader hother
      · obtain rfl := List.mem_singleton.mp hnew
        cases hreader
        exact (fateOf_request hother).mpr (hforeign hother)
    · rw [htaken] at hr'
      cases hr'
    · obtain ⟨hnone, hanswer⟩ := hends (hbegun.symm.trans hbegun')
      intro a ha
      rw [hanswers (hbegun.symm.trans hbegun'), hnone, hanswer] at ha
      cases ha

/-- What has been taken stays without a response to another request exactly when the wait does
not take one now. -/
theorem channel_concat_iff {log : List Reading} {point : Point}
    (h : ∀ x ∈ taken log, x.isForeign (config.cseq .p2pChannel) = false) :
    (∀ x ∈ taken (log ++ [⟨point, r, fateOf config point r⟩]),
        x.isForeign (config.cseq .p2pChannel) = false) ↔
      (point.isChannelWait = true → 200 ≤ r.code → r.isForeign (config.cseq .p2pChannel) = false) := by
  rw [taken_concat]
  constructor
  · intro hall hwait hcode
    refine hall r (List.mem_append_right _ ?_)
    simp only [hwait, (fateOf_channelWait hwait).mpr hcode, decide_true, Bool.and_self, if_true]
    exact List.mem_cons_self
  · intro hnew x hx
    rcases List.mem_append.mp hx with hold | hlast
    · exact h x hold
    · split at hlast
      · next htakes =>
        rw [Bool.and_eq_true] at htakes
        rw [List.mem_singleton.mp hlast]
        exact hnew htakes.1 ((fateOf_channelWait htakes.1).mp (of_decide_eq_true htakes.2))
      · cases hlast

/-- Once the wait has begun, the first answer stays the first that was taken exactly when a first
answer comes to a wait that has taken nothing. -/
theorem answer_concat_iff {log : List Reading} {point : Point} (hafter : point.isAfterChannel = true)
    (h : ∀ x, (answers config log).head? = some x → (taken log).head? = some x) :
    (∀ x, (answers config (log ++ [⟨point, r, fateOf config point r⟩])).head? = some x →
        (taken (log ++ [⟨point, r, fateOf config point r⟩])).head? = some x) ↔
      (answers config log = [] → r.isAnswer config = true →
        point.isChannelWait = true ∧ taken log = []) := by
  have hanswers : answers config (log ++ [⟨point, r, fateOf config point r⟩]) = answers config log ++
      if r.isAnswer config then [r] else [] := by
    rw [answers_concat, hafter]
    rfl
  rw [hanswers, taken_concat]
  constructor
  · intro hall hnone hanswer
    have hhead := hall r (by rw [hnone, if_pos hanswer]; rfl)
    cases hcase : taken log with
    | nil =>
      rw [hcase] at hhead
      split at hhead
      · next htakes => exact ⟨(Bool.and_eq_true _ _ ▸ htakes).1, rfl⟩
      · cases hhead
    | cons x rest =>
      -- it would have been an answer before
      rw [hcase] at hhead
      obtain rfl : x = r := Option.some.inj hhead
      have hmem := mem_answers_of_taken (hcase ▸ List.mem_cons_self) hanswer
      rw [hnone] at hmem
      cases hmem
  · intro hfirst x hx
    cases hcase : answers config log with
    | nil =>
      rw [hcase] at hx
      split at hx
      · next hanswer =>
        obtain rfl := Option.some.inj hx
        obtain ⟨hwait, hnone⟩ := hfirst hcase hanswer
        have hfate : fateOf config point r = .returned :=
          (fateOf_channelWait hwait).mpr (isAnswer_code hanswer)
        simp only [hnone, hwait, hfate, decide_true, Bool.and_self, if_true]
        rfl
      · cases hx
    | cons y rest =>
      rw [hcase] at hx
      obtain rfl := Option.some.inj hx
      have hhead := h y (by rw [hcase]; rfl)
      cases htaken : taken log with
      | nil =>
        rw [htaken] at hhead
        cases hhead
      | cons x rest =>
        rw [htaken] at hhead
        exact hhead

theorem isAfterChannel_of_not_isRequest {point : Point} (h : point.isRequest = false) :
    point.isAfterChannel = true := by
  cases point with
  | request call left => cases h
  | _ => rfl

theorem cleanAt_of_not_isRequest {point : Point} (h : point.isRequest = false) :
    CleanAt config m point r ↔
      (point.isChannelWait = true → 200 ≤ r.code → r.isForeign (config.cseq .p2pChannel) = false) ∧
      (answers config m.log = [] → r.isAnswer config = true →
        point.isChannelWait = true ∧ taken m.log = []) := by
  cases point with
  | request call left => cases h
  | _ => exact Iff.rfl

/-- The same for a response that is read later. -/
theorem routed_wait (hpoint : m.point.isRequest = false) (h : Routed config m)
    (hstep : step config m (.datagram (.response r)) = some m') :
    Routed config m' ↔ CleanAt config m m.point r := by
  obtain ⟨hwaited, hlog, _⟩ := step_wait hpoint hstep
  have hbegun : m.hasWaited = true := by
    unfold Main.hasWaited
    rw [hwaited]
    rfl
  have hbegun' : m'.hasWaited = true := by
    unfold Main.hasWaited
    rw [hlog, List.any_append, List.any_cons, hwaited, Bool.true_or, Bool.or_true, Bool.or_true]
  have hchannel := @channel_concat_iff config r _ m.point h.channel
  have hanswer := @answer_concat_iff config r _ _ (isAfterChannel_of_not_isRequest hpoint)
    (h.answer hbegun)
  rw [cleanAt_of_not_isRequest hpoint, ← hchannel, ← hanswer, ← hlog]
  constructor
  · exact fun h' => ⟨h'.channel, h'.answer hbegun'⟩
  · rintro ⟨hchannel', hanswer'⟩
    refine ⟨fun reading hreading call left hreader hother => ?_, hchannel', fun _ => hanswer'⟩
    rw [hlog] at hreading
    rcases List.mem_append.mp hreading with hold | hnew
    · exact h.own reading hold call left hreader hother
    · obtain rfl := List.mem_singleton.mp hnew
      have hreader : m.point = .request call left := hreader
      rw [hreader] at hpoint
      cases hpoint

/-! ## Runs -/

/-- What a step without a response leaves in its place. -/
theorem routed_quiet (h : Routed config m) (hquiet : Quiet m m') : Routed config m' := by
  refine ⟨hquiet.log ▸ h.own, hquiet.log ▸ h.channel, fun hbegun => ?_⟩
  rw [hquiet.log]
  refine h.answer ?_
  unfold Main.hasWaited at hbegun ⊢
  rw [hquiet.log, Bool.or_eq_true] at hbegun
  rw [Bool.or_eq_true]
  exact hbegun.imp_left hquiet.waited

/-- No request starts once the wait has begun. -/
def Ordered (m : Main) : Prop := m.point.isRequest = true → m.log.any (·.point.waited) = false

theorem ordered_start : Ordered (start config) := fun _ => rfl

/-- A step that reads a response, or one that does not. -/
theorem response_or_quiet (hstep : step config m event = some m') :
    (∃ r, event = .datagram (.response r)) ∨ Quiet m m' := by
  by_cases hquiet : ∀ r, event ≠ .datagram (.response r)
  · exact .inr (step_quiet hquiet hstep)
  · obtain ⟨r, hr⟩ := not_forall.mp hquiet
    exact .inl ⟨r, not_not.mp hr⟩

theorem Ordered.step (h : Ordered m) (hstep : step config m event = some m') : Ordered m' := by
  intro hrequest
  rcases response_or_quiet hstep with ⟨r, rfl⟩ | hquiet
  · cases hcase : m.point with
    | request call left =>
      have hbefore := h (by rw [hcase]; rfl)
      rw [(step_request hcase hstep).1, List.any_append, hbefore, hcase]
      rfl
    | _ =>
      have hnot := (step_wait (by rw [hcase]; rfl) hstep).2.2
      rw [hnot] at hrequest
      cases hrequest
  · rw [hquiet.log]
    exact h (hquiet.isRequest hrequest)

/-- A step keeps all responses in their places exactly when it is clean. -/
theorem routed_step (hordered : Ordered m) (h : Routed config m)
    (hstep : step config m event = some m') : Routed config m' ↔ Clean config m event := by
  cases event with
  | error =>
    exact iff_of_true (routed_quiet h (step_quiet (fun r heq => by cases heq) hstep)) trivial
  | datagram d =>
    cases d with
    | other data =>
      exact iff_of_true (routed_quiet h (step_quiet (fun r heq => by cases heq) hstep)) trivial
    | malformed =>
      exact iff_of_true (routed_quiet h (step_quiet (fun r heq => by cases heq) hstep)) trivial
    | response r =>
      unfold Clean
      cases hcase : m.point with
      | request call left =>
        exact routed_request hcase (hordered (by rw [hcase]; rfl)) h hstep
      | _ =>
        rw [← hcase]
        exact routed_wait (by rw [hcase]; rfl) h hstep

theorem routed_start : Routed config (start config) where
  own reading hreading := by cases hreading
  channel r hr := by cases hr
  answer hbegun := by cases hbegun

/-! ## The queue -/

theorem pendingResponses_proceed (m : Main) (r : Response) (call : Call) :
    (m.proceed config r call).udp.pendingResponses = m.udp.pendingResponses := by
  cases call with
  | probeP2psrv => rfl
  | onlineP2psrv =>
    simp only [Main.proceed]
    split <;> rfl
  | onlineRelay =>
    simp only [Main.proceed]
    split <;> rfl
  | relayAgent =>
    simp only [Main.proceed]
    split <;> rfl

theorem pendingResponses_request (m : Main) (call : Call) (left : Nat) (r : Response) :
    m.udp.pendingResponses <+: (m.request config call left r).udp.pendingResponses := by
  simp only [Main.request]
  split
  · cases left <;> exact List.prefix_append _ _
  · split
    · cases left <;> exact List.prefix_refl _
    · rw [pendingResponses_proceed]
      exact List.prefix_refl _

theorem pendingResponses_read {returnError : Bool} {use : Response → Main} {d : Datagram}
    (huse : ∀ r, m.udp.pendingResponses <+: (use r).udp.pendingResponses) :
    m.udp.pendingResponses <+: (m.read returnError d use).udp.pendingResponses := by
  unfold Main.read
  split
  · split <;> exact List.prefix_refl _
  · exact List.prefix_refl _
  · split
    · exact List.prefix_refl _
    · exact huse _

theorem pendingResponses_skipDatagram (m : Main) (left : Nat) :
    (m.skipDatagram left).udp.pendingResponses = m.udp.pendingResponses := by
  cases left <;> rfl

theorem pendingResponses_relaySync (m : Main) (left : Nat) (d : Datagram) :
    (m.relaySync config left d).udp.pendingResponses = m.udp.pendingResponses := by
  cases d with
  | other data =>
    simp only [Main.relaySync]
    split
    · split
      · rfl
      · split <;> rfl
    · exact pendingResponses_skipDatagram m left
  | malformed => exact pendingResponses_skipDatagram m left
  | response r => exact pendingResponses_skipDatagram (m.note r .skipped) left

/-- What `request` has queued stays in the queue. -/
theorem pendingResponses_step (hstep : step config m event = some m') :
    m.udp.pendingResponses <+: m'.udp.pendingResponses := by
  unfold step at hstep
  split at hstep
  · cases hstep
    exact pendingResponses_read fun r => pendingResponses_request m _ _ r
  · cases hstep
    exact List.prefix_refl _
  · cases hstep
    refine pendingResponses_read fun r => ?_
    unfold Main.natInfo
    split
    · exact List.prefix_refl _
    · split <;> exact List.prefix_refl _
  · cases hstep
    exact List.prefix_refl _
  · cases hstep
    refine pendingResponses_read fun r => ?_
    unfold Main.relayChannel
    split
    · exact List.prefix_refl _
    · split <;> exact List.prefix_refl _
  · cases hstep
    exact List.prefix_refl _
  · cases hstep
    rw [pendingResponses_relaySync]
  · cases hstep
    exact List.prefix_refl _
  · cases hstep
    refine pendingResponses_read fun r => ?_
    unfold Main.channelAttempt
    split <;> exact List.prefix_refl _
  · cases hstep
    unfold Main.retry
    split <;> exact List.prefix_refl _
  · cases hstep
  · cases hstep
  · cases hstep
  · cases hstep

/-- Nothing ever takes a response out of the queue. -/
theorem pendingResponses_prefix {events : List Event}
    (hrun : Run.run (step config) events m = some m') :
    m.udp.pendingResponses <+: m'.udp.pendingResponses :=
  Run.run_invariant (I := fun t => m.udp.pendingResponses <+: t.udp.pendingResponses)
    (List.prefix_refl _) (fun _ _ _ h hstep => h.trans (pendingResponses_step hstep)) hrun

/-- A response that `request` queues is in the queue. -/
theorem mem_pendingResponses_step (hqueued : fateOf config m.point r = .queued)
    (hstep : step config m (.datagram (.response r)) = some m') :
    r ∈ m'.udp.pendingResponses := by
  cases hpoint : m.point with
  | request call left =>
    rw [hpoint] at hqueued
    simp only [step, hpoint, Main.read, Bool.not_false, Bool.true_and, decide_eq_true_eq] at hstep
    simp only [fateOf] at hqueued
    split at hqueued
    · cases hqueued
    · next hcode =>
      rw [if_neg hcode] at hstep
      simp only [Main.request] at hstep
      split at hqueued
      · next hforeign =>
        rw [if_pos hforeign] at hstep
        cases left with
        | zero => cases hqueued
        | succ left =>
          cases hstep
          exact List.mem_append_right _ List.mem_cons_self
      · split at hqueued
        · split at hqueued <;> cases hqueued
        · cases hqueued
  | relaySync left =>
    rw [hpoint] at hqueued
    cases hqueued
  | _ =>
    rw [hpoint] at hqueued
    simp only [fateOf] at hqueued
    split at hqueued <;> cases hqueued

/-- What was queued is in the queue. -/
def Kept (m : Main) : Prop :=
  ∀ reading ∈ m.log, reading.fate = .queued → reading.response ∈ m.udp.pendingResponses

theorem Kept.step (h : Kept m) (hstep : step config m event = some m') : Kept m' := by
  intro reading hreading hqueued
  have hprefix := pendingResponses_step hstep
  rcases response_or_quiet hstep with ⟨r, rfl⟩ | hquiet
  · rw [log_step hstep] at hreading
    rcases List.mem_append.mp hreading with hold | hnew
    · exact hprefix.subset (h reading hold hqueued)
    · obtain rfl := List.mem_singleton.mp hnew
      exact mem_pendingResponses_step hqueued hstep
  · rw [hquiet.log] at hreading
    exact hprefix.subset (h reading hreading hqueued)

/-- In every run, `read_for_cseq` would find the answer that was queued. -/
theorem queued_answer_waits {events : List Event} {reading : Reading}
    (hrun : Run.run (step config) events (start config) = some m) (hreading : reading ∈ m.log)
    (hqueued : reading.fate = .queued) (hanswer : reading.response.isAnswer config = true) :
    ∃ r, (m.udp.takePending (config.cseq .p2pChannel)).1 = some r ∧
      r.cseq = toString (config.cseq .p2pChannel) := by
  have hkept : Kept m := Run.run_invariant (fun _ hreading => by cases hreading)
    (fun _ _ _ h hstep => h.step hstep) hrun
  have hcseq : reading.response.cseq = toString (config.cseq .p2pChannel) := by
    unfold Response.isAnswer at hanswer
    rw [Bool.and_eq_true] at hanswer
    exact of_decide_eq_true hanswer.2
  have hmem := hkept reading hreading hqueued
  unfold UDP.takePending
  cases hfind : m.udp.pendingResponses.find? (·.cseq = toString (config.cseq .p2pChannel)) with
  | some r =>
    have hfound := List.find?_some hfind
    exact ⟨r, rfl, of_decide_eq_true hfound⟩
  | none =>
    have hnone := List.find?_eq_none.mp hfind reading.response hmem
    exact absurd (decide_eq_true hcseq) hnone

end Steps

/-- In every run, every response goes where its `CSeq` says, in all states, exactly when each
response that is read may be read where it is read. -/
theorem responses_routed_iff {config : Config} {events : List Event} {m : Main}
    (hrun : Run.run (step config) events (start config) = some m) :
    (∀ past t, past <+: events → Run.run (step config) past (start config) = some t →
      Routed config t) ↔ Run.Along (step config) (Clean config) events (start config) := by
  refine Run.reached_iff_along (I := Ordered) (P := fun _ _ => True) ?_ ordered_start routed_start
    (Run.along_of_forall fun _ _ => trivial) hrun
  intro event t t' _ hordered hgood hstep
  exact ⟨hordered.step hstep, routed_step hordered hgood hstep⟩

/-- A configuration with different request ids. -/
def sampleConfig : Config where
  server := ⟨"server", 8800⟩
  cseq
    | .call .probeP2psrv => 1
    | .call .onlineP2psrv => 2
    | .p2pChannel => 3
    | .call .onlineRelay => 4
    | .call .relayAgent => 5
    | .relayStart => 6
    | .relayChannel => 7
  waitForChannelResponse := false

def reply (cseq : String) : Response where
  code := 200
  status := "OK"
  cseq := cseq
  ds := some ⟨"ds", 1⟩
  us := some ⟨"us", 2⟩
  address := some ⟨"relay", 3⟩
  token := some "token"
  agent := some ⟨"agent", 4⟩

/-- The responses to the first two requests. -/
def probed : List Event := [.datagram (.response (reply "1")), .datagram (.response (reply "2"))]

/-- Each response comes when it is waited for. -/
def inTurn : List Event :=
  probed ++ [.datagram (.response (reply "4")), .datagram (.response (reply "5")),
    .datagram (.response (reply "3"))]

theorem responses_routed_iff_inTurn : ∃ m,
    Run.run (step sampleConfig) inTurn (start sampleConfig) = some m ∧ Routed sampleConfig m ∧
    taken m.log = [reply "3"] := by
  refine ⟨_, rfl, ?_, by decide⟩
  exact (@responses_routed_iff sampleConfig inTurn _ rfl).mpr (by decide) inTurn _
    (List.prefix_refl _) rfl

/-- While `/online/relay` waits, an error comes for an earlier request. -/
def foreignError : List Event :=
  probed ++ [.datagram (.response { reply "2" with code := 404 })]

/-- While `/online/relay` waits, the response to `p2p-channel` comes. The one to `/relay/start`
comes last. -/
def earlyAnswer : List Event :=
  probed ++ [.datagram (.response (reply "3")), .datagram (.response (reply "4")),
    .datagram (.response (reply "5")), .datagram (.response (reply "6"))]

/-- The process ends on the error. And the wait takes the response to `/relay/start`, with the
response to `p2p-channel` in the queue. -/
theorem responses_misrouted :
    (∃ m, Run.run (step sampleConfig) foreignError (start sampleConfig) = some m ∧
      m.point = .exited ∧ ¬ Routed sampleConfig m) ∧
    ∃ m, Run.run (step sampleConfig) earlyAnswer (start sampleConfig) = some m ∧
      m.udp.pendingResponses = [reply "3"] ∧ taken m.log = [reply "6"] ∧ ¬ Routed sampleConfig m := by
  refine ⟨⟨_, rfl, rfl, fun h => ?_⟩, _, rfl, rfl, by decide, fun h => ?_⟩
  · have hfate := h.own ⟨.request .onlineRelay 9, { reply "2" with code := 404 }, .exited⟩
      (by decide) .onlineRelay 9 rfl (by decide)
    cases hfate
  · have hhead := h.answer (by decide) (reply "3") (by decide)
    exact absurd hhead (by decide)

end DahuaBridge.Easy4ip
