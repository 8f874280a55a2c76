import DahuaBridge.Engine.View

/-!
# The tunnel engine: ONVIF exchanges

For an ONVIF connection the tasks of the engine do together what `processWriter` does with a
list of chunks: they collect the response of the camera and answer with its rewriting.

* `Exchange`: the invariant of one connection, kept by every `View.Step`.
* `onvif_one_at_a_time`: the connections are served one after the other.
* `onvif_refines_processWriter`: the socket of an ONVIF connection has taken a prefix of what
  `processWriter` writes for the chunks that were looked up for its realm.
-/

namespace DahuaBridge.Engine

open Tiling

/-- What is written for a response. -/
def answerTo (config : HttpRewriteConfig) (response : Bytes) : Bytes :=
  if response.isEmpty then [] else answer config response

/-- More chunks make no difference to the response, or there are none to come. -/
def View.Settled (v : View) : Prop :=
  (∀ more, collect [] (v.chunks ++ more) = collect [] v.chunks) ∨ v.sender = false

/-- Where an ONVIF connection is. `Known` holds of the rewriting, if any, that the handler has
set up. -/
inductive Exchange (Known : Option HttpRewriteConfig → Prop) (v : View) : Prop
  | waiting : v.writer = .notSpawned → v.written = [] → v.chunks = v.rx ++ v.held.toList →
      Exchange Known v
  /-- There was no local address. -/
  | relayed : Known none → Exchange Known v
  | collecting (config : HttpRewriteConfig) (response : Bytes) : Known (some config) →
      v.writer = .collecting config response → v.written = [] →
      (∀ more, collect [] (v.chunks ++ more) = collect response (v.rx ++ v.held.toList ++ more)) →
      Exchange Known v
  | answering (config : HttpRewriteConfig) (left : Bytes) : Known (some config) →
      v.writer = .answering left → v.written ++ left = answerTo config (collect [] v.chunks) →
      v.Settled → Exchange Known v
  | answered (config : HttpRewriteConfig) : Known (some config) →
      v.writer = .removeChannel ∨ v.writer = .closed →
      v.written <+: answerTo config (collect [] v.chunks) → v.Settled → Exchange Known v

section Exchange

variable {Known Serves : Option HttpRewriteConfig → Prop} {v v' : View} {data response : Bytes}

/-- More chunks come only while there is a sender. -/
theorem View.Settled.lookUp (h : v.Settled) (hsender : v.sender = true) (data : Bytes) :
    View.Settled { v with chunks := v.chunks ++ [data], held := some data } ∧
      collect [] (v.chunks ++ [data]) = collect [] v.chunks := by
  rcases h with hall | hgone
  · refine ⟨.inl fun more => ?_, hall [data]⟩
    show collect [] (v.chunks ++ [data] ++ more) = collect [] (v.chunks ++ [data])
    rw [List.append_assoc, hall, hall]
  · rw [hsender] at hgone
    cases hgone

theorem View.Settled.of_sender (h : v.Settled) (hchunks : v'.chunks = v.chunks)
    (hsender : v'.sender = true → v.sender = true) : v'.Settled := by
  rcases h with hall | hgone
  · exact .inl (hchunks ▸ hall)
  · refine .inr (Bool.eq_false_iff.mpr fun htrue => ?_)
    rw [hsender htrue] at hgone
    cases hgone

theorem Exchange.mono {Known' : Option HttpRewriteConfig → Prop} (h : Exchange Known v)
    (hknown : ∀ rewrite, Known rewrite → Known' rewrite) : Exchange Known' v := by
  cases h with
  | waiting hwriter hwritten hchunks => exact .waiting hwriter hwritten hchunks
  | relayed hnone => exact .relayed (hknown _ hnone)
  | collecting config response hconfig hwriter hwritten hcollect =>
    exact .collecting config response (hknown _ hconfig) hwriter hwritten hcollect
  | answering config left hconfig hwriter hwritten hsettled =>
    exact .answering config left (hknown _ hconfig) hwriter hwritten hsettled
  | answered config hconfig hwriter hwritten hsettled =>
    exact .answered config (hknown _ hconfig) hwriter hwritten hsettled

/-- The response is collected. -/
theorem Exchange.of_answerStage {config : HttpRewriteConfig} (hconfig : Known (some config))
    (hwriter : v.writer = answerStage config response) (hwritten : v.written = [])
    (hresponse : collect [] v.chunks = response) (hsettled : v.Settled) : Exchange Known v := by
  unfold answerStage at hwriter
  split at hwriter
  · exact .answered config hconfig (.inl hwriter) (hwritten ▸ List.nil_prefix) hsettled
  · next hne =>
    refine .answering config _ hconfig hwriter ?_ hsettled
    rw [hwritten, hresponse, answerTo, if_neg hne]
    rfl

/-- A chunk is taken from the channel. -/
theorem Exchange.collect {config : HttpRewriteConfig} {rx : List Bytes}
    (hconfig : Known (some config)) (hwritten : v.written = []) (hrx : v.rx = data :: rx)
    (hcollect : ∀ more, DahuaBridge.collect [] (v.chunks ++ more) =
      DahuaBridge.collect response (v.rx ++ v.held.toList ++ more)) :
    Exchange Known { v with
      writer := if httpResponseComplete (response ++ data) then answerStage config (response ++ data)
        else .collecting config (response ++ data)
      rx } := by
  rw [hrx] at hcollect
  have hnext (more : List Bytes) : DahuaBridge.collect [] (v.chunks ++ more) =
      if httpResponseComplete (response ++ data) then response ++ data
      else DahuaBridge.collect (response ++ data) (rx ++ v.held.toList ++ more) := hcollect more
  split
  · next hcomplete =>
    simp only [if_pos hcomplete] at hnext
    have hresponse : DahuaBridge.collect [] v.chunks = response ++ data := by
      rw [← hnext [], List.append_nil]
    exact .of_answerStage hconfig rfl hwritten hresponse (.inl fun more => by rw [hnext, hresponse])
  · next hincomplete =>
    simp only [if_neg hincomplete] at hnext
    exact .collecting config _ hconfig rfl hwritten hnext

theorem Exchange.step_waiting (hwriter : v.writer = .notSpawned) (hwritten : v.written = [])
    (hchunks : v.chunks = v.rx ++ v.held.toList) (hstep : View.Step Serves v v')
    (hknown : ∀ rewrite, Serves rewrite → Known rewrite) : Exchange Known v' := by
  cases hstep with
  | idle sender _ => exact .waiting hwriter hwritten hchunks
  | relay _ hserves => exact .relayed (hknown none hserves)
  | serve config _ hserves =>
    refine .collecting config [] (hknown _ hserves) rfl hwritten fun more => ?_
    show DahuaBridge.collect [] (v.chunks ++ more) = _
    rw [hchunks]
  | lookUp data _ hnone =>
    refine .waiting hwriter hwritten ?_
    show v.chunks ++ [data] = v.rx ++ [data]
    rw [hchunks, hnone, Option.toList_none, List.append_nil]
  | forward data sender hdata =>
    refine .waiting hwriter hwritten ?_
    have hrunning : ¬v.writer.hasEnded = true := by rw [hwriter]; exact Bool.false_ne_true
    rw [if_neg hrunning, hchunks, hdata]
    exact (List.append_nil _).symm
  | take _ _ h => cases hwriter.symm.trans h
  | close h => cases hwriter.symm.trans h
  | write _ _ h => cases hwriter.symm.trans h
  | fail _ h => cases hwriter.symm.trans h
  | collect _ _ _ _ h => cases hwriter.symm.trans h
  | hangUp _ _ h => cases hwriter.symm.trans h
  | answer _ _ h => cases hwriter.symm.trans h
  | giveUp _ h => cases hwriter.symm.trans h
  | finish _ h => cases hwriter.symm.trans h

theorem Exchange.step_collecting {config : HttpRewriteConfig} (hconfig : Known (some config))
    (hwriter : v.writer = .collecting config response) (hwritten : v.written = [])
    (hcollect : ∀ more, DahuaBridge.collect [] (v.chunks ++ more) =
      DahuaBridge.collect response (v.rx ++ v.held.toList ++ more))
    (hheld : v.sender = false → v.held = none) (hstep : View.Step Serves v v') :
    Exchange Known v' := by
  cases hstep with
  | idle sender _ => exact .collecting config response hconfig hwriter hwritten hcollect
  | lookUp data _ hnone =>
    refine .collecting config response hconfig hwriter hwritten fun more => ?_
    show DahuaBridge.collect [] (v.chunks ++ [data] ++ more) =
      DahuaBridge.collect response (v.rx ++ [data] ++ more)
    rw [List.append_assoc, hcollect, hnone, Option.toList_none, List.append_nil, List.append_assoc]
  | forward data sender hdata =>
    refine .collecting config response hconfig hwriter hwritten fun more => ?_
    have hrunning : ¬v.writer.hasEnded = true := by rw [hwriter]; exact Bool.false_ne_true
    have hmore := hcollect more
    rw [hdata] at hmore
    rw [if_neg hrunning, hmore]
    exact congrArg (DahuaBridge.collect response <| · ++ more) (List.append_nil _).symm
  | collect config' response' data rx h hrx =>
    obtain ⟨rfl, rfl⟩ := ProcessWriter.collecting.inj (hwriter.symm.trans h)
    exact .collect hconfig hwritten hrx hcollect
  | hangUp config' response' h hrx hgone =>
    obtain ⟨rfl, rfl⟩ := ProcessWriter.collecting.inj (hwriter.symm.trans h)
    have hresponse := hcollect []
    rw [hrx, hheld hgone, List.append_nil] at hresponse
    exact .of_answerStage hconfig rfl hwritten hresponse (.inr hgone)
  | relay h => cases hwriter.symm.trans h
  | serve _ h => cases hwriter.symm.trans h
  | take _ _ h => cases hwriter.symm.trans h
  | close h => cases hwriter.symm.trans h
  | write _ _ h => cases hwriter.symm.trans h
  | fail _ h => cases hwriter.symm.trans h
  | answer _ _ h => cases hwriter.symm.trans h
  | giveUp _ h => cases hwriter.symm.trans h
  | finish _ h => cases hwriter.symm.trans h

theorem Exchange.step_answering {config : HttpRewriteConfig} {left : Bytes}
    (hconfig : Known (some config)) (hwriter : v.writer = .answering left)
    (hwritten : v.written ++ left = answerTo config (DahuaBridge.collect [] v.chunks))
    (hsettled : v.Settled) (hheld : v.sender = false → v.held = none)
    (hstep : View.Step Serves v v') : Exchange Known v' := by
  cases hstep with
  | idle sender hsender =>
    exact .answering config left hconfig hwriter hwritten (hsettled.of_sender rfl hsender)
  | lookUp data hsender _ =>
    obtain ⟨hsettled', hsame⟩ := hsettled.lookUp hsender data
    exact .answering config left hconfig hwriter (hsame ▸ hwritten) hsettled'
  | forward data sender hdata =>
    refine .answering config left hconfig hwriter hwritten (hsettled.of_sender rfl fun _ => ?_)
    by_contra hgone
    cases hdata.symm.trans (hheld (Bool.eq_false_iff.mpr hgone))
  | answer left' n h _ =>
    obtain rfl := ProcessWriter.answering.inj (hwriter.symm.trans h)
    split
    · refine .answered config hconfig (.inl rfl) ?_ (hsettled.of_sender rfl id)
      rw [← hwritten]
      exact (List.prefix_append_right_inj _).mpr (List.take_prefix _ _)
    · refine .answering config _ hconfig rfl ?_ (hsettled.of_sender rfl id)
      show v.written ++ left.take n ++ left.drop n = _
      rw [List.append_assoc, List.take_append_drop]
      exact hwritten
  | giveUp left' h =>
    refine .answered config hconfig (.inl rfl) ?_ (hsettled.of_sender rfl id)
    rw [← hwritten]
    exact List.prefix_append _ _
  | relay h => cases hwriter.symm.trans h
  | serve _ h => cases hwriter.symm.trans h
  | take _ _ h => cases hwriter.symm.trans h
  | close h => cases hwriter.symm.trans h
  | write _ _ h => cases hwriter.symm.trans h
  | fail _ h => cases hwriter.symm.trans h
  | collect _ _ _ _ h => cases hwriter.symm.trans h
  | hangUp _ _ h => cases hwriter.symm.trans h
  | finish _ h => cases hwriter.symm.trans h

theorem Exchange.step_answered {config : HttpRewriteConfig} (hconfig : Known (some config))
    (hwriter : v.writer = .removeChannel ∨ v.writer = .closed)
    (hwritten : v.written <+: answerTo config (DahuaBridge.collect [] v.chunks))
    (hsettled : v.Settled) (hheld : v.sender = false → v.held = none)
    (hstep : View.Step Serves v v') : Exchange Known v' := by
  cases hstep with
  | idle sender hsender =>
    exact .answered config hconfig hwriter hwritten (hsettled.of_sender rfl hsender)
  | lookUp data hsender _ =>
    obtain ⟨hsettled', hsame⟩ := hsettled.lookUp hsender data
    exact .answered config hconfig hwriter (hsame ▸ hwritten) hsettled'
  | forward data sender hdata =>
    refine .answered config hconfig hwriter hwritten (hsettled.of_sender rfl fun _ => ?_)
    by_contra hgone
    cases hdata.symm.trans (hheld (Bool.eq_false_iff.mpr hgone))
  | finish sender _ hsender =>
    exact .answered config hconfig (.inr rfl) hwritten (hsettled.of_sender rfl hsender)
  | relay h => rcases hwriter with h' | h' <;> cases h'.symm.trans h
  | serve _ h => rcases hwriter with h' | h' <;> cases h'.symm.trans h
  | take _ _ h => rcases hwriter with h' | h' <;> cases h'.symm.trans h
  | close h => rcases hwriter with h' | h' <;> cases h'.symm.trans h
  | write _ _ h => rcases hwriter with h' | h' <;> cases h'.symm.trans h
  | fail _ h => rcases hwriter with h' | h' <;> cases h'.symm.trans h
  | collect _ _ _ _ h => rcases hwriter with h' | h' <;> cases h'.symm.trans h
  | hangUp _ _ h => rcases hwriter with h' | h' <;> cases h'.symm.trans h
  | answer _ _ h => rcases hwriter with h' | h' <;> cases h'.symm.trans h
  | giveUp _ h => rcases hwriter with h' | h' <;> cases h'.symm.trans h

/-- `Exchange` is kept by every step of a view in which `dh_reader` holds a chunk only with a
sender. -/
theorem Exchange.step (h : Exchange Known v) (hheld : v.sender = false → v.held = none)
    (hstep : View.Step Serves v v') (hknown : ∀ rewrite, Serves rewrite → Known rewrite) :
    Exchange Known v' := by
  cases h with
  | waiting hwriter hwritten hchunks => exact .step_waiting hwriter hwritten hchunks hstep hknown
  | relayed hnone => exact .relayed hnone
  | collecting config response hconfig hwriter hwritten hcollect =>
    exact .step_collecting hconfig hwriter hwritten hcollect hheld hstep
  | answering config left hconfig hwriter hwritten hsettled =>
    exact .step_answering hconfig hwriter hwritten hsettled hheld hstep
  | answered config hconfig hwriter hwritten hsettled =>
    exact .step_answered hconfig hwriter hwritten hsettled hheld hstep

end Exchange

/-! ## Runs -/

/-- The rewriting, if any, that the handler of client `i` was given. -/
def givenTo (events : List Event) (i : Nat) (rewrite : Option HttpRewriteConfig) : Prop :=
  Event.handleClient i rewrite ∈ events

structure Exchanges (base : Nat) (events : List Event) (e : Engine) : Prop where
  demux : Demux base e
  slots : Slots e
  exchange : ∀ (i : Nat) (c : Client), e.clients[i]? = some c → c.service = .onvif →
    Exchange (givenTo events i) (e.view i c)

section Runs

variable {config : Config} {base : Nat} {events : List Event} {event : Event} {e e' : Engine}
  {i : Nat}

/-- While `dh_reader` holds a chunk for a client, it has the sender of the client. -/
theorem heldFor_of_not_hasSender (h : e.hasSender i = false) : e.heldFor i = none := by
  unfold heldFor
  cases hreader : e.dhReader with
  | forward j data packets =>
    refine if_neg fun hij => ?_
    have hsender : e.hasSender i = true := hasSender_iff.mpr (.inr ⟨data, packets, hij ▸ hreader⟩)
    rw [h] at hsender
    cases hsender
  | _ => rfl

/-- A client after a step was there before it, or it is new. -/
theorem Views.old_or_new (h : Views event e e') {c' : Client} (hc' : e'.clients[i]? = some c')
    (hstep : Engine.step config e event = some e') :
    (∃ c, e.clients[i]? = some c ∧ c'.service = c.service ∧
      View.Step (event.Serves i c.service) (e.view i c) (e'.view i c')) ∨
    ∃ service realm, e.accept service realm = some e' ∧ i = e.clients.length ∧
      c' = { realm, service } := by
  cases hc : e.clients[i]? with
  | some c =>
    obtain ⟨d, hd, _, hservice, hview⟩ := h.step i c hc
    obtain rfl : d = c' := Option.some.inj (hd.symm.trans hc')
    exact .inl ⟨c, rfl, hservice, hview⟩
  | none =>
    right
    by_cases haccept : ∃ service realm, event = .accept service realm
    · obtain ⟨service, realm, rfl⟩ := haccept
      have hstep' : e.accept service realm = some e' := by
        unfold Engine.step at hstep
        split at hstep
        · cases hstep
        · exact hstep
      obtain ⟨_, _, heq⟩ := accept_eq_some hstep'
      have hclients : e'.clients = e.clients ++ [{ realm := realm, service := service }] := by
        rw [heq]
      rw [hclients] at hc'
      rcases getElem?_concat_cases hc' with ⟨_, hold⟩ | ⟨hi, hnew⟩
      · cases hc.symm.trans hold
      · exact ⟨service, realm, hstep', hi, hnew⟩
    · have hlength := h.length fun service realm heq => haccept ⟨service, realm, heq⟩
      have hlt := (List.getElem?_eq_some_iff.mp hc').1
      exact absurd (hlength ▸ hlt) (Nat.not_lt.mpr (List.getElem?_eq_none_iff.mp hc))

theorem Exchanges.step (h : Exchanges base events e) (hstep : Engine.step config e event = some e') :
    Exchanges base (events ++ [event]) e' where
  demux := h.demux.step hstep
  slots := h.slots.step hstep
  exchange i c' hc' honvif := by
    have hviews := step_views h.demux.toRegistry h.slots hstep
    rcases hviews.old_or_new hc' hstep with ⟨c, hc, hservice, hview⟩ | ⟨service, realm, hnew, rfl, rfl⟩
    · have hold := (h.exchange i c hc (hservice ▸ honvif)).mono
        fun rewrite hgiven => (List.mem_append_left [event] hgiven : givenTo (events ++ [event]) i rewrite)
      refine hold.step heldFor_of_not_hasSender hview ?_
      rintro rewrite ⟨localAddress, rfl, rfl⟩
      rw [if_pos (hservice ▸ honvif)]
      exact List.mem_append_right _ (List.mem_singleton_self _)
    · rw [view_of_new h.demux.toRegistry hnew]
      exact .waiting rfl rfl rfl

end Runs

theorem exchanges_of_run {config : Config} {session : PTCPSession} {events : List Event} {e : Engine}
    (hstrict : session.allowGapSkip = false) (hpending : session.pending = ∅)
    (hrun : Run.run (step config) events (start session) = some e) :
    Exchanges session.recv.toNat events e := by
  refine Run.run_induction (I := Exchanges session.recv.toNat) ?_ ?_ hrun
  · refine ⟨demux_start hstrict hpending, slots_start session, fun i c hc => ?_⟩
    rw [start, List.getElem?_nil] at hc
    cases hc
  · exact fun past event t t' _ ht hstep => ht.step hstep

/-- What a connection whose writer has ended was sent is final. -/
theorem View.Step.ended {Serves : Option HttpRewriteConfig → Prop} {v v' : View}
    (h : View.Step Serves v v') (hended : v.writer.hasEnded = true) :
    v'.writer = v.writer ∧ v'.written = v.written := by
  have hother {writer : ProcessWriter} {P : Prop} (h : v.writer = writer)
      (hrunning : writer.hasEnded = false) : P := by
    rw [h, hrunning] at hended
    cases hended
  cases h with
  | idle => exact ⟨rfl, rfl⟩
  | lookUp => exact ⟨rfl, rfl⟩
  | forward => exact ⟨rfl, rfl⟩
  | relay h => exact hother h rfl
  | serve _ h => exact hother h rfl
  | take _ _ h => exact hother h rfl
  | close h => exact hother h rfl
  | write _ _ h => exact hother h rfl
  | fail _ h => exact hother h rfl
  | collect _ _ _ _ h => exact hother h rfl
  | hangUp _ _ h => exact hother h rfl
  | answer _ _ h => exact hother h rfl
  | giveUp _ h => exact hother h rfl
  | finish _ h => exact hother h rfl

/-- In every run in strict mode, whatever the other tasks do: the socket of an ONVIF connection
has taken a prefix of what `process_writer` alone writes for the chunks that were looked up for
the realm of the connection, which come from packets of the camera's stream in their order.
While an answer is being written, what is left is the rest of it. -/
theorem onvif_refines_processWriter {config : Config} {session : PTCPSession} {events : List Event}
    {e : Engine} {i : Nat} {c : Client} {rewrite : HttpRewriteConfig}
    (hstrict : session.allowGapSkip = false) (hpending : session.pending = ∅)
    (hrun : Run.run (step config) events (start session) = some e) (hc : e.clients[i]? = some c)
    (honvif : c.service = .onvif)
    (haddress : ∀ localAddress, .handleClient i localAddress ∈ events → localAddress = some rewrite)
    (fails : Nat → Bool) (channels : List U32) :
    c.written <+: (DahuaBridge.processWriter (some rewrite) fails (chunksFor c.realm e.notes) c.realm
      channels).written ∧
    (∀ left, c.writer = .answering left → c.written ++ left = (DahuaBridge.processWriter
      (some rewrite) fails (chunksFor c.realm e.notes) c.realm channels).written) ∧
    (track c.realm e.notes).packets.Sublist e.delivered ∧
    Tiles PTCPPacket.sent PTCPPacket.bodyLen session.recv e.delivered := by
  have hexchanges := exchanges_of_run hstrict hpending hrun
  have hwhole : (DahuaBridge.processWriter (some rewrite) fails (chunksFor c.realm e.notes) c.realm
      channels).written = answerTo rewrite (collect [] (chunksFor c.realm e.notes)) :=
    written_processWriter rewrite fails c.realm channels _
  have hrewrite {config' : HttpRewriteConfig} (hgiven : givenTo events i (some config')) :
      config' = rewrite := Option.some.inj (haddress _ hgiven)
  have htaken : c.written <+: answerTo rewrite (collect [] (chunksFor c.realm e.notes)) ∧
      ∀ left, c.writer = .answering left →
        c.written ++ left = answerTo rewrite (collect [] (chunksFor c.realm e.notes)) := by
    cases hexchanges.exchange i c hc honvif with
    | waiting hwriter hwritten _ =>
      have hnone : c.written = [] := hwritten
      exact ⟨hnone ▸ List.nil_prefix, fun left h => by cases hwriter.symm.trans h⟩
    | relayed hnone => cases haddress none hnone
    | collecting _ _ _ hwriter hwritten _ =>
      have hnone : c.written = [] := hwritten
      exact ⟨hnone ▸ List.nil_prefix, fun left h => by cases hwriter.symm.trans h⟩
    | answering config' left hgiven hwriter hwritten _ =>
      obtain rfl := hrewrite hgiven
      refine ⟨⟨left, hwritten⟩, fun left' h => ?_⟩
      obtain rfl := ProcessWriter.answering.inj (hwriter.symm.trans h)
      exact hwritten
    | answered config' hgiven hwriter hwritten _ =>
      obtain rfl := hrewrite hgiven
      exact ⟨hwritten, fun left h => by rcases hwriter with h' | h' <;> cases h'.symm.trans h⟩
  obtain ⟨received, hconserved⟩ := hexchanges.demux.stream
  have htiles := hconserved.tiles
  rw [SeqNum.wrap_toNat] at htiles
  rw [hwhole]
  exact ⟨htaken.1, htaken.2, (track_sublist c.realm e.notes).trans
    (List.IsPrefix.sublist ⟨_, hexchanges.demux.handled⟩), htiles⟩

/-- An ONVIF connection that has got the first bytes of its answer. -/
def oneExchange : List Event := [
  .accept .onvif 7, .handleClient 0 (some ⟨"h", 80, 554⟩), .handleClient 0 (some ⟨"h", 80, 554⟩),
  .receive 1 ⟨0, 0, 0, 0, 0, .status 7 "CONN"⟩, .dhReader 1, .dhReader 1, .dhReader 1,
  .handleClient 0 (some ⟨"h", 80, 554⟩),
  .receive 2 ⟨16, 0, 0, 0, 0, .payload ⟨7, [13, 10, 13, 10, 65]⟩⟩, .dhReader 2, .dhReader 2,
  .dhReader 2, .processWriter 0, .clientWrite 0 3]

theorem onvif_refines_processWriter_oneExchange : ∃ e c,
    Run.run (step ⟨554, gapTimeout none⟩) oneExchange
      (start ((PTCPSession.new 0).setAllowGapSkip false)) = some e ∧
    e.clients[0]? = some c ∧ c.written.length = 3 ∧
    c.written <+: (DahuaBridge.processWriter (some ⟨"h", 80, 554⟩) (fun _ => false)
      [[13, 10, 13, 10, 65]] c.realm []).written := by
  refine ⟨_, _, rfl, rfl, by decide +kernel, ?_⟩
  have hall : ∀ localAddress, .handleClient 0 localAddress ∈ oneExchange →
      localAddress = some ⟨"h", 80, 554⟩ := by
    intro localAddress h
    simpa [oneExchange] using h
  exact (@onvif_refines_processWriter ⟨554, gapTimeout none⟩
    ((PTCPSession.new 0).setAllowGapSkip false) oneExchange _ 0 _ ⟨"h", 80, 554⟩ rfl rfl rfl rfl rfl
    hall (fun _ => false) []).1

end DahuaBridge.Engine
