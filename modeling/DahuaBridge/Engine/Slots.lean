import DahuaBridge.Engine.Session

/-!
# The tunnel engine: the permit for ONVIF

`onvif_slots` is a semaphore with one permit. A connection takes it before its realm is drawn,
and `process_writer` has it until it ends.

* `Slots`: the invariant. The permit is with the semaphore or with one connection, and all the
  ONVIF connections before that one have ended.
* `accept_onvif_iff`: when another connection is let in.
-/

namespace DahuaBridge.Engine

/-- `process_writer` has returned. -/
def ProcessWriter.hasEnded : ProcessWriter → Bool
  | .closed => true
  | .failed => true
  | _ => false

/-- The connection has the permit of `onvif_slots`. -/
def Client.holdsPermit (c : Client) : Bool := c.service = .onvif && !c.writer.hasEnded

/-- What the permits depend on. -/
def Client.claim (c : Client) : Service × Bool := (c.service, c.holdsPermit)

/-- The permits of some connections, in the order in which these have come. -/
structure InTurn (slots : Nat) (claims : List (Service × Bool)) : Prop where
  conserved : slots + claims.countP Prod.snd = 1
  ordered : claims.Pairwise fun claim claim' => claim'.1 = .onvif → claim.2 = false

structure Slots (e : Engine) : Prop where
  turn : InTurn e.onvifSlots (e.clients.map Client.claim)
  spawned : ∀ c ∈ e.clients, c.handler ≠ .done → c.writer = .notSpawned

section Slots

variable {config : Config} {e e' : Engine} {i : Nat} {c c' : Client}

/-- A permit is given back. -/
theorem InTurn.release {slots : Nat} {claims : List (Service × Bool)} {service : Service}
    (h : InTurn slots claims) (hi : claims[i]? = some (service, true)) :
    InTurn (slots + 1) (claims.set i (service, false)) := by
  obtain ⟨hlt, hget⟩ := List.getElem?_eq_some_iff.mp hi
  constructor
  · have hpos : 0 < claims.countP Prod.snd :=
      List.countP_pos_iff.mpr ⟨_, List.mem_of_getElem? hi, rfl⟩
    have hcount : (claims.set i (service, false)).countP Prod.snd = claims.countP Prod.snd - 1 := by
      rw [List.countP_set hlt, hget]
      rfl
    have hconserved := h.conserved
    rw [hcount]
    omega
  · refine List.pairwise_iff_getElem.mpr fun j k hj hk hjk hservice => ?_
    rw [List.length_set] at hj hk
    have hordered := List.pairwise_iff_getElem.mp h.ordered j k hj hk hjk
    rw [List.getElem_set] at hservice ⊢
    split
    · rfl
    · refine hordered ?_
      split at hservice
      · next hik =>
        subst hik
        rw [hget]
        exact hservice
      · exact hservice

/-- The permit is taken by a new connection. -/
theorem InTurn.take {slots : Nat} {claims : List (Service × Bool)} (h : InTurn (slots + 1) claims) :
    InTurn slots (claims ++ [(.onvif, true)]) := by
  have hconserved := h.conserved
  have hnone : claims.countP Prod.snd = 0 := by omega
  constructor
  · rw [List.countP_append, List.countP_singleton, hnone, if_pos rfl]
    omega
  · refine List.pairwise_append.mpr ⟨h.ordered, List.pairwise_singleton _ _, ?_⟩
    intro claim hclaim claim' _ _
    exact Bool.eq_false_iff.mpr (List.countP_eq_zero.mp hnone claim hclaim)

theorem InTurn.pass {slots : Nat} {claims : List (Service × Bool)} (h : InTurn slots claims) :
    InTurn slots (claims ++ [(.rtsp, false)]) := by
  constructor
  · rw [List.countP_append, List.countP_singleton]
    exact h.conserved
  · refine List.pairwise_append.mpr ⟨h.ordered, List.pairwise_singleton _ _, ?_⟩
    intro claim _ claim' hclaim' hservice
    obtain rfl := List.mem_singleton.mp hclaim'
    cases hservice

theorem slots_start (session : PTCPSession) : Slots (start session) where
  turn := ⟨rfl, .nil⟩
  spawned c hc := by cases hc

theorem Slots.of_same (h : Slots e) (hslots : e'.onvifSlots = e.onvifSlots)
    (hclients : e'.clients = e.clients) : Slots e' := by
  constructor
  · rw [hslots, hclients]
    exact h.turn
  · rw [hclients]
    exact h.spawned

theorem spawned_set {clients : List Client}
    (h : ∀ c ∈ clients, c.handler ≠ .done → c.writer = .notSpawned)
    (hc' : c'.handler ≠ .done → c'.writer = .notSpawned) :
    ∀ c ∈ clients.set i c', c.handler ≠ .done → c.writer = .notSpawned := by
  intro d hd
  rcases List.mem_or_eq_of_mem_set hd with hd | rfl
  · exact h d hd
  · exact hc'

/-- A step of one connection that leaves its permit alone. -/
theorem Slots.setClient (h : Slots e) (hc : e.clients[i]? = some c) (hclaim : c'.claim = c.claim)
    (hspawned : c'.handler ≠ .done → c'.writer = .notSpawned) : Slots (e.setClient i c') where
  turn := by
    rw [map_setClient hc hclaim]
    exact h.turn
  spawned := spawned_set h.spawned hspawned

theorem Slots.setSame (h : Slots e) (hc : e.clients[i]? = some c) (hservice : c'.service = c.service)
    (hwriter : c'.writer = c.writer) (hhandler : c'.handler ≠ .done → c.handler ≠ .done) :
    Slots (e.setClient i c') := by
  refine h.setClient hc ?_ fun hne => ?_
  · rw [Client.claim, Client.claim, Client.holdsPermit, Client.holdsPermit, hservice, hwriter]
  · exact hwriter.trans (h.spawned c (List.mem_of_getElem? hc) (hhandler hne))

/-- A connection whose writer goes on. -/
theorem Slots.setWriter (h : Slots e) (hc : e.clients[i]? = some c)
    (hservice : c'.service = c.service) (hrunning : c.writer.hasEnded = false)
    (hrunning' : c'.writer.hasEnded = false)
    (hspawned : c'.handler ≠ .done → c'.writer = .notSpawned) : Slots (e.setClient i c') := by
  refine h.setClient hc ?_ hspawned
  rw [Client.claim, Client.claim, Client.holdsPermit, Client.holdsPermit, hservice, hrunning,
    hrunning']

/-- The handler of a connection with a writer is done. -/
theorem Slots.done (h : Slots e) (hc : e.clients[i]? = some c) (hwriter : c.writer ≠ .notSpawned) :
    c.handler = .done := by
  by_contra hne
  exact hwriter (h.spawned c (List.mem_of_getElem? hc) hne)

/-- The writer of a connection ends. -/
theorem Slots.leave (h : Slots e) (hc : e.clients[i]? = some c) (hservice : c'.service = c.service)
    (hrunning : c.writer.hasEnded = false) (hended : c'.writer.hasEnded = true)
    (hdone : c'.handler = .done) : Slots ((e.releasePermit c).setClient i c') := by
  have hspawned : c'.handler ≠ .done → c'.writer = .notSpawned := fun hne => absurd hdone hne
  by_cases honvif : c.service = .onvif
  · have hclaim : (e.clients.map Client.claim)[i]? = some (.onvif, true) := by
      rw [List.getElem?_map, hc, Option.map_some, Client.claim, Client.holdsPermit, hrunning, honvif]
      rfl
    have hclaim' : c'.claim = (.onvif, false) := by
      rw [Client.claim, Client.holdsPermit, hended, hservice, honvif]
      rfl
    have hrelease : e.releasePermit c = { e with onvifSlots := e.onvifSlots + 1 } := if_pos honvif
    rw [hrelease]
    refine ⟨?_, spawned_set h.spawned hspawned⟩
    show InTurn (e.onvifSlots + 1) ((e.clients.set i c').map Client.claim)
    rw [List.map_set, hclaim']
    exact h.turn.release hclaim
  · have hsame : e.releasePermit c = e := if_neg honvif
    rw [hsame]
    refine h.setClient hc ?_ hspawned
    rw [Client.claim, Client.claim, Client.holdsPermit, Client.holdsPermit, hservice,
      decide_eq_false honvif]
    rfl

/-! ### The steps -/

theorem Slots.accept {service : Service} {realm : U32} (h : Slots e)
    (hstep : e.accept service realm = some e') : Slots e' := by
  have hspawned (d : Client) (hd : d.writer = .notSpawned) :
      ∀ c ∈ e.clients ++ [d], c.handler ≠ .done → c.writer = .notSpawned := by
    intro c hc hne
    rcases List.mem_append.mp hc with hc | hc
    · exact h.spawned c hc hne
    · exact (List.mem_singleton.mp hc) ▸ hd
  have hturn := h.turn
  unfold Engine.accept at hstep
  split at hstep
  · split at hstep
    · cases hstep
    · next slots hslots =>
      cases hstep
      refine ⟨?_, hspawned _ rfl⟩
      rw [hslots] at hturn
      rw [List.map_append]
      exact hturn.take
    · cases hstep
      refine ⟨?_, hspawned _ rfl⟩
      rw [List.map_append]
      exact hturn.pass
  · cases hstep

theorem Slots.enqueue {event : PTCPEvent} (h : Slots e) (hstep : e.enqueue event = some e') :
    Slots e' := by
  obtain rfl := enqueue_eq_some hstep
  exact h.of_same rfl rfl

/-- Only the end of the writer gives a permit back. -/
theorem Slots.handleClient {localAddress : Option HttpRewriteConfig} (h : Slots e)
    (hc : e.clients[i]? = some c) (hstep : handleClient config e i localAddress c = some e') :
    Slots e' := by
  unfold Engine.handleClient at hstep
  split at hstep
  · next hhandler =>
    cases hstep
    have hinsert : Slots { e with connChannels := e.connChannels.insert c.realm i } :=
      h.of_same rfl rfl
    exact hinsert.setSame hc rfl rfl fun _ => hhandler ▸ (by decide)
  · next hhandler =>
    have hset : Slots (e.setClient i { c with handler := .waitConn }) :=
      h.setSame hc rfl rfl fun _ => hhandler ▸ (by decide)
    exact hset.enqueue hstep
  · next hhandler =>
    have hnone : c.writer = .notSpawned :=
      h.spawned c (List.mem_of_getElem? hc) (hhandler ▸ (by decide))
    split at hstep
    · cases hstep
    · cases hstep
      exact h.setSame hc rfl rfl fun _ => hhandler ▸ (by decide)
    · cases hstep
      have honvif : Slots { e with
          onvifRealm := if c.service = .onvif then some c.realm else e.onvifRealm } :=
        h.of_same rfl rfl
      refine honvif.setWriter hc rfl (hnone ▸ rfl) ?_ fun hne => absurd rfl hne
      dsimp only
      split <;> rfl
  · next hhandler =>
    cases hstep
    have hremove : Slots (e.removeChannel c.realm) := h.of_same rfl rfl
    exact hremove.setSame hc rfl rfl fun _ => hhandler ▸ (by decide)
  · next hhandler =>
    cases hstep
    have herase : Slots { e with connChannels := e.connChannels.erase c.realm } := h.of_same rfl rfl
    exact herase.setSame hc rfl rfl fun _ => hhandler ▸ (by decide)
  · cases hstep
    exact h.of_same rfl rfl
  · cases hstep

theorem Slots.bindTimeout (h : Slots e) (hc : e.clients[i]? = some c)
    (hstep : e.bindTimeout i c = some e') : Slots e' := by
  unfold Engine.bindTimeout at hstep
  split at hstep
  · next hwait =>
    cases hstep
    exact h.setSame hc rfl rfl fun _ => hwait.1 ▸ (by decide)
  · cases hstep

theorem Slots.clientRead {data : Bytes} (h : Slots e) (hc : e.clients[i]? = some c)
    (hstep : e.clientRead i data c = some e') : Slots e' := by
  unfold Engine.clientRead at hstep
  split at hstep
  · cases hstep
    exact h.setSame hc rfl rfl id
  · cases hstep

theorem Slots.clientClosed (h : Slots e) (hc : e.clients[i]? = some c)
    (hstep : e.clientClosed i c = some e') : Slots e' := by
  unfold Engine.clientClosed at hstep
  split at hstep
  · cases hstep
    exact h.setSame hc rfl rfl id
  · cases hstep

theorem Slots.processReader (h : Slots e) (hc : e.clients[i]? = some c)
    (hstep : e.processReader i c = some e') : Slots e' := by
  unfold Engine.processReader at hstep
  split at hstep
  · have hset : Slots (e.setClient i { c with reader := .reading }) := h.setSame hc rfl rfl id
    exact hset.enqueue hstep
  · have hset : Slots (e.setClient i { c with reader := .removeChannel }) := h.setSame hc rfl rfl id
    exact hset.enqueue hstep
  · cases hstep
    have hremove : Slots (e.removeChannel c.realm) := h.of_same rfl rfl
    exact hremove.setSame hc rfl rfl id
  · cases hstep

theorem hasEnded_answerStage (rewrite : HttpRewriteConfig) (response : Bytes) :
    (answerStage rewrite response).hasEnded = false := by
  unfold answerStage
  split <;> rfl

theorem Slots.processWriter (h : Slots e) (hc : e.clients[i]? = some c)
    (hstep : e.processWriter i c = some e') : Slots e' := by
  unfold Engine.processWriter at hstep
  split at hstep
  · next hwriter =>
    have hdone := h.done hc (hwriter ▸ ProcessWriter.noConfusion)
    split at hstep
    · cases hstep
      exact h.setWriter hc rfl (hwriter ▸ rfl) rfl fun hne => absurd hdone hne
    · split at hstep
      · cases hstep
      · cases hstep
        exact h.leave hc rfl (hwriter ▸ rfl) rfl hdone
  · next rewrite response hwriter =>
    have hdone := h.done hc (hwriter ▸ ProcessWriter.noConfusion)
    split at hstep
    · cases hstep
      refine h.setWriter hc rfl (hwriter ▸ rfl) ?_ fun hne => absurd hdone hne
      dsimp only
      split
      · exact hasEnded_answerStage rewrite _
      · rfl
    · split at hstep
      · cases hstep
      · cases hstep
        exact h.setWriter hc rfl (hwriter ▸ rfl) (hasEnded_answerStage rewrite response)
          fun hne => absurd hdone hne
  · next hwriter =>
    have hdone := h.done hc (hwriter ▸ ProcessWriter.noConfusion)
    cases hstep
    have hremove : Slots (e.removeChannel c.realm) := h.of_same rfl rfl
    exact hremove.leave hc rfl (hwriter ▸ rfl) rfl hdone
  · cases hstep

theorem Slots.clientWrite {n : Nat} (h : Slots e) (hc : e.clients[i]? = some c)
    (hstep : e.clientWrite i n c = some e') : Slots e' := by
  unfold Engine.clientWrite at hstep
  split at hstep
  · next hwriter =>
    have hdone := h.done hc (hwriter ▸ ProcessWriter.noConfusion)
    split at hstep
    · cases hstep
      refine h.setWriter hc rfl (hwriter ▸ rfl) ?_ fun hne => absurd hdone hne
      dsimp only
      split <;> rfl
    · cases hstep
  · next hwriter =>
    have hdone := h.done hc (hwriter ▸ ProcessWriter.noConfusion)
    split at hstep
    · cases hstep
      refine h.setWriter hc rfl (hwriter ▸ rfl) ?_ fun hne => absurd hdone hne
      dsimp only
      split <;> rfl
    · cases hstep
  · cases hstep

theorem Slots.writeError (h : Slots e) (hc : e.clients[i]? = some c)
    (hstep : e.writeError i c = some e') : Slots e' := by
  unfold Engine.writeError at hstep
  split at hstep
  · next hwriter =>
    have hdone := h.done hc (hwriter ▸ ProcessWriter.noConfusion)
    cases hstep
    exact h.leave hc rfl (hwriter ▸ rfl) rfl hdone
  · next hwriter =>
    have hdone := h.done hc (hwriter ▸ ProcessWriter.noConfusion)
    cases hstep
    exact h.setWriter hc rfl (hwriter ▸ rfl) rfl fun hne => absurd hdone hne
  · cases hstep

/-- A change of one connection that its permit does not depend on. -/
theorem Slots.modify {f : Client → Client} (h : Slots e) (hservice : ∀ c, (f c).service = c.service)
    (hhandler : ∀ c, (f c).handler = c.handler) (hwriter : ∀ c, (f c).writer = c.writer) :
    Slots { e with clients := e.clients.modify i f } := by
  cases hc : e.clients[i]? with
  | none =>
    rw [List.modify_eq_self (List.getElem?_eq_none_iff.mp hc)]
    exact h
  | some c =>
    rw [modify_eq_set_of_getElem? hc]
    exact h.setSame hc (hservice c) (hwriter c) fun hne => hhandler c ▸ hne

theorem Slots.signalConn {realm : U32} {conn : ConnResult} (h : Slots e) :
    Slots (e.signalConn realm conn) := by
  unfold Engine.signalConn
  split
  · next i _ =>
    have hmodify : Slots { e with clients := e.clients.modify i fun c => { c with conn } } :=
      h.modify (fun _ => rfl) (fun _ => rfl) fun _ => rfl
    exact hmodify.of_same rfl rfl
  · exact h

theorem Slots.handlePacket {packet : PTCPPacket} {packets : List PTCPPacket} (h : Slots e) :
    Slots (e.handlePacket packet packets) := by
  have hnote : Slots (e.note (.handled packet)) := h.of_same rfl rfl
  unfold Engine.handlePacket
  split
  · split
    · exact hnote.signalConn.of_same rfl rfl
    · split <;> exact h.of_same rfl rfl
  · dsimp only
    split <;> exact h.of_same rfl rfl
  · exact h.of_same rfl rfl

theorem Slots.dhReaderStep {now : Instant} (h : Slots e) (hstep : e.dhReaderStep now = some e') :
    Slots e' := by
  unfold Engine.dhReaderStep at hstep
  split at hstep
  · cases hstep
  · cases hstep
    exact h.of_same rfl rfl
  · cases hstep
    exact h.of_same rfl rfl
  · cases hstep
    exact h.handlePacket
  · next i data packets _ =>
    cases hstep
    have hforward : Slots (e.forward i data) :=
      h.modify (fun c => c.send_service data) (fun c => c.send_handler data)
        fun c => c.send_writer data
    exact hforward.of_same rfl rfl
  · cases hstep
    exact h.signalConn.of_same rfl rfl
  · cases hstep
    exact h.of_same rfl rfl

theorem Slots.dhWriterRecv (h : Slots e) (hstep : e.dhWriterRecv = some e') : Slots e' := by
  unfold Engine.dhWriterRecv at hstep
  split at hstep
  · cases hstep
    exact h.of_same rfl rfl
  · cases hstep

theorem Slots.dhWriterSend {now : Instant} (h : Slots e) (hstep : e.dhWriterSend now = some e') :
    Slots e' := by
  unfold Engine.dhWriterSend at hstep
  split at hstep
  · cases hstep
    exact h.of_same rfl rfl
  · cases hstep

theorem Slots.receive {now : Instant} {packet : PTCPPacket} (h : Slots e)
    (hstep : receive config e now packet = some e') : Slots e' := by
  unfold Engine.receive at hstep
  split at hstep
  · cases hstep
    exact h.of_same rfl rfl
  · cases hstep

theorem Slots.step {event : Event} (h : Slots e) (hstep : step config e event = some e') :
    Slots e' := by
  unfold Engine.step at hstep
  split at hstep
  · cases hstep
  cases event with
  | accept service realm => exact h.accept hstep
  | handleClient i localAddress =>
    obtain ⟨c, hc, htask⟩ := clientStep_eq_some hstep
    exact h.handleClient hc htask
  | bindTimeout i =>
    obtain ⟨c, hc, htask⟩ := clientStep_eq_some hstep
    exact h.bindTimeout hc htask
  | clientRead i data =>
    obtain ⟨c, hc, htask⟩ := clientStep_eq_some hstep
    exact h.clientRead hc htask
  | clientClosed i =>
    obtain ⟨c, hc, htask⟩ := clientStep_eq_some hstep
    exact h.clientClosed hc htask
  | processReader i =>
    obtain ⟨c, hc, htask⟩ := clientStep_eq_some hstep
    exact h.processReader hc htask
  | processWriter i =>
    obtain ⟨c, hc, htask⟩ := clientStep_eq_some hstep
    exact h.processWriter hc htask
  | clientWrite i n =>
    obtain ⟨c, hc, htask⟩ := clientStep_eq_some hstep
    exact h.clientWrite hc htask
  | writeError i =>
    obtain ⟨c, hc, htask⟩ := clientStep_eq_some hstep
    exact h.writeError hc htask
  | heartbeat => exact h.enqueue hstep
  | dhWriterRecv => exact h.dhWriterRecv hstep
  | dhWriterSend now => exact h.dhWriterSend hstep
  | receive now packet => exact h.receive hstep
  | dhReader now => exact h.dhReaderStep hstep
  | retransmit now =>
    cases hstep
    exact h.of_same rfl rfl
  | socketError =>
    cases hstep
    exact h.of_same rfl rfl

end Slots

end DahuaBridge.Engine
