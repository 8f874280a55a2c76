import DahuaBridge.Lib.Run
import DahuaBridge.Ptcp.Receive

/-!
# A receiving session over time

Calls of `recv` with what an observer notes down beside the session: what was returned,
how far the receive offset has moved, and when. No code reads these notes.

The receive offset is a wrapped counter. An observer who sees every call unwraps it by
adding up the signed differences of the counter (`moved`), so that a step back would
show as a negative one.
-/

namespace DahuaBridge

open PTCPSession

theorem gapTimeout_pos (millis : Option Nat) : 0 < gapTimeout millis := by
  have hleast : 250 ≤ (millis.filter (250 ≤ ·)).getD 2000 := by
    cases hfilter : millis.filter (250 ≤ ·) with
    | none => decide
    | some n => simpa using (Option.filter_eq_some_iff.mp hfilter).2
  exact Nat.mul_pos (Nat.lt_of_lt_of_le (by decide) hleast) (by decide)

instance (s : PTCPSession) (packet : PTCPPacket) : Decidable (s.IsAhead packet) := by
  unfold IsAhead
  infer_instance

structure Receiver where
  session : PTCPSession
  /-- All that `recv` has returned. -/
  delivered : List PTCPPacket := []
  /-- How far the receive offset has moved. -/
  moved : Int := 0
  /-- The instant of the last call. -/
  clock : Instant
  /-- Since when the receive offset has had its value. -/
  since : Instant
  /-- The first call that found its packet beyond a gap. -/
  firstGap : Option Instant := none
  /-- The last call that moved the receive offset and left packets in the buffer, if the
  buffer has not been empty since. -/
  partialDrain : Option Instant := none

/-- A packet and the instant at which `recv` gets it. -/
abbrev Delivery := PTCPPacket × Instant

namespace Receiver

def start (s : PTCPSession) (now : Instant) : Receiver where
  session := s
  clock := now
  since := now

/-- The notes after a call of `recv` that has returned `ready` and left `s`. -/
def note (r : Receiver) (d : Delivery) (ready : List PTCPPacket) (s : PTCPSession) : Receiver where
  session := s
  delivered := r.delivered ++ ready
  moved := r.moved + (s.recv - r.session.recv).toInt
  clock := d.2
  since := if s.recv = r.session.recv then r.since else d.2
  firstGap := r.firstGap <|> if r.session.IsAhead d.1 then some d.2 else none
  partialDrain :=
    if s.pending.entries.isEmpty then none
    else if s.recv = r.session.recv then r.partialDrain
    else some d.2

/-- A call of `recv`. -/
def step (timeout : Duration) (r : Receiver) (d : Delivery) : Option Receiver :=
  let (ready, s) := r.session.recvPacket timeout d.2 d.1
  some (r.note d ready s)

/-- The clock does not go back. -/
def InOrder (r : Receiver) (d : Delivery) : Prop := r.clock ≤ d.2

instance (r : Receiver) (d : Delivery) : Decidable (r.InOrder d) :=
  inferInstanceAs (Decidable (r.clock ≤ d.2))

variable {timeout : Duration} {r r' : Receiver} {d : Delivery}

theorem step_eq_some (h : r.step timeout d = some r') :
    ∃ ready s, r.session.recvPacket timeout d.2 d.1 = (ready, s) ∧ r' = r.note d ready s :=
  ⟨_, _, rfl, (Option.some.inj h).symm⟩

/-- The gap policy is not changed by `recv`. -/
theorem allowGapSkip_step (h : r.step timeout d = some r') :
    r'.session.allowGapSkip = r.session.allowGapSkip := by
  obtain ⟨ready, s, hrecv, rfl⟩ := step_eq_some h
  exact (recvPacket_sameSender hrecv).allowGapSkip

end Receiver

end DahuaBridge
