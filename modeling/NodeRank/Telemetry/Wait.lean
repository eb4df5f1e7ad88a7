import NodeRank.Telemetry.Record
import NodeRank.Telemetry.Usage

/-! # Waiting for telemetry

A question about a node's usage ends with the first of three events: the answer, the timeout, or
the cancellation of the cycle. Only cancellation is an error to the caller; without a reading the
caller goes on with requests.
-/
namespace NodeRank

/-- What the source of telemetry answers, and after how many milliseconds; zero is at once. -/
structure Answer where
  result : Except TelemetryError Usage
  delay : Nat

/-- When a cycle is cancelled, seen from the start of a call. -/
inductive Cancellation where
  | never
  | beforehand
  | after (milliseconds : Nat)
deriving DecidableEq

namespace Cancellation

def isBeforehand : Cancellation → Bool
  | .beforehand => true
  | _ => false

/-- Whether a poll at a moment of the call sees the cancellation. The call begins with a poll, and
that one sees only what is cancelled beforehand. -/
def isSeenAt (moment : Nat) : Cancellation → Bool
  | .never => false
  | .beforehand => true
  | .after t => 0 < moment && t ≤ moment

end Cancellation

inductive WaitEnd where
  | cancelled
  | answered
  | timedOut
deriving DecidableEq

/-- The first event of a wait. A poll looks for the cancellation first, for the answer next and for
the timeout last, which decides between events that fall on one moment. -/
def firstEvent (delay timeout : Nat) (c : Cancellation) : WaitEnd :=
  if c.isSeenAt (min delay timeout) then .cancelled
  else if delay ≤ timeout then .answered
  else .timedOut

/-- A source of telemetry, and how many milliseconds to wait for it. -/
structure Telemetry where
  answer : String → Answer
  timeout : Nat

namespace Telemetry

def defaultTimeout : Nat := 1000

/-- No telemetry: every question is answered at once by saying so. -/
def off : Telemetry := ⟨fun _ => ⟨.error .disabled,0⟩,defaultTimeout⟩

/-- The reading in an answer; the lack of one is recorded, unless telemetry is switched off. -/
def reading (node : String) : Except TelemetryError Usage → Option Usage × List Record
  | .ok u => (some u, [])
  | .error .disabled => (none, [])
  | .error e => (none, [.usageUnknown node e])

def usage (t : Telemetry) (node : String) (c : Cancellation) :
    Outcome (Except ScoreError (Option Usage)) :=
  let answer := t.answer node
  let asked := if c.isBeforehand then [] else [node]
  match firstEvent answer.delay t.timeout c with
  | .cancelled => ⟨.error (.cancelled node),[],asked⟩
  | .answered => ⟨.ok (reading node answer.result).1,(reading node answer.result).2,asked⟩
  | .timedOut => ⟨.ok none,(reading node (.error .timeout)).2,asked⟩

end Telemetry
end NodeRank
