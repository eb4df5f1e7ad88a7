import NodeRank.Scoring.Policy
import NodeRank.Scoring.Share
import NodeRank.Scoring.Weights

/-! # Scoring a node

The shares of all resources of the weight table are weighed into one capacity and one cost, of
which the policy makes the score. Telemetry is asked once at most.
-/
namespace NodeRank

structure Tally where
  allocatable : Total
  cost : Total
deriving DecidableEq

namespace Tally

def zero : Tally := ⟨0,0⟩

/-- Adds a weighted share; weights that are not positive count for nothing. -/
def add (t : Tally) (weight : Amount) (share : Share) : Tally :=
  if 0 < weight then
    ⟨t.allocatable + share.allocatable.times weight,t.cost + share.cost.times weight⟩
  else t

/-- The weighted sum over a table, in the order of its names. -/
def ofTable (weights : Weights) (share : String → Share) : Tally :=
  weights.toList.foldl (fun t e => t.add e.2 (share e.1)) zero

end Tally

structure Scorer where
  name : String
  policy : Policy
  weights : Weights
  telemetry : Telemetry

namespace Scorer

def needsUsage (s : Scorer) : Bool := s.weights.toList.any fun e => ResourceName.isMeasurable e.1

def scoreWith (s : Scorer) (state : NodeState) (usage : Option Usage) : Int :=
  let tally := Tally.ofTable s.weights (state.share · usage)
  s.policy.score tally.cost tally.allocatable

def logWith (s : Scorer) (state : NodeState) (usage : Option Usage) : List Record :=
  let share := (state.share · usage)
  let tally := Tally.ofTable s.weights share
  s.weights.toList.flatMap (fun e => state.shareLog e.1 usage) ++
  (if tally.allocatable ≤ 0 then [.withoutCapacity state.nodeName] else []) ++
  [.scored s.name state.nodeName (s.scoreWith state usage)
    (s.weights.mapEntries fun name _ => (share name).allocatable)
    (s.weights.mapEntries fun name _ => (share name).cost)]

def score (s : Scorer) (state : NodeState) (c : Cancellation) : Outcome (Except ScoreError Int) :=
  if state.node.isNone then .pure (.error (.nodeNotFound "snapshot carries no node"))
  else if c.isBeforehand then .pure (.error (.cancelled state.nodeName))
  else if s.weights.isEmpty then .pure (.error .noResourcesConfigured)
  else (s.telemetry.usageIf s.needsUsage state c).andThen fun
    | .error e => .pure (.error e)
    | .ok usage => ⟨.ok (s.scoreWith state usage),s.logWith state usage,[]⟩

end Scorer
end NodeRank
