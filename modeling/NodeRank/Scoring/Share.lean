import NodeRank.Cluster.NodeState
import NodeRank.Telemetry.Wait

/-! # Shares

How much of a resource a node has and how much of that is in use. Requests of the bound pods stand
for the use, except where telemetry reports processor time or memory that is not zero.
-/
namespace NodeRank

/-- What a node has of a resource, and what is in use of it. -/
structure Share where
  allocatable : Amount
  cost : Amount
deriving DecidableEq

namespace NodeState

/-- The share by requests; a resource that a node cannot have counts as nothing. -/
def requestedShare (s : NodeState) (name : String) : Share :=
  if name = ResourceName.cpu then ⟨s.allocatable.milliCpu,s.defaulted.milliCpu⟩
  else if name = ResourceName.memory then ⟨s.allocatable.memory,s.defaulted.memory⟩
  else if name = ResourceName.pods then ⟨s.allocatable.pods,.ofInt 63 s.pods.length⟩
  else if name = ResourceName.ephemeralStorage then
    ⟨s.allocatable.ephemeralStorage,s.requested.ephemeralStorage⟩
  else if ResourceName.isScalar name then ⟨s.allocatable.scalar name,s.requested.scalar name⟩
  else ⟨0,0⟩

/-- The share of a reading, where there is one to be trusted. -/
def readingShare? (s : NodeState) (name : String) (usage : Option Usage) : Option Share :=
  match usage with
  | none => none
  | some u =>
    if name = ResourceName.cpu ∧ u.cpuMillis ≠ 0 then some ⟨s.allocatable.milliCpu,u.cpuMillis⟩
    else if name = ResourceName.memory ∧ u.memoryBytes ≠ 0 then
      some ⟨s.allocatable.memory,u.memoryBytes⟩
    else none

def share (s : NodeState) (name : String) (usage : Option Usage) : Share :=
  (s.readingShare? name usage).getD (s.requestedShare name)

/-- What is recorded when a reading of zero is not trusted. -/
def shareLog (s : NodeState) (name : String) (usage : Option Usage) : List Record :=
  match usage with
  | none => []
  | some u =>
    if name = ResourceName.cpu ∧ u.cpuMillis = 0 then [.zeroCpuReading s.nodeName]
    else if name = ResourceName.memory ∧ u.memoryBytes = 0 then [.zeroMemoryReading s.nodeName]
    else []

end NodeState

namespace Telemetry

/-- The usage of the node of a state, asked for only if it can matter. -/
def usageIf (t : Telemetry) (needed : Bool) (s : NodeState) (c : Cancellation) :
    Outcome (Except ScoreError (Option Usage)) :=
  match s.node with
  | some n => if needed then t.usage n.name c else .pure (.ok none)
  | none => .pure (.ok none)

/-- The share of one resource, with telemetry where it can report the resource. -/
def share (t : Telemetry) (s : NodeState) (name : String) (c : Cancellation) :
    Outcome (Except ScoreError Share) :=
  if c.isBeforehand then .pure (.error (.cancelled s.nodeName))
  else (t.usageIf (ResourceName.isMeasurable name) s c).andThen fun
    | .error e => .pure (.error e)
    | .ok usage => ⟨.ok (s.share name usage),s.shareLog name usage,[]⟩

end Telemetry
end NodeRank
