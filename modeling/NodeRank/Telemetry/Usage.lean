import NodeRank.Cluster.Pod

/-! # Node usage

What telemetry reports of a node: a document with the quantities in use, of which the processor
time and the memory count.
-/
namespace NodeRank

/-- Measured usage of a node, in thousandths of a processor and bytes. -/
structure Usage where
  cpuMillis : Amount
  memoryBytes : Amount
deriving DecidableEq

structure NodeMetrics where
  name : String
  createdAt : Option Timestamp
  timestamp : Option Timestamp
  window : Option String
  usage : ResourceList
deriving DecidableEq

namespace NodeMetrics

/-- The reading of the document; what it does not mention is zero. -/
def reading (m : NodeMetrics) : Usage where
  cpuMillis := ((m.usage.get? ResourceName.cpu).map Quantity.milliValue).getD 0
  memoryBytes := ((m.usage.get? ResourceName.memory).map Quantity.value).getD 0

def metadataOfJson? (j : Json) : Option (String × Option Timestamp) := do
  let f ← Json.Fields.ofJson? ["name", "creationTimestamp"] j
  let name ← f.required "name" Json.string?
  let createdAt ← f.orElse "creationTimestamp" (Json.Fields.nullable Timestamp.ofJson?) none
  some (name, createdAt)

def ofJson? (j : Json) : Option NodeMetrics := do
  let f ← Json.Fields.ofJson? ["metadata", "timestamp", "window", "usage"] j
  let (name, createdAt) ← f.required "metadata" metadataOfJson?
  let timestamp ← f.optional "timestamp" Timestamp.ofJson?
  let window ← f.optional "window" Json.string?
  let usage ← f.required "usage" Resources.listOfJson?
  some { name, createdAt, timestamp, window, usage }

def toJson (m : NodeMetrics) : Json :=
  .record [
    ("metadata", .record [
      ("name", .text m.name), ("creationTimestamp", .ofOption Timestamp.toJson m.createdAt)]),
    ("timestamp", .ofOption Timestamp.toJson m.timestamp),
    ("window", .ofOption .text m.window),
    ("usage", Resources.listToJson m.usage)]

end NodeMetrics
end NodeRank
