import NodeRank.Json.Record
import NodeRank.Quantity.Parser
import NodeRank.Resource.Basic

/-! # Nodes

A node offers its capacity less what the system keeps for itself.
-/
namespace NodeRank

namespace Quantity

/-- A quantity in JSON is the string that it is written as. -/
def ofJson? (j : Json) : Option Quantity := j.string?.bind parse?

def toJson (q : Quantity) : Json := .text q.text

end Quantity

namespace Resources

def listOfJson? : Json → Option ResourceList := Json.map? Quantity.ofJson?

def listToJson : ResourceList → Json := Json.ofMap Quantity.toJson

def fieldNames : List String :=
  ["milli_cpu", "memory", "ephemeral_storage", "allowed_pod_number", "scalar_resources"]

def ofJson? (j : Json) : Option Resources := do
  let f ← Json.Fields.ofJson? fieldNames j
  let milliCpu ← f.required "milli_cpu" Json.amount?
  let memory ← f.required "memory" Json.amount?
  let ephemeralStorage ← f.required "ephemeral_storage" Json.amount?
  let pods ← f.required "allowed_pod_number" Json.amount?
  let scalars ← f.required "scalar_resources" (Json.map? Json.amount?)
  some { milliCpu, memory, ephemeralStorage, pods, scalars }

def toJson (r : Resources) : Json :=
  .record [
    ("milli_cpu", .integer r.milliCpu.toInt),
    ("memory", .integer r.memory.toInt),
    ("ephemeral_storage", .integer r.ephemeralStorage.toInt),
    ("allowed_pod_number", .integer r.pods.toInt),
    ("scalar_resources", Json.ofMap (fun (x : Amount) => .integer x.toInt) r.scalars)]

end Resources

/-- A node with its resources and what the system keeps of them. -/
structure Node where
  name : String
  capacity : ResourceList
  reserved : ResourceList
deriving DecidableEq

namespace Node

def allocatable (n : Node) : Resources := (Resources.ofList n.capacity).less (.ofList n.reserved)

def fieldNames : List String := ["name", "capacity", "systemReserved"]

def ofJson? (j : Json) : Option Node := do
  let f ← Json.Fields.ofJson? fieldNames j
  let name ← f.required "name" Json.string?
  let capacity ← f.required "capacity" Resources.listOfJson?
  let reserved ← f.orElse "systemReserved" Resources.listOfJson? ∅
  some { name, capacity, reserved }

def toJson (n : Node) : Json :=
  .record [
    ("name", .text n.name),
    ("capacity", Resources.listToJson n.capacity),
    ("systemReserved", Resources.listToJson n.reserved)]

end Node
end NodeRank
