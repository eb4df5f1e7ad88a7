import NodeRank.Cluster.Node
import NodeRank.Timestamp
import NodeRank.Uuid

/-! # Pods

A pod asks for what its containers ask for and for its own overhead. A container that asks for no
processor time or no memory is taken to need a little of each all the same, so that no pod is free.
-/
namespace NodeRank

/-- What a container asks for, and what it may not exceed. -/
structure ResourceNeeds where
  requests : ResourceList
  limits : ResourceList
deriving DecidableEq

def ResourceNeeds.empty : ResourceNeeds := ⟨∅,∅⟩

structure Container where
  name : String
  image : String
  resources : ResourceNeeds
deriving DecidableEq

structure Pod where
  id : Uuid
  name : String
  createdAt : Timestamp
  nodeName : String
  containers : List Container
  overhead : ResourceList
deriving DecidableEq

/-- Thousandths of a processor that a container counts for when it asks for none. -/
def defaultMilliCpu : Amount := 100

/-- Bytes of memory that a container counts for when it asks for none. -/
def defaultMemory : Amount := .ofInt 63 (200 * 1024 * 1024)

namespace Container

def requests (c : Container) : Resources := .ofList c.resources.requests

/-- The amount of a request, or a default if the container does not ask for any. -/
def orDefault (c : Container) (name : String) (amount : Quantity → Amount) (default : Amount) :
    Amount :=
  let asked := ((c.resources.requests.get? name).map amount).getD 0
  if asked = 0 then default else asked

def defaultedRequests (c : Container) : Resources :=
  { c.requests with
    milliCpu := c.orDefault ResourceName.cpu Quantity.milliValue defaultMilliCpu
    memory := c.orDefault ResourceName.memory Quantity.value defaultMemory }

/-- A container of which nothing is known but what it asks for. -/
def requesting (requests : ResourceList) : Container :=
  ⟨"container","image",⟨requests,∅⟩⟩

end Container

namespace Pod

/-- What the pod asks for: the sum over its containers, and its overhead. -/
def requests (p : Pod) : Resources :=
  p.containers.foldl (fun total c => total + c.requests) .zero + .ofList p.overhead

/-- What the pod counts for: as `requests`, with the defaults put in container by container. -/
def defaultedRequests (p : Pod) : Resources :=
  p.containers.foldl (fun total c => total + c.defaultedRequests) .zero + .ofList p.overhead

end Pod

/-! ### JSON -/

namespace Uuid

def ofJson? (j : Json) : Option Uuid := j.string?.bind parse?

def toJson (u : Uuid) : Json := .text u.render

end Uuid

namespace Timestamp

def ofJson? (j : Json) : Option Timestamp := j.string?.bind parse?

def toJson (t : Timestamp) : Json := .text t.render

end Timestamp

namespace ResourceNeeds

def ofJson? (j : Json) : Option ResourceNeeds := do
  let f ← Json.Fields.ofJson? ["requests", "limits"] j
  let requests ← f.orElse "requests" Resources.listOfJson? ∅
  let limits ← f.orElse "limits" Resources.listOfJson? ∅
  some { requests, limits }

def toJson (r : ResourceNeeds) : Json :=
  .record [("requests", Resources.listToJson r.requests), ("limits", Resources.listToJson r.limits)]

end ResourceNeeds

namespace Container

def ofJson? (j : Json) : Option Container := do
  let f ← Json.Fields.ofJson? ["name", "image", "resources"] j
  let name ← f.required "name" Json.string?
  let image ← f.required "image" Json.string?
  let resources ← f.orElse "resources" ResourceNeeds.ofJson? .empty
  some { name, image, resources }

def toJson (c : Container) : Json :=
  .record [("name", .text c.name), ("image", .text c.image), ("resources", c.resources.toJson)]

end Container

namespace Pod

/-- The part of a pod that tells it apart from others. -/
def metadataOfJson? (j : Json) : Option (Uuid × String × Timestamp) := do
  let f ← Json.Fields.ofJson? ["id", "name", "creationTimestamp"] j
  let id ← f.required "id" Uuid.ofJson?
  let name ← f.required "name" Json.string?
  let createdAt ← f.required "creationTimestamp" Timestamp.ofJson?
  some (id, name, createdAt)

/-- The part of a pod that says where it runs and what it needs. -/
def specOfJson? (j : Json) : Option (String × List Container × ResourceList) := do
  let f ← Json.Fields.ofJson? ["nodeName", "containers", "overhead"] j
  let nodeName ← f.orElse "nodeName" Json.string? ""
  let containers ← f.required "containers" (Json.list? Container.ofJson?)
  let overhead ← f.orElse "overhead" Resources.listOfJson? ∅
  some (nodeName, containers, overhead)

def ofJson? (j : Json) : Option Pod := do
  let f ← Json.Fields.ofJson? ["metadata", "spec"] j
  let (id, name, createdAt) ← f.required "metadata" metadataOfJson?
  let (nodeName, containers, overhead) ← f.required "spec" specOfJson?
  some { id, name, createdAt, nodeName, containers, overhead }

def toJson (p : Pod) : Json :=
  .record [
    ("metadata", .record [
      ("id", p.id.toJson), ("name", .text p.name), ("creationTimestamp", p.createdAt.toJson)]),
    ("spec", .record [
      ("nodeName", .text p.nodeName),
      ("containers", .array (p.containers.map Container.toJson)),
      ("overhead", Resources.listToJson p.overhead)])]

end Pod
end NodeRank
