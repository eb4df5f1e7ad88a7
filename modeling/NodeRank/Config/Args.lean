import NodeRank.Json.Parser
import NodeRank.Json.Record
import NodeRank.Scoring.Policy
import NodeRank.Scoring.Weights

/-! # Plugin arguments

The policy, the weights and whether to ask telemetry. Each of them may be left out.
-/
namespace NodeRank

namespace Policy

/-- A policy in JSON is its name, or an object with its name for the only key and nothing in it. -/
def ofJson? : Json → Option Policy
  | .string (some name) => ofName? name
  | .object [(some name, .null)] => ofName? name
  | _ => none

def toJson (p : Policy) : Json := .text p.name

end Policy

namespace WeightSpec

def ofJson? (j : Json) : Option WeightSpec := do
  let f ← Json.Fields.ofJson? ["name", "weight"] j
  let name ← f.required "name" Json.string?
  let weight ← f.required "weight" Json.amount?
  some { name, weight }

def toJson (s : WeightSpec) : Json :=
  .record [("name", .text s.name), ("weight", .integer s.weight.toInt)]

end WeightSpec

/-- What the configuration of a scheduler says about the ranking of nodes. -/
structure Args where
  mode : Option Policy
  resources : List WeightSpec
  metricsEnabled : Bool
deriving DecidableEq

namespace Args

def standard : Args := ⟨none,[],false⟩

/-- The policy that holds, whether it is said or not. -/
def policy (a : Args) : Policy := a.mode.getD .least

def ofJson? (j : Json) : Option Args := do
  let f ← Json.Fields.ofJson? ["mode", "resources", "metricsEnabled"] j
  let mode ← f.orElse "mode" (Json.Fields.nullable Policy.ofJson?) none
  let resources ← f.orElse "resources" (Json.list? WeightSpec.ofJson?) []
  let metricsEnabled ← f.orElse "metricsEnabled" Json.bool? false
  some { mode, resources, metricsEnabled }

def toJson (a : Args) : Json :=
  .record [
    ("mode", .ofOption Policy.toJson a.mode),
    ("resources", .array (a.resources.map WeightSpec.toJson)),
    ("metricsEnabled", .bool a.metricsEnabled)]

def parseJson (s : String) : Except ConfigError Args :=
  match (Json.parse? s).bind ofJson? with
  | some a => .ok a
  | none => .error .unreadable

end Args

def Policy.parse (s : String) : Except ConfigError Policy :=
  match ofName? s with
  | some p => .ok p
  | none => .error (.invalidMode s)

end NodeRank
