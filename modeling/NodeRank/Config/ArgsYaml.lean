import NodeRank.Config.Args
import NodeRank.Yaml.Value

/-! # Plugin arguments in YAML

The same record as in JSON, with the scalars of YAML. A text without any document is a record
without fields.
-/
namespace NodeRank

namespace WeightSpec

def ofYaml? (d : Yaml.Document) (n : Yaml.Node) : Option WeightSpec := do
  let fields ← d.record? n
  let name ← (← Yaml.field? "name" fields).bind Yaml.Node.text?
  let weight ← (← Yaml.field? "weight" fields).bind Yaml.Node.amount?
  some { name, weight }

end WeightSpec

namespace Args

/-- A policy is named by a scalar or by its tag; null is none. -/
def modeOfYaml? (n : Yaml.Node) : Option (Option Policy) := do
  if ← n.isMissing? then some none
  else (Policy.ofName? (← n.caseName?)).map some

/-- A field with a value of its own where it is left out. -/
def orElse {α : Type} (default : α) (read : Yaml.Node → Option α) : Option Yaml.Node → Option α
  | none => some default
  | some n => read n

def ofYaml? (d : Yaml.Document) : Option Args := do
  let fields ← match d.root with
    | none => some []
    | some n => d.record? n
  let mode ← orElse none modeOfYaml? (← Yaml.field? "mode" fields)
  let resources ← orElse [] (fun n => do (← d.list? n).mapM (WeightSpec.ofYaml? d))
    (← Yaml.field? "resources" fields)
  let metricsEnabled ← orElse false Yaml.Node.bool? (← Yaml.field? "metricsEnabled" fields)
  some { mode, resources, metricsEnabled }

def parseYaml (s : String) : Except ConfigError Args :=
  match (Yaml.Document.parse? s).bind ofYaml? with
  | some a => .ok a
  | none => .error .unreadable

end Args
end NodeRank
