import NodeRank.NameMap
import NodeRank.Resource.Name
import NodeRank.Capped

/-! # Weights

The table of weights by resource. A list of specifications replaces the usual table unless it is
empty; an entry of weight zero takes its resource out of the score.
-/
namespace NodeRank

inductive ConfigError where
  | invalidMode (text : String)
  | emptyResourceName
  | negativeWeight (name : String) (weight : Amount)
  | duplicateResource (name : String)
  | noResources
  | unreadable
deriving DecidableEq

def ConfigError.message : ConfigError → String
  | .invalidMode text => "invalid mode, got " ++ text
  | .emptyResourceName => "resource name must not be empty"
  | .negativeWeight name weight =>
    "resource weight of " ++ name ++ " should be a non-negative value, got " ++ toString weight
  | .duplicateResource name => "resource " ++ name ++ " is configured more than once"
  | .noResources => "no resources left to score, every configured weight is zero"
  | .unreadable => "failed to parse plugin args"

structure WeightSpec where
  name : String
  weight : Amount
deriving DecidableEq

abbrev Weights := NameMap Amount

namespace Weights

/-- One millicore counts as much as a mebibyte. -/
def standard : Weights :=
  .ofList [(ResourceName.memory, 1), (ResourceName.cpu, .ofInt 63 1048576), (ResourceName.pods, 1)]

/-- What is wrong with an entry that follows entries of the given names. -/
def fault? (seen : List String) (spec : WeightSpec) : Option ConfigError :=
  if spec.name = "" then some .emptyResourceName
  else if spec.weight < 0 then some (.negativeWeight spec.name spec.weight)
  else if spec.name ∈ seen then some (.duplicateResource spec.name)
  else none

/-- Takes entries up one by one. Every name counts as seen, only positive weights are kept. -/
def collect (seen : List String) (table : Weights) : List WeightSpec → Except ConfigError Weights
  | [] => if table.isEmpty then .error .noResources else .ok table
  | spec :: rest =>
    match fault? seen spec with
    | some e => .error e
    | none =>
      collect (spec.name :: seen)
        (if spec.weight = 0 then table else table.insert spec.name spec.weight) rest

def ofSpecs (specs : List WeightSpec) : Except ConfigError Weights :=
  if specs.isEmpty then .ok standard else collect [] ∅ specs

end Weights
end NodeRank
