import NodeRank.Json.Printer
import NodeRank.Json.Record

/-! # Errors and log records

Why telemetry or scoring fails, in words, and the records that scoring writes on its way.
-/
namespace NodeRank

inductive TelemetryError where
  | disabled
  | notFound (node : String)
  | status (code : Nat)
  | timeout
  | transport (detail : String)
  | decode (detail : String)
deriving DecidableEq

def TelemetryError.message : TelemetryError → String
  | .disabled => "telemetry disabled"
  | .notFound node => "no metrics for node " ++ node
  | .status code => "metrics server responded with status " ++ toString code
  | .timeout => "metrics request timed out"
  | .transport detail => "metrics transport error: " ++ detail
  | .decode detail => "invalid metrics payload: " ++ detail

inductive ScoreError where
  | nodeNotFound (detail : String)
  | noResourcesConfigured
  | cancelled (node : String)
deriving DecidableEq

def ScoreError.message : ScoreError → String
  | .nodeNotFound detail => "node not found: " ++ detail
  | .noResourcesConfigured => "resources not found"
  | .cancelled node => "scheduling cycle cancelled while scoring node " ++ node

inductive Record where
  | scored (plugin node : String) (score : Int) (allocatable cost : NameMap Amount)
  | withoutCapacity (node : String)
  | usageUnknown (node : String) (cause : TelemetryError)
  | zeroCpuReading (node : String)
  | zeroMemoryReading (node : String)
deriving DecidableEq

namespace Record

/-- Whether the record is a warning; all others are informational. -/
def isWarning : Record → Bool
  | .withoutCapacity _ => true
  | _ => false

def message : Record → String
  | .scored .. => "Scored node"
  | .withoutCapacity _ =>
    "Node has no allocatable capacity for the configured resources, treating it as idle"
  | .usageUnknown .. => "Could not get node metrics from metrics server, using requests instead"
  | .zeroCpuReading _ => "Node CPU usage from metrics server is 0, using requests instead"
  | .zeroMemoryReading _ => "Node memory usage from metrics server is 0, using requests instead"

/-- Amounts by name as the text of a JSON object. -/
def amountsText (m : NameMap Amount) : String :=
  (Json.ofMap (fun x : Amount => .integer x.toInt) m).render

def fields : Record → List (String × Json)
  | .scored plugin node score allocatable cost => [
    ("plugin", .text plugin), ("node", .text node), ("score", .integer score),
    ("allocatable", .text (amountsText allocatable)), ("cost", .text (amountsText cost))]
  | .withoutCapacity node => [("node", .text node)]
  | .usageUnknown node cause => [("node", .text node), ("error", .text cause.message)]
  | .zeroCpuReading node => [("node", .text node)]
  | .zeroMemoryReading node => [("node", .text node)]

end Record

/-- What a call comes to, the records that it writes, and the nodes whose usage it asks for. -/
structure Outcome (α : Type) where
  result : α
  log : List Record
  asked : List String

namespace Outcome
variable {α β : Type}

def pure (result : α) : Outcome α := ⟨result,[],[]⟩

/-- Goes on with the result, after what has been written and asked so far. -/
def andThen (o : Outcome α) (f : α → Outcome β) : Outcome β :=
  let next := f o.result
  ⟨next.result,o.log ++ next.log,o.asked ++ next.asked⟩

end Outcome
end NodeRank
