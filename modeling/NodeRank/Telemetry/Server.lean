import NodeRank.Config.Endpoint
import NodeRank.Http.Target
import NodeRank.Json.Parser

/-! # The metrics server

One request asks for the usage of one node, and the reply is a reading or the reason why there is
none.
-/
namespace NodeRank

structure MetricsRequest where
  target : String
  authorization : Option String
deriving DecidableEq

inductive MetricsReply where
  | answered (status : Nat) (body : String)
  | dropped
  | silent
deriving DecidableEq

/-- The path below which the server keeps the measurements of nodes. -/
def nodeMetricsPath : String := "/apis/metrics.k8s.io/v1beta1/nodes"

namespace MetricsReply

def reading (node : String) : MetricsReply → Except TelemetryError Usage
  | .dropped => .error (.transport "connection closed")
  | .silent => .error .timeout
  | .answered status body =>
    if status / 100 = 2 then
      match (Json.parse? body).bind NodeMetrics.ofJson? with
      | some m => .ok m.reading
      | none => .error (.decode "no measurement of a node")
    else if status = 404 then .error (.notFound node)
    else .error (.status status)

end MetricsReply

namespace Endpoint

/-- The URL of the server without the slashes at its end. -/
def baseUrl (e : Endpoint) : List Char := (e.serverUrl.toList.reverse.dropWhile (· == '/')).reverse

def nodeUrl (e : Endpoint) (node : String) : String :=
  String.ofList (e.baseUrl ++ nodeMetricsPath.toList ++ '/' :: node.toList)

def isHeaderChar (c : Char) : Bool := c == '\t' || (0x20 ≤ c.toNat && c.toNat != 0x7F)

/-- The header of a token. Blanks at the end of a header do not count. -/
def authorization? (token : String) : Option String :=
  if token.toList.all isHeaderChar then
    let blank (c : Char) : Bool := c == ' ' || c == '\t'
    some (String.ofList ((("Bearer " ++ token).toList.reverse.dropWhile blank).reverse))
  else none

/-- The request for the usage of a node, if the URL names a server and the token can be sent. -/
def request? (e : Endpoint) (node : String) : Option MetricsRequest := do
  let target ← Http.target? (e.nodeUrl node)
  match e.token with
  | none => some ⟨target,none⟩
  | some token => (authorization? token).map (⟨target,some ·⟩)

def usage (e : Endpoint) (server : MetricsRequest → MetricsReply) (node : String) :
    Except TelemetryError Usage :=
  match e.request? node with
  | none => .error (.transport "no request")
  | some r => (server r).reading node

def telemetry (e : Endpoint) (server : MetricsRequest → MetricsReply) : Telemetry :=
  ⟨fun node => ⟨e.usage server node,0⟩,e.timeout⟩

end Endpoint
end NodeRank
