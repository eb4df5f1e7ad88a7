import NodeRank.Telemetry.Wait
import NodeRank.Text.Integer

/-! # Telemetry settings

Where the metrics server is, what authorises the questions to it, and how long to wait for an
answer, as far as the environment says so.
-/
namespace NodeRank

structure Endpoint where
  serverUrl : String
  token : Option String
  timeout : Nat
deriving DecidableEq

namespace Endpoint

def standardUrl : String := "https://kubernetes.default.svc"

def standard : Endpoint := ⟨standardUrl,none,Telemetry.defaultTimeout⟩

/-- A number of milliseconds: digits behind at most a plus sign, of 64 bits at most. -/
def milliseconds? (s : String) : Option Nat :=
  let digits := match s.toList with
    | '+' :: rest => rest
    | cs => cs
  (Text.nat? 10 digits).filter (· ≤ 18446744073709551615)

/-- The settings in an environment. An empty token counts as none, and a timeout that is no number
as not given. -/
def ofEnvironment (env : String → Option String) : Endpoint where
  serverUrl := (env "METRICS_SERVER_URL").getD standardUrl
  token := (env "METRICS_SERVER_TOKEN").filter (· ≠ "")
  timeout := ((env "METRICS_TIMEOUT_MS").bind milliseconds?).getD Telemetry.defaultTimeout

end Endpoint
end NodeRank
