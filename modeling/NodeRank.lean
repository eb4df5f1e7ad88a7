import NodeRank.Config.Args
import NodeRank.Config.ArgsYaml
import NodeRank.Config.Endpoint
import NodeRank.Json.Parser
import NodeRank.Json.Printer
import NodeRank.Scoring.Ranker
import NodeRank.Telemetry.Server
import NodeRank.Proofs.Capped.Sum
import NodeRank.Proofs.Resource.Dimension
import NodeRank.Proofs.Scoring.Floor
import NodeRank.Proofs.Scoring.Uncancelled
import NodeRank.Proofs.Scoring.WeightedSum
import NodeRank.Proofs.Scoring.Exact
import NodeRank.Proofs.Cluster.History
import NodeRank.Proofs.Scoring.Complement
import NodeRank.Proofs.Cluster.Totals
import NodeRank.Proofs.Scoring.View
import NodeRank.Proofs.Cluster.BindOrder
import NodeRank.Proofs.Scoring.Reading
import NodeRank.Proofs.Text.ByteOrder
import NodeRank.Proofs.Scoring.Ranking
import NodeRank.Proofs.Scoring.Load
import NodeRank.Proofs.Quantity.Grammar
import NodeRank.Proofs.Text.Cut
import NodeRank.Proofs.Quantity.Exact
import NodeRank.Proofs.Quantity.Amount
import NodeRank.Proofs.Quantity.Order
import NodeRank.Proofs.Quantity.Negative
import NodeRank.Proofs.Quantity.OwnText
import NodeRank.Proofs.Scoring.Cancelled
import NodeRank.Proofs.Quantity.Range
import NodeRank.Proofs.Json.Record
import NodeRank.Proofs.Uuid
import NodeRank.Proofs.Timestamp
import NodeRank.Proofs.Json.Text
import NodeRank.Proofs.ReadBack
import NodeRank.Proofs.Telemetry.Payload
import NodeRank.Proofs.Cluster.Notation
import NodeRank.Proofs.Scoring.Utilization
import NodeRank.Proofs.Scoring.Mediant
import NodeRank.Proofs.Scoring.WeightTable
import NodeRank.Proofs.Scoring.Neutral
import NodeRank.Proofs.Resource.List
import NodeRank.Proofs.Resource.Name
import NodeRank.Proofs.Scoring.Capacity
import NodeRank.Proofs.Cluster.Defaults
import NodeRank.Proofs.Telemetry.FirstEvent
import NodeRank.Proofs.Scoring.SharedQuery
import NodeRank.Proofs.Http.PlainName
import NodeRank.Proofs.Telemetry.Request
