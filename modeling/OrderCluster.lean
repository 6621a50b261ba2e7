import OrderCluster.Catalog.Basic
import OrderCluster.Catalog.Choice
import OrderCluster.Catalog.Overridden
import OrderCluster.Catalog.Remote
import OrderCluster.Catalog.Stock
import OrderCluster.CommandLine
import OrderCluster.Config.Basic
import OrderCluster.Config.Reading
import OrderCluster.Config.Setup
import OrderCluster.Coordinator
import OrderCluster.Counter
import OrderCluster.Double
import OrderCluster.Duration
import OrderCluster.Failure
import OrderCluster.Fleet
import OrderCluster.Http.Client
import OrderCluster.Http.Framing
import OrderCluster.Http.MediaType
import OrderCluster.Http.Message
import OrderCluster.Http.Network
import OrderCluster.Http.Openapi
import OrderCluster.Http.Route
import OrderCluster.Http.Server
import OrderCluster.Json.Bytes
import OrderCluster.Json.Decode
import OrderCluster.Json.Document
import OrderCluster.Json.Number
import OrderCluster.Json.Shape
import OrderCluster.Json.Skip
import OrderCluster.Json.Text
import OrderCluster.Json.Tree
import OrderCluster.Json.Wire
import OrderCluster.Log.Basic
import OrderCluster.Log.Memory
import OrderCluster.Log.Table
import OrderCluster.Main
import OrderCluster.Member
import OrderCluster.Member.Described
import OrderCluster.Metrics
import OrderCluster.Node
import OrderCluster.Number
import OrderCluster.Order
import OrderCluster.Proofs.Counter
import OrderCluster.Proofs.Log
import OrderCluster.Program
import OrderCluster.Registry
import OrderCluster.Replication.Call
import OrderCluster.Replication.FanOut
import OrderCluster.Replication.Lanes
import OrderCluster.Replication.Merge
import OrderCluster.Replication.Site
import OrderCluster.Replication.Sync
import OrderCluster.Rpc.Messages
import OrderCluster.Rpc.Method
import OrderCluster.Rpc.PeerError
import OrderCluster.Rpc.Peers
import OrderCluster.Rpc.Scripted
import OrderCluster.Rpc.Wire
import OrderCluster.Service.Answers
import OrderCluster.Service.Buy
import OrderCluster.Service.Error
import OrderCluster.Service.Serve
import OrderCluster.Text.Lossy
import OrderCluster.Text.Numeral
import OrderCluster.Text.Quoted
import OrderCluster.Text.Visible
import OrderCluster.Yaml.Cursor
import OrderCluster.Yaml.Form
import OrderCluster.Yaml.Node
import OrderCluster.Yaml.Scalar
import OrderCluster.Yaml.Token
import OrderCluster.Yaml.Value
import OrderCluster.Proofs.Node
import OrderCluster.Proofs.Service.Buy
import OrderCluster.Proofs.Service.Answers
import OrderCluster.Proofs.Replication.Landing
import OrderCluster.Proofs.Replication.Sync
import OrderCluster.Proofs.Lifetime
import OrderCluster.Proofs.Interleaving.Thread
import OrderCluster.Proofs.Interleaving.Conduct
import OrderCluster.Proofs.Catalog.Stock
import OrderCluster.Proofs.Interleaving.Bench
import OrderCluster.Proofs.Interleaving.Cluster
import OrderCluster.Proofs.Replication.Rounds
import OrderCluster.Proofs.Prefix
import OrderCluster.Proofs.Registry
import OrderCluster.Proofs.Steady.Sound
import OrderCluster.Proofs.Steady.Pushing
import OrderCluster.Proofs.Steady.Fetching
import OrderCluster.Proofs.Steady.Gapless
import OrderCluster.Proofs.Replication.Settled
import OrderCluster.Proofs.Replication.Noted
import OrderCluster.Proofs.Replication.Union
import OrderCluster.Proofs.Replication.CatchUp
import OrderCluster.Proofs.Catalog.Ledger
import OrderCluster.Proofs.Market
import OrderCluster.Proofs.Json.Number
import OrderCluster.Proofs.Json.Text
import OrderCluster.Proofs.Json.Read
import OrderCluster.Proofs.Json.Shape
import OrderCluster.Proofs.Json.Document
import OrderCluster.Proofs.Http.Transparent
import OrderCluster.Proofs.Text.Lossy
import OrderCluster.Proofs.Coordinator.Election
import OrderCluster.Proofs.Coordinator.Walk
import OrderCluster.Proofs.Coordinator.Sharing
import OrderCluster.Proofs.Coordinator.Routing
import OrderCluster.Proofs.Coordinator.Failover
import OrderCluster.Proofs.Replication.Limiter
import OrderCluster.Proofs.Replication.Tickets
import OrderCluster.Proofs.Interleaving.Station
import OrderCluster.Proofs.Interleaving.Marking
import OrderCluster.Proofs.Interleaving.Standing
import OrderCluster.Proofs.Interleaving.Mirror
import OrderCluster.Proofs.Interleaving.Succession
import OrderCluster.Proofs.Log.FirstWrites
import OrderCluster.Proofs.Coordinator.Responder
import OrderCluster.Proofs.Rpc.Bodies
import OrderCluster.Proofs.Coordinator.Aware
import OrderCluster.Proofs.Replication.FirstCome
import OrderCluster.Proofs.Service.Traceless
import OrderCluster.Proofs.Replication.Record
import OrderCluster.Proofs.Replication.Apart
import OrderCluster.Proofs.Replication.Push
import OrderCluster.Proofs.Replication.Foreseen
import OrderCluster.Proofs.Replication.Draining
import OrderCluster.Proofs.Replication.Account
import OrderCluster.Proofs.Replication.Fates
import OrderCluster.Proofs.Registry.History
import OrderCluster.Proofs.Replication.Habits
import OrderCluster.Proofs.Replication.Repeated
import OrderCluster.Proofs.Lifetime.Gauge
import OrderCluster.Proofs.Interleaving.Bookkeeping
import OrderCluster.Proofs.Interleaving.Balance
import OrderCluster.Proofs.Counter.Onward
import OrderCluster.Proofs.Listing
import OrderCluster.Proofs.Config.Overlay
import OrderCluster.Proofs.Rpc.Tolerant
import OrderCluster.Proofs.Member.Described
