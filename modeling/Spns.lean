import Spns.Lib.Count
import Spns.Lib.Rounding
import Spns.Lib.Binary64
import Spns.Lib.Fallible
import Spns.Lib.Run
import Spns.Lib.Unordered
import Spns.Lib.Bencode
import Spns.Lib.Decimal
import Spns.Lib.Replay
import Spns.Lib.Dictionary
import Spns.Lib.Ring
import Spns.Lib.Json
import Spns.Lib.BencodeValue
import Spns.Lib.Totals
import Spns.Lib.Locking
import Spns.Lib.Tasks
import Spns.Bytes
import Spns.Binary
import Spns.SwarmPubkey
import Spns.Hive.Subscription
import Spns.Hive.SNode
import Spns.Hive.CheckLoop
import Spns.Hive.Queue
import Spns.Hive.FlowControl
import Spns.Hive.RequestLimit
import Spns.Hive.Covers
import Spns.Storage.Tables
import Spns.Storage.Slots
import Spns.Storage.Transactions
import Spns.Storage.Serial
import Spns.Storage.Stages
import Spns.Storage.Execution
import Spns.Storage.Serializable
import Spns.Storage.Pool
import Spns.Storage.ServiceStats
import Spns.HiveMind.Core
import Spns.HiveMind.Connections
import Spns.HiveMind.Subscribers
import Spns.HiveMind.ServiceNodes
import Spns.HiveMind.System
import Spns.HiveMind.Frame
import Spns.HiveMind.Index
import Spns.HiveMind.Update
import Spns.HiveMind.Membership
import Spns.HiveMind.Response
import Spns.HiveMind.Remember
import Spns.HiveMind.Invariants
import Spns.HiveMind.NodeIndex
import Spns.HiveMind.Scheduling
import Spns.HiveMind.Coverage
import Spns.HiveMind.StaleMembers
import Spns.HiveMind.FailedUpdate
import Spns.HiveMind.Dedup
import Spns.HiveMind.ConnInvariant
import Spns.HiveMind.Accounting
import Spns.HiveMind.Superseded
import Spns.HiveMind.SignedMessages
import Spns.HiveMind.Loading
import Spns.HiveMind.Renewals
import Spns.HiveMind.Signed
import Spns.HiveMind.Authorised
import Spns.HiveMind.Acceptance
import Spns.HiveMind.Prompt
import Spns.HiveMind.Swarms
import Spns.HiveMind.QueueOrder
import Spns.HiveMind.Rounds
import Spns.HiveMind.SlotReuse
import Spns.HiveMind.Mirror
import Spns.HiveMind.Recheck
import Spns.HiveMind.MonitorWire
import Spns.HiveMind.Pacing
import Spns.Notify.Core
import Spns.Notify.Message
import Spns.Notify.Filter
import Spns.Notify.Key
import Spns.Notify.WellFormed
import Spns.Notify.Routing
import Spns.Notify.RoundTrip
import Spns.Notify.Subscribed
import Spns.Notify.Receive
import Spns.Notify.Progress
import Spns.Requests.Startup
import Spns.Requests.Arguments
import Spns.Requests.Validation
import Spns.Requests.Batch
import Spns.Requests.Effects
import Spns.Onion.Request
import Spns.Onion.Grammar
import Spns.Onion.Reply
import Spns.Notifiers.Stats
import Spns.Notifiers.Huawei
import Spns.Notifiers.Payload
import Spns.Notifiers.Limits
import Spns.Notifiers.Client
import Spns.Notifiers.Delivery
import Spns.Notifiers.Reporting
