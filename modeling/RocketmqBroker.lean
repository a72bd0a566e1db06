import RocketmqBroker.Lib.BigEndian
import RocketmqBroker.Lib.ByteReader
import RocketmqBroker.Lib.Fallible
import RocketmqBroker.Lib.RecordScan
import RocketmqBroker.Lib.FinMap
import RocketmqBroker.Lib.Buckets
import RocketmqBroker.Lib.Registry
import RocketmqBroker.Lib.OrderedMap
import RocketmqBroker.Lib.StableList
import RocketmqBroker.Storage.WalEntry
import RocketmqBroker.Storage.SegmentFile
import RocketmqBroker.Storage.SegmentCoordinator
import RocketmqBroker.Storage.SegmentLayout
import RocketmqBroker.Storage.WalRoundTrip
import RocketmqBroker.Storage.TornWrite
import RocketmqBroker.Queue.Message
import RocketmqBroker.Queue.PriorityQueue
import RocketmqBroker.Queue.DelayQueue
import RocketmqBroker.Queue.PriorityOrder
import RocketmqBroker.Routing.Exchange
import RocketmqBroker.Schema.CompiledSchema
import RocketmqBroker.Queue.QueueState
import RocketmqBroker.Protocol.BasicProperties
import RocketmqBroker.Protocol.PropertyReader
import RocketmqBroker.State.BrokerState
import RocketmqBroker.Storage.LogRecord
import RocketmqBroker.Storage.Replay
import RocketmqBroker.Server.Compaction
import RocketmqBroker.Lib.Run
import RocketmqBroker.Storage.Recovered
import RocketmqBroker.Storage.Stream
import RocketmqBroker.Storage.StreamLog
import RocketmqBroker.Server.CompactionCrash
import RocketmqBroker.Server.CompactionRace
import RocketmqBroker.Lib.Program
import RocketmqBroker.Broker.Effect
import RocketmqBroker.Handlers.Frame
import RocketmqBroker.Handlers.Queue
import RocketmqBroker.Handlers.Exchange
import RocketmqBroker.Handlers.Basic
import RocketmqBroker.Handlers.Session
import RocketmqBroker.Handlers.Delivery
import RocketmqBroker.Management.Routes
import RocketmqBroker.Cluster.Frames
import RocketmqBroker.Cluster.Raft
import RocketmqBroker.Cluster.LogSound
import RocketmqBroker.Cluster.Follower
import RocketmqBroker.Cluster.Coordinator
import RocketmqBroker.Cluster.Votes
import RocketmqBroker.Cluster.Leadership
import RocketmqBroker.Cluster.Tally
import RocketmqBroker.Cluster.Election
import RocketmqBroker.Cluster.Partition
import RocketmqBroker.Cluster.CommitIndex
import RocketmqBroker.Cluster.Connections
import RocketmqBroker.Cluster.QueueLeaders
import RocketmqBroker.Cluster.Replication
import RocketmqBroker.Server.Tasks
import RocketmqBroker.Broker.Step
import RocketmqBroker.Broker.Footprint
import RocketmqBroker.Durability.LogView
import RocketmqBroker.Durability.Held
import RocketmqBroker.Durability.Arrivals
import RocketmqBroker.Durability.Departures
import RocketmqBroker.Durability.Objects
import RocketmqBroker.Durability.Removals
import RocketmqBroker.Durability.References
import RocketmqBroker.Durability.Identity
import RocketmqBroker.Durability.Order
import RocketmqBroker.Cluster.Replicas
import RocketmqBroker.Delivery.Conservation
import RocketmqBroker.Delivery.View
import RocketmqBroker.Delivery.Requests
import RocketmqBroker.Delivery.Rounds
import RocketmqBroker.Delivery.Settling
import RocketmqBroker.Delivery.Served
import RocketmqBroker.Delivery.Outstanding
import RocketmqBroker.Delivery.Registries
import RocketmqBroker.Delivery.Ownership
import RocketmqBroker.Delivery.Unacked
import RocketmqBroker.Delivery.Consumers
import RocketmqBroker.Delivery.ClosedChannels
import RocketmqBroker.Delivery.HandOuts
import RocketmqBroker.Delivery.Redelivered
import RocketmqBroker.Consumers.Lists
import RocketmqBroker.Consumers.Tags
import RocketmqBroker.Consumers.Leaving
import RocketmqBroker.Durability.UniqueIds
import RocketmqBroker.Server.Expiry
import RocketmqBroker.Queue.MaxLength
import RocketmqBroker.Routing.Mandatory
import RocketmqBroker.Routing.DefaultBindings
import RocketmqBroker.Lib.Demux
import RocketmqBroker.Protocol.Codec
import RocketmqBroker.Protocol.ConnectionLoop
import RocketmqBroker.Protocol.Publications
import RocketmqBroker.Protocol.Channels
import RocketmqBroker.Protocol.SelectLoop
import RocketmqBroker.Protocol.ContentSizes
import RocketmqBroker.Publishing.Direct
import RocketmqBroker.Publishing.ConfirmTags
import RocketmqBroker.Publishing.Isolation
import RocketmqBroker.Publishing.Receivers
import RocketmqBroker.Publishing.ShortNames
import RocketmqBroker.Publishing.Confirms
import RocketmqBroker.Publishing.Alike
import RocketmqBroker.Publishing.Commit
import RocketmqBroker.Publishing.Managed
import RocketmqBroker.Protocol.PropertyWriter
import RocketmqBroker.Protocol.ContentFrames
import RocketmqBroker.Protocol.FrameCodec
import RocketmqBroker.Publishing.Received
import RocketmqBroker.Protocol.FrameMax
import RocketmqBroker.Broker.Dispatch
import RocketmqBroker.Access.Exclusive
import RocketmqBroker.Access.SoleConsumer
import RocketmqBroker.Access.Permissions
import RocketmqBroker.Access.Sessions
import RocketmqBroker.Access.Vhosts
import RocketmqBroker.Lib.WordPattern
import RocketmqBroker.Routing.TopicMatch
import RocketmqBroker.Storage.ReadLoop
import RocketmqBroker.Cluster.Appending
import RocketmqBroker.Protocol.SentPublish
import RocketmqBroker.Publishing.Validation
import RocketmqBroker.Publishing.Transactions
import RocketmqBroker.Lib.StepCount
import RocketmqBroker.Routing.Bindings
import RocketmqBroker.Publishing.Copies
import RocketmqBroker.Consumers.Requeued
import RocketmqBroker.Delivery.Batches
import RocketmqBroker.Lib.RoundRobin
import RocketmqBroker.Delivery.Turns
import RocketmqBroker.Delivery.Passes
import RocketmqBroker.Protocol.BodyFrames
import RocketmqBroker.Storage.StreamRange
import RocketmqBroker.Lib.Cycling
import RocketmqBroker.Management.Fetching
import RocketmqBroker.Cluster.AckedRemoval
import RocketmqBroker.Cluster.PauseMinority
import RocketmqBroker.Management.BindingKeys
import RocketmqBroker.Routing.HeaderBindings
import RocketmqBroker.Management.UserPermissions
import RocketmqBroker.Durability.Schemas
import RocketmqBroker.Lib.Regex
import RocketmqBroker.Access.ResourcePatterns
import RocketmqBroker.Lib.Regrouping
import RocketmqBroker.Management.Base64
import RocketmqBroker.Delivery.Rotation
import RocketmqBroker.Schema.Descriptors
import RocketmqBroker.Schema.WireFormat
import RocketmqBroker.Schema.Compatibility
import RocketmqBroker.Schema.JsonFields
import RocketmqBroker.Schema.ReplyText
import RocketmqBroker.Protocol.MethodArguments
import RocketmqBroker.Protocol.Commands
import RocketmqBroker.Lib.Saving
import RocketmqBroker.Access.Users
import RocketmqBroker.Access.UserDatabase
import RocketmqBroker.Access.UserRuns
import RocketmqBroker.Management.BasicAuth
import RocketmqBroker.Protocol.Utf8
import RocketmqBroker.Protocol.Handshake
import RocketmqBroker.Protocol.Greeting
import RocketmqBroker.Delivery.FirstHandOuts
import RocketmqBroker.Cluster.Applied
import RocketmqBroker.Delivery.Contents
import RocketmqBroker.Cluster.Mesh
import RocketmqBroker.Cluster.Meeting
import RocketmqBroker.Cluster.Silence
import RocketmqBroker.Server.Timeless
import RocketmqBroker.Cluster.LeaderLogs
