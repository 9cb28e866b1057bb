import VolantMQ.Lib.Buffer
import VolantMQ.Lib.Overlay
import VolantMQ.Lib.Bufio
import VolantMQ.Lib.Reader
import VolantMQ.Lib.Run
import VolantMQ.Lib.Threads
import VolantMQ.Lib.Progress
import VolantMQ.Lib.Trie
import VolantMQ.Lib.Pruned
import VolantMQ.Lib.Handshake
import VolantMQ.Lib.Drain
import VolantMQ.Lib.Rebuild
import VolantMQ.Types.Once
import VolantMQ.Packet.Types
import VolantMQ.Packet.Wire
import VolantMQ.Packet.Property
import VolantMQ.Packet.Publish
import VolantMQ.Packet.Ack
import VolantMQ.Packet.Block
import VolantMQ.Packet.RoundTrip
import VolantMQ.Packet.Arrival
import VolantMQ.Packet.Clone
import VolantMQ.Packet.Subscribe
import VolantMQ.Packet.Fields
import VolantMQ.Packet.BlockGrammar
import VolantMQ.Packet.Message
import VolantMQ.Packet.Frame
import VolantMQ.Packet.Identifier
import VolantMQ.Packet.Overwrite
import VolantMQ.Packet.UnSubscribe
import VolantMQ.Packet.Discipline
import VolantMQ.Packet.Exact
import VolantMQ.Packet.Bookkeeping
import VolantMQ.Packet.Reread
import VolantMQ.Packet.Request
import VolantMQ.Packet.Resend
import VolantMQ.Packet.Stable
import VolantMQ.Packet.Construct
import VolantMQ.Packet.Connecting
import VolantMQ.Packet.Reason
import VolantMQ.Topics.Node
import VolantMQ.Topics.Table
import VolantMQ.Topics.Search
import VolantMQ.Topics.Refinement
import VolantMQ.Topics.Overlap
import VolantMQ.Topics.Retained
import VolantMQ.Topics.Store
import VolantMQ.Topics.Pruning
import VolantMQ.Topics.Contents
import VolantMQ.Topics.Restart
import VolantMQ.Topics.Workers
import VolantMQ.Topics.Shutdown
import VolantMQ.Topics.Handover
import VolantMQ.Topics.Grammar
import VolantMQ.Connection.FlowControl
import VolantMQ.Connection.Inbound
import VolantMQ.Connection.Outbound
import VolantMQ.Connection.Window
import VolantMQ.Connection.Transmitter
import VolantMQ.Connection.TopicAlias
import VolantMQ.Connection.ClientAlias
import VolantMQ.Connection.QoS2
import VolantMQ.Connection.Persist
import VolantMQ.Connection.Reload
import VolantMQ.Connection.Lifecycle
import VolantMQ.Connection.Receiver
import VolantMQ.Connection.Framing
import VolantMQ.Connection.WakeUp
import VolantMQ.Connection.Order
import VolantMQ.Connection.Quota
import VolantMQ.Subscriber.Publish
import VolantMQ.Subscriber.Delivery
import VolantMQ.Subscriber.Switch
import VolantMQ.Broker.System
import VolantMQ.Broker.Downgrade
import VolantMQ.Broker.Lossless
import VolantMQ.Broker.Copies
import VolantMQ.Broker.Responses
import VolantMQ.Broker.Filters
import VolantMQ.Clients.Subscriptions
import VolantMQ.Clients.Agreement
import VolantMQ.Clients.Session
import VolantMQ.Clients.TimerLaw
import VolantMQ.Clients.Stop
import VolantMQ.Clients.Startup
import VolantMQ.Clients.Will
import VolantMQ.Clients.WillMessage
import VolantMQ.Clients.NewSession
import VolantMQ.Clients.ConnAck
import VolantMQ.Clients.Takeover
import VolantMQ.Clients.Exclusive
import VolantMQ.Clients.Statistics
import VolantMQ.Clients.Exchange
import VolantMQ.Connection.Teardown
import VolantMQ.Connection.Ending
import VolantMQ.Transport.Door
import VolantMQ.Transport.WebSocket
