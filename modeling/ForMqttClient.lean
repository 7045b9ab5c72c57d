import ForMqttClient.GuardedRuns
import ForMqttClient.PairFifo
import ForMqttClient.BoundedRing
import ForMqttClient.MqttData
import ForMqttClient.TaskHub
import ForMqttClient.HubSteps
import ForMqttClient.PacketIds
import ForMqttClient.Requests
import ForMqttClient.Tasks
import ForMqttClient.System
import ForMqttClient.SystemSteps
import ForMqttClient.TaskRuns
import ForMqttClient.Tally
import ForMqttClient.Losses
import ForMqttClient.Completions
import ForMqttClient.KeepAlive
import ForMqttClient.Connections
import ForMqttClient.Pings
import ForMqttClient.Receiving
import ForMqttClient.Deliveries
import ForMqttClient.Handshake
import ForMqttClient.Duplicates
import ForMqttClient.UserWill
import ForMqttClient.Orphans
import ForMqttClient.StaleRecovers
import ForMqttClient.Exchanges
import ForMqttClient.Handover
import ForMqttClient.PublishOrder
import ForMqttClient.Releases
import ForMqttClient.ByteReader
import ForMqttClient.Codec
import ForMqttClient.Lengths
import ForMqttClient.PacketReaders
import ForMqttClient.DecoderSafety
import ForMqttClient.PacketWriters
import ForMqttClient.Frames
import ForMqttClient.FieldRoundTrips
import ForMqttClient.PublishRoundTrip
import ForMqttClient.Redelivery
import ForMqttClient.AckRoundTrip
import ForMqttClient.DisconnectRoundTrip
import ForMqttClient.Connect
import ForMqttClient.ConnectRoundTrip
import ForMqttClient.ConnectLayout
import ForMqttClient.SubscribeWriters
import ForMqttClient.SubscribeRoundTrip
import ForMqttClient.Admission
import ForMqttClient.Sessions
import ForMqttClient.NetworkTask
import ForMqttClient.PacketLoop
import ForMqttClient.Chunks
import ForMqttClient.Stranded
import ForMqttClient.HandshakeChunks
import ForMqttClient.Lifecycle
import ForMqttClient.WireRefinement
import ForMqttClient.SubscribeIds
import ForMqttClient.PropertyItems
import ForMqttClient.ConnAckItems
import ForMqttClient.MoreBytes
import ForMqttClient.PacketBlocks
import ForMqttClient.HeaderPrefixes
import ForMqttClient.PropertyBoundary
import ForMqttClient.PublishReencodes
import ForMqttClient.Transmission
import ForMqttClient.AckBuilder
import ForMqttClient.TextFields
import ForMqttClient.Inbound
import ForMqttClient.LossyBus
import ForMqttClient.Provenance
import ForMqttClient.Writes
import ForMqttClient.ConnectionView
import ForMqttClient.ResendLoop
import ForMqttClient.Reconnects
import ForMqttClient.PingRuns
import ForMqttClient.Processes
import ForMqttClient.Framing
import ForMqttClient.BrokerReader
import ForMqttClient.Sendable
import ForMqttClient.Wire
import ForMqttClient.StreamRuns
import ForMqttClient.Grammar
import ForMqttClient.Recovery
import ForMqttClient.Draining
import ForMqttClient.Calls
import ForMqttClient.ExactlyOnce
