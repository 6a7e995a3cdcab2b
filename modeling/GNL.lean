import GNL.Foundation.ObjectBytes
import GNL.Foundation.StackCodec
import GNL.Foundation.Framing
import GNL.Semantics.Trace
import GNL.Common.NetCommon
import GNL.Common.NetPacket
import GNL.Common.TCPConnection.Reader
import GNL.Common.TCPConnection.Delivery
import GNL.Common.TCPConnection.WholeFrames
import GNL.Common.TCPConnection.Writer
import GNL.Common.TCPConnection.Sending
import GNL.Common.TCPConnection.WriteLoop
import GNL.Common.NetQueueWait
import GNL.Semantics.Locking
import GNL.Common.NetQueueLocks
import GNL.Client.NetNode
import GNL.Client.Outgoing
import GNL.Client.Codec
import GNL.Client.Strings
import GNL.Server.OnPacket
import GNL.Server.Invariant
import GNL.Server.Handling
import GNL.Server.Ownership
import GNL.Extraction
import GNL.Ping
import GNL.Server.Messages
import GNL.Server.Replica
import GNL.Server.Agreement
import GNL.Server.Losses
import GNL.Server.Registry
import GNL.Server.Departure
import GNL.Server.Reporting
import GNL.Server.Snapshot
import GNL.Server.Broadcast
import GNL.Server.Relay
import GNL.Server.Dispatch
import GNL.Server.AcceptLoop
import GNL.Server.UDPAcceptLoop
import GNL.Client.EarlyWrites
import GNL.Common.UDP
import GNL.Client.Reconnecting
import GNL.Client.Closing
import GNL.Client.WorldSnapshot
import GNL.Client.ReceivePump
import GNL.Server.Running
import GNL.Foundation.Pointers
import GNL.Server.Accepting
import GNL.Server.Handshake
import GNL.Server.Lifetime
import GNL.Semantics.Rest
import GNL.Common.TCPConnection.Link
import GNL.Common.TCPConnection.LinkRest
import GNL.Server.Outbox
import GNL.Network
import GNL.Network.Answers
import GNL.Server.Views
import GNL.Network.Views
import GNL.Network.MessageAll
import GNL.Network.Rest
import GNL.Network.Pings
import GNL.Server.Finish
import GNL.Server.Starting
import GNL.Server.Following
import GNL.Server.Meanwhile
import GNL.Server.Serial
import GNL.Server.BetweenCalls
import GNL.Server.Incoming
