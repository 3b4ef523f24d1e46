import MetaMystia.Library.Runs
import MetaMystia.Library.Mesh
import MetaMystia.Library.Framing
import MetaMystia.Library.Slots
import MetaMystia.Library.Assoc
import MetaMystia.Types
import MetaMystia.Protocol
import MetaMystia.Messaging
import MetaMystia.Membership
import MetaMystia.Election.LeaderElection
import MetaMystia.Election.Operations
import MetaMystia.Election.SingleVote
import MetaMystia.Election.ManualOverride
import MetaMystia.Election.OverrideRecovery
import MetaMystia.Election.ManualAssignment
import MetaMystia.Election.Cluster
import MetaMystia.Election.Safety
import MetaMystia.Election.SplitBrain
import MetaMystia.Election.TaskInterleaving
import MetaMystia.Election.Granularity
import MetaMystia.Transport.PacketCodec
import MetaMystia.Transport.UserMessages
import MetaMystia.Transport.Connections
import MetaMystia.Transport.Handshake
import MetaMystia.Transport.SimultaneousConnect
import MetaMystia.Transport.LinkIdentity
import MetaMystia.Transport.Teardown
import MetaMystia.Transport.ConnectTasks
import MetaMystia.Transport.FinalDisconnect
import MetaMystia.Transport.MessageOrder
import MetaMystia.Session.Router
import MetaMystia.Session.CentralizedBroadcast
import MetaMystia.Node.NetworkState
import MetaMystia.Node.LeaderLoss
import MetaMystia.Node.PeerMesh
import MetaMystia.Node.LeaderlessDeadlock
import MetaMystia.Election.Notifications
import MetaMystia.Ffi.Lifecycle
import MetaMystia.Transport.ReportedSuccess
import MetaMystia.Transport.StalledChannel
import MetaMystia.Node.PeerListSync
import MetaMystia.Node.NodeTasks
import MetaMystia.Node.Reconnects
import MetaMystia.Node.SelfConnection
import MetaMystia.Library.Outbox
import MetaMystia.Node.MembershipEvents
import MetaMystia.Node.StatusCallbacks
import MetaMystia.Ffi.CallbackDrain
import MetaMystia.Library.Varint
import MetaMystia.Session.DeliveredPayload
import MetaMystia.Session.ForwardingLimit
import MetaMystia.Config
import MetaMystia.Transport.ReconnectTask
import MetaMystia.Transport.PeerIsBack
import MetaMystia.Node.KeepAlive
import MetaMystia.Node.Rediscovery
import MetaMystia.Session.RoutedMessages
import MetaMystia.Election.Promotion
import MetaMystia.Election.ExactNotices
import MetaMystia.Election.Redelivery
import MetaMystia.Election.Terms
import MetaMystia.Library.Mailboxes
import MetaMystia.Node.MembershipLog
import MetaMystia.Transport.ChannelOwners
import MetaMystia.Transport.DataChannelCleanup
import MetaMystia.Transport.BroadcastSends
import MetaMystia.Ffi.PeerList
import MetaMystia.Ffi.SetLeader
import MetaMystia.Session.ReceivedTypes
import MetaMystia.Election.Candidacy
import MetaMystia.Library.Checked
import MetaMystia.Transport.PacketFormat
import MetaMystia.Ffi.PeerRtt
import MetaMystia.Library.Hex
import MetaMystia.Library.Utf8
import MetaMystia.Node.DnsLabel
import MetaMystia.Node.InstanceName
import MetaMystia.Library.Ballots
import MetaMystia.Election.PartialViews
import MetaMystia.Election.RoleAgreement
import MetaMystia.Election.StableLeadership
import MetaMystia.Election.UndisturbedElection
import MetaMystia.Library.Cascade
import MetaMystia.Library.Separated
import MetaMystia.Node.Overlay
import MetaMystia.Node.Amplification
import MetaMystia.Node.Shutdown
import MetaMystia.Session.AtMostOnce
import MetaMystia.Transport.IncomingQueue
import MetaMystia.Transport.SingleDial
import MetaMystia.Transport.Addresses
import MetaMystia.Transport.DataLinks
import MetaMystia.Ffi.CallbackDispatch
import MetaMystia.Ffi.SendCalls
import MetaMystia.Node.FailureDetection
import MetaMystia.Node.AutomaticDials
import MetaMystia.Node.GracefulShutdown
