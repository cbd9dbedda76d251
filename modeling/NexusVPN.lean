import NexusVPN.Relay.IndexCompleteness
import NexusVPN.Relay.Delivery
import NexusVPN.Relay.Exchange
import NexusVPN.Relay.Accounting
import NexusVPN.Client.Health
import NexusVPN.Client.ExitUndo
import NexusVPN.Client.Shutdown
import NexusVPN.Client.TransportSpared
import NexusVPN.PeerFeed
import NexusVPN.Backend.StreamAccess
import NexusVPN.KeyHistory
import NexusVPN.Client.Offline
import NexusVPN.Refusal
import NexusVPN.Backend.Roles
import NexusVPN.KeyIdentity
import NexusVPN.Backend.PostgresMembers
import NexusVPN.Backend.InviteCodes
import NexusVPN.Backend.PairingTokens
import NexusVPN.Backend.DisabledAccounts
import NexusVPN.Backend.SecondFactor
import NexusVPN.Backend.SingleUse
import NexusVPN.Backend.ResetSessions
import NexusVPN.Backend.LostUpdates
import NexusVPN.Backend.LoginBudget
import NexusVPN.CertificatePin
import NexusVPN.Mobile.Session
import NexusVPN.SignOut
import NexusVPN.Client.CoordinationToken
import NexusVPN.Client.ConcurrentRefresh
import NexusVPN.Backend.Flushing
import NexusVPN.Backend.CandidateExchange
import NexusVPN.Backend.EventBus
import NexusVPN.Backend.TrafficCounters
import NexusVPN.Backend.RelayCapacity
import NexusVPN.Backend.AddressSearch
import NexusVPN.Backend.RedisLimiter
import NexusVPN.Backend.BurstBound
import NexusVPN.Backend.LogPages
import NexusVPN.Mobile.TunnelConfig
import NexusVPN.Client.Invite
import NexusVPN.Client.Egress
import NexusVPN.Client.Disco
import NexusVPN.Client.Presence
