import TwitterLike.Commons.Connections
import TwitterLike.Commons.Relaying
import TwitterLike.Server.LockDiscipline
import TwitterLike.Server.FollowRequests
import TwitterLike.Server.Persistence
import TwitterLike.Server.FileTexts
import TwitterLike.Server.LockProgress
import TwitterLike.Server.HandOver
import TwitterLike.Server.SessionSharing
import TwitterLike.Server.BackupSimulation
import TwitterLike.Server.BackupConvergence
import TwitterLike.Server.BackupSurvival
import TwitterLike.Server.LateBackup
import TwitterLike.Server.FailoverQueues
import TwitterLike.Server.ServerProgress
import TwitterLike.Server.PromotedServer
import TwitterLike.Server.DeliveryOrder
import TwitterLike.Server.FirstPacket
import TwitterLike.Server.ElectionLists
import TwitterLike.Server.ElectionRing
import TwitterLike.Client.InputLoop
import TwitterLike.Client.Reconnecting
import TwitterLike.Router.AcceptedAddress
import TwitterLike.Router.AtomicRegister
import TwitterLike.Cluster.Promotion
import TwitterLike.Cluster.MessageBounds
import TwitterLike.Cluster.DeadPeers
import TwitterLike.Cluster.ServiceProgress
import TwitterLike.Cluster.OrderlyFailover
