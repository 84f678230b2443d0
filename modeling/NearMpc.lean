import NearMpc.Contract.KeyHistory
import NearMpc.Contract.ParameterVotes
import NearMpc.Contract.DomainVotes
import NearMpc.Contract.KeyEventAttempts
import NearMpc.Contract.Reverification
import NearMpc.Contract.StorageDeposits
import NearMpc.Contract.KeyDerivation
import NearMpc.Contract.NodeMigrations
import NearMpc.Contract.CodeHashVotes
import NearMpc.Contract.ImageList
import NearMpc.Contract.EventLog
import NearMpc.Threshold.BroadcastDelivery
import NearMpc.Threshold.TripleSafety
import NearMpc.Threshold.CkdRuns
import NearMpc.Threshold.PrivateChannels
import NearMpc.Threshold.HashedBytes
import NearMpc.Threshold.CarrylessProduct
import NearMpc.Node.AssetUniqueness
import NearMpc.Node.ConcurrentTakes
import NearMpc.Node.AssetCleanup
import NearMpc.Node.RobustParameters
import NearMpc.Node.SplitView
import NearMpc.Node.TaskStart
import NearMpc.Node.TaskMessages
import NearMpc.Node.ChannelOwners
import NearMpc.Node.Connectivity
import NearMpc.Node.IndexerHeights
import NearMpc.Node.AttemptLimits
import NearMpc.Node.ResponseLatency
import NearMpc.Node.KeysetKeyshares
import NearMpc.Node.KeyfileCrash
import NearMpc.Node.KeyshareHistory
