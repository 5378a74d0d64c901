import RedisClone.Lib.Exec
import RedisClone.Lib.CString
import RedisClone.Lib.Chain
import RedisClone.Lib.Slots
import RedisClone.Main
import RedisClone.Verified.Wire
import RedisClone.Verified.Received
import RedisClone.Verified.Store
import RedisClone.Verified.Reachable
import RedisClone.Verified.Safety
import RedisClone.Verified.Propagation
import RedisClone.Verified.Transactions
import RedisClone.Verified.Restart
import RedisClone.Verified.Classification
import RedisClone.Verified.Aborts
import RedisClone.Verified.Wakeups
import RedisClone.Verified.Replies
import RedisClone.Verified.Conservation
import RedisClone.Verified.PendingWaits
import RedisClone.Verified.Notices
import RedisClone.Verified.Pipelines
import RedisClone.Verified.FiniteMap
import RedisClone.Verified.StreamIds
import RedisClone.Verified.SortedSets
import RedisClone.Verified.Subscriptions
import RedisClone.Verified.BlockingState
import RedisClone.Verified.Connections
import RedisClone.Verified.Sequential
import RedisClone.Verified.Silence
import RedisClone.Verified.Deques
import RedisClone.Verified.Expiry
import RedisClone.Verified.Reads
import RedisClone.Lib.Acknowledged
import RedisClone.Verified.Attended
import RedisClone.Verified.Authentication
import RedisClone.Verified.SubscribedMode
import RedisClone.Verified.Capacities
import RedisClone.Verified.ReplyBuffers
import RedisClone.Verified.Grammar
import RedisClone.Verified.Splits
import RedisClone.Verified.Acknowledgements
import RedisClone.Verified.Outsiders
import RedisClone.Verified.OneReply
import RedisClone.Verified.Attachments
import RedisClone.Verified.WaitSoundness
import RedisClone.Verified.Slices
import RedisClone.Verified.Scores
import RedisClone.Verified.StreamRanges
import RedisClone.Verified.Publishing
import RedisClone.Verified.ReplicaOffsets
import RedisClone.Verified.SnapshotRounds
import RedisClone.Verified.Snapshots
import RedisClone.Verified.LoadedStreams
import RedisClone.Verified.ZaddUpdates
import RedisClone.Verified.NewerEntries
import RedisClone.Verified.AppendedEntries
import RedisClone.Verified.StreamDeliveries
import RedisClone.Verified.BlockingReads
import RedisClone.Verified.OptionPositions
import RedisClone.Verified.ManyStreams
import RedisClone.Verified.AcceptedIds
import RedisClone.Verified.PositiveIds
import RedisClone.Verified.Geohashes
import RedisClone.Verified.StringValues
import RedisClone.Verified.FairService
import RedisClone.Verified.KeyListing
import RedisClone.Verified.RequestLoop
import RedisClone.Verified.Deregistrations
import RedisClone.Verified.RequestCopies
import RedisClone.Verified.ParserStores
import RedisClone.Lib.CommandLog
import RedisClone.Lib.Imitation
import RedisClone.Lib.Segments
import RedisClone.Lib.Agreement
import RedisClone.Startup
import RedisClone.Verified.Contents
import RedisClone.Verified.Convergence
import RedisClone.Verified.Replays
import RedisClone.Verified.Durability
import RedisClone.Verified.Confinement
import RedisClone.Verified.Strangers
import RedisClone.Verified.Handshakes
import RedisClone.Verified.Joins
import RedisClone.Verified.Executions
import RedisClone.Verified.Interleavings
import RedisClone.Verified.Everywhere
import RedisClone.Verified.Settings
import RedisClone.Verified.Deadlines
import RedisClone.Verified.StaleReads
