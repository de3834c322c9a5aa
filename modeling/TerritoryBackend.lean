import TerritoryBackend.AbsenceTracking
import TerritoryBackend.AccountHistory
import TerritoryBackend.Accounts
import TerritoryBackend.ActiveGame
import TerritoryBackend.AnnouncedSides
import TerritoryBackend.AnnouncedTurns
import TerritoryBackend.Announcements
import TerritoryBackend.AuthenticMessages
import TerritoryBackend.Board
import TerritoryBackend.ClientBoards
import TerritoryBackend.ClientMoves
import TerritoryBackend.Completion
import TerritoryBackend.ConnectPhase
import TerritoryBackend.ConnectionLifecycle
import TerritoryBackend.ConnectionManager
import TerritoryBackend.Constants
import TerritoryBackend.Coroutines
import TerritoryBackend.CrashRecovery
import TerritoryBackend.CrossDelivery
import TerritoryBackend.DeservedResults
import TerritoryBackend.Dict
import TerritoryBackend.DisconnectRace
import TerritoryBackend.Elo
import TerritoryBackend.EventLoop
import TerritoryBackend.FairPlay
import TerritoryBackend.FinalResults
import TerritoryBackend.FinishedGames
import TerritoryBackend.FirstPair
import TerritoryBackend.Frontend
import TerritoryBackend.GameEngine
import TerritoryBackend.GameRuns
import TerritoryBackend.GracePeriod
import TerritoryBackend.Handlers
import TerritoryBackend.InPlaceActions
import TerritoryBackend.InstanceHeartbeats
import TerritoryBackend.InstanceTransparency
import TerritoryBackend.JsonCodec
import TerritoryBackend.KeyedMachines
import TerritoryBackend.Leaderboard
import TerritoryBackend.ListDict
import TerritoryBackend.Lobby
import TerritoryBackend.MatchRecords
import TerritoryBackend.MatchingTick
import TerritoryBackend.Matchmaking
import TerritoryBackend.MessageLoop
import TerritoryBackend.MessageOrigins
import TerritoryBackend.MessageStreams
import TerritoryBackend.NamedStores
import TerritoryBackend.Overlays
import TerritoryBackend.Pagination
import TerritoryBackend.PairSelection
import TerritoryBackend.PatternDispatch
import TerritoryBackend.Placement
import TerritoryBackend.Playability
import TerritoryBackend.PubSub
import TerritoryBackend.PubSubDelivery
import TerritoryBackend.PythonValues
import TerritoryBackend.QueueHistory
import TerritoryBackend.QueuePatience
import TerritoryBackend.RateLimiter
import TerritoryBackend.RatingFairness
import TerritoryBackend.RatingLedger
import TerritoryBackend.Reconnection
import TerritoryBackend.RecoveryPoints
import TerritoryBackend.RedisHash
import TerritoryBackend.RedisKeyspace
import TerritoryBackend.RedisModels
import TerritoryBackend.Registration
import TerritoryBackend.RegistryIndexes
import TerritoryBackend.ReplayLog
import TerritoryBackend.Repositories
import TerritoryBackend.RequestLimits
import TerritoryBackend.RoomClaims
import TerritoryBackend.RoomCleanup
import TerritoryBackend.RoomMembers
import TerritoryBackend.RoundHalfEven
import TerritoryBackend.SequentialGames
import TerritoryBackend.Server
import TerritoryBackend.ServerQueue
import TerritoryBackend.ServerSteps
import TerritoryBackend.SessionClaims
import TerritoryBackend.SessionCompleteness
import TerritoryBackend.SessionManager
import TerritoryBackend.SessionRooms
import TerritoryBackend.SessionUpdates
import TerritoryBackend.SingleCompletion
import TerritoryBackend.SingleConnection
import TerritoryBackend.SinglePlace
import TerritoryBackend.SlidingWindow
import TerritoryBackend.SnapshotOrder
import TerritoryBackend.SnapshotSweep
import TerritoryBackend.Snapshots
import TerritoryBackend.SortedSet
import TerritoryBackend.Spacing
import TerritoryBackend.StatusMachine
import TerritoryBackend.Successors
import TerritoryBackend.SupersededConnections
import TerritoryBackend.Territory
import TerritoryBackend.UniqueTables
import TerritoryBackend.WaitingBound
import TerritoryBackend.WaitingPlayers
import TerritoryBackend.World
