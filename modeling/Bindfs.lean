import Bindfs.Lib.MaskedWrites
import Bindfs.Lib.Segments
import Bindfs.Lib.InverseTables
import Bindfs.Lib.Effects
import Bindfs.Lib.SortSearch
import Bindfs.Lib.Concurrency
import Bindfs.Lib.Moves
import Bindfs.Lib.Compaction
import Bindfs.Lib.HeapCells
import Bindfs.Source.Types
import Bindfs.Source.Libc
import Bindfs.Source.Misc
import Bindfs.Source.MemoryBlock
import Bindfs.Source.Arena
import Bindfs.Source.RateLimiter
import Bindfs.Source.RateLimiterThreads
import Bindfs.Source.Permchain
import Bindfs.Source.PermchainParser
import Bindfs.Source.PermchainInvariant
import Bindfs.Source.PermchainGrammar
import Bindfs.Source.PermchainMemory
import Bindfs.Source.Usermap
import Bindfs.Source.Userinfo
import Bindfs.Source.UserCache
import Bindfs.Source.UserCacheSpecs
import Bindfs.Source.UserCacheQueries
import Bindfs.Source.UserCacheThreads
import Bindfs.Source.UserCacheThreadSpecs
import Bindfs.Source.MapParsing
import Bindfs.Source.UserinfoSpecs
import Bindfs.Source.MapInvariant
import Bindfs.Source.Settings
import Bindfs.Source.Options
import Bindfs.Source.Main
import Bindfs.Source.OptionFilter
import Bindfs.Source.OptionFilterBuffer
import Bindfs.Source.FuseArguments
import Bindfs.Source.MirrorParser
import Bindfs.Source.Host
import Bindfs.Source.Handlers
import Bindfs.Source.Requests
import Bindfs.Source.HandlerSpecs
import Bindfs.Source.Licences
import Bindfs.Source.DirectorySpecs
import Bindfs.Source.ReaddirBuffer
import Bindfs.Source.TableHost
import Bindfs.Guarantees.Permissions
import Bindfs.Guarantees.PermissionClauses
import Bindfs.Guarantees.OperandBuffer
import Bindfs.Guarantees.UserMaps
import Bindfs.Guarantees.MapUniqueness
import Bindfs.Guarantees.MapFiles
import Bindfs.Guarantees.NumericIds
import Bindfs.Guarantees.OwnershipRoundTrip
import Bindfs.Guarantees.Offsets
import Bindfs.Guarantees.Transparency
import Bindfs.Guarantees.Directories
import Bindfs.Guarantees.ReaddirPlus
import Bindfs.Guarantees.PathBuffer
import Bindfs.Guarantees.Overrides
import Bindfs.Guarantees.Mountpoint
import Bindfs.Guarantees.GuardedRequests
import Bindfs.Guarantees.RecursionGuard
import Bindfs.Guarantees.SymlinkDeletion
import Bindfs.Guarantees.ChangeRequests
import Bindfs.Guarantees.Creation
import Bindfs.Guarantees.CommandLine
import Bindfs.Guarantees.MountOptions
import Bindfs.Guarantees.FuseArguments
import Bindfs.Guarantees.Policies
import Bindfs.Guarantees.ArenaRegions
import Bindfs.Guarantees.PathComponents
import Bindfs.Guarantees.RateLimit
import Bindfs.Guarantees.RateLimitThreads
import Bindfs.Guarantees.GroupMembership
import Bindfs.Guarantees.CacheRebuilds
import Bindfs.Guarantees.CacheComparators
import Bindfs.Guarantees.CacheAnswers
import Bindfs.Lib.Lockstep
import Bindfs.Guarantees.Mirroring
import Bindfs.Lib.OwnedCells
import Bindfs.Source.HandlerMemory
import Bindfs.Source.HandlerMemorySpecs
import Bindfs.Guarantees.HandlerMemory
import Bindfs.Lib.OwnedStructures
import Bindfs.Source.SettingsMemory
import Bindfs.Source.SettingsMemorySpecs
import Bindfs.Guarantees.SettingsMemory
import Bindfs.Guarantees.Confinement
import Bindfs.Lib.Progress
import Bindfs.Guarantees.CacheProgress
import Bindfs.Guarantees.RateLimitProgress
import Bindfs.Lib.Renaming
import Bindfs.Guarantees.Relabelling
import Bindfs.Guarantees.MapNormalForm
