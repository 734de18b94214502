import AtomicMemory.Lib.Machine
import AtomicMemory.Lib.PercentEncoding
import AtomicMemory.Lib.RequestTarget
import AtomicMemory.Lib.DotSegments
import AtomicMemory.Lib.Calendar
import AtomicMemory.Lib.DateTime
import AtomicMemory.Lib.TimestampOrder
import AtomicMemory.Lib.PyValue
import AtomicMemory.Lib.PyFold
import AtomicMemory.Lib.Raises
import AtomicMemory.Lib.JsonSchema
import AtomicMemory.Core.Errors
import AtomicMemory.Core.ErrorHierarchy
import AtomicMemory.Core.Python
import AtomicMemory.Core.Url
import AtomicMemory.Memory.Types
import AtomicMemory.Memory.IngestInput
import AtomicMemory.Memory.Filters
import AtomicMemory.Contract.V1
import AtomicMemory.Contract.Schema
import AtomicMemory.Contract.WireForm
import AtomicMemory.Contract.Strict
import AtomicMemory.Contract.Containment
import AtomicMemory.Contract.Encoding
import AtomicMemory.Contract.Timestamps
import AtomicMemory.Contract.RoundTrip
import AtomicMemory.Contract.Jsonify
import AtomicMemory.Contract.IngestCodec
import AtomicMemory.Contract.SearchRequestCodec
import AtomicMemory.Lib.AnyValue
import AtomicMemory.Contract.AnyMetadata
import AtomicMemory.Contract.PureJson
import AtomicMemory.Providers.Http
import AtomicMemory.Providers.AtomicMemoryProvider
import AtomicMemory.Providers.Mem0Provider
import AtomicMemory.Providers.HindsightProvider
import AtomicMemory.Providers.ThreadIsolation
import AtomicMemory.Providers.RequestTargets
import AtomicMemory.Providers.AtomicMemoryHandle
import AtomicMemory.Entities.EntitiesClient
import AtomicMemory.Storage.StorageClient
import AtomicMemory.Providers.PathSegments
import AtomicMemory.Providers.AdminRoutes
import AtomicMemory.Providers.PendingIngest
import AtomicMemory.Providers.DeferredInference
import AtomicMemory.Providers.ScopeLabels
import AtomicMemory.Providers.ScopeGate
import AtomicMemory.Providers.ErrorTransparency
import AtomicMemory.Lib.Pagination
import AtomicMemory.Providers.Pagination
import AtomicMemory.Providers.PageNumbers
import AtomicMemory.Providers.CursorProgress
import AtomicMemory.Providers.ScopeTags
import AtomicMemory.Providers.Health
import AtomicMemory.Providers.HandleReads
import AtomicMemory.Providers.ScopeEcho
import AtomicMemory.Providers.RecordFields
import AtomicMemory.Providers.GetSurfaces
import AtomicMemory.Memory.Service
import AtomicMemory.Memory.ServiceInitialize
import AtomicMemory.Memory.ServiceIngest
import AtomicMemory.Client.MemoryClient
import AtomicMemory.Client.AsyncMemoryClient
import AtomicMemory.Client.AsyncSteps
import AtomicMemory.Client.SingleFlight
import AtomicMemory.Client.ProviderLeak
import AtomicMemory.Client.NormalReturn
import AtomicMemory.Client.StickyInitialization
import AtomicMemory.Client.Config
import AtomicMemory.Client.ConfigErrors
import AtomicMemory.Lib.KeyedTable
import AtomicMemory.Lib.ExpiringStore
import AtomicMemory.KvCache.StorageAdapter
import AtomicMemory.KvCache.MemoryStorage
import AtomicMemory.KvCache.SqliteStorage
import AtomicMemory.KvCache.Presence
import AtomicMemory.KvCache.Interchangeable
import AtomicMemory.KvCache.EvictionTiming
import AtomicMemory.KvCache.KeyOrder
import AtomicMemory.KvCache.ConcurrentWriters
import AtomicMemory.Lib.Coroutine
import AtomicMemory.Lib.CallTree
import AtomicMemory.Lib.Inet
import AtomicMemory.Lib.Inet6
import AtomicMemory.Lib.PyText
import AtomicMemory.Lib.UrlSplit
import AtomicMemory.Lib.AddressBlocks
import AtomicMemory.Core.Retry
import AtomicMemory.Memory.MetaFactFilter
import AtomicMemory.Lib.PydanticModel
import AtomicMemory.Tools.Models
import AtomicMemory.Tools.MemoryTools
import AtomicMemory.Tools.SearchProjection
import AtomicMemory.Lib.StableSort
import AtomicMemory.Search.Similarity
import AtomicMemory.Search.Ranking
import AtomicMemory.Search.SemanticSearch
import AtomicMemory.Lib.Loop
import AtomicMemory.Lib.Intervals
import AtomicMemory.Lib.Split
import AtomicMemory.Search.Chunking
import AtomicMemory.Search.ChunkMetadata
import AtomicMemory.Search.Grouping
import AtomicMemory.Lib.Literal
import AtomicMemory.Core.Responses
import AtomicMemory.Storage.Types
import AtomicMemory.Storage.Mapping
import AtomicMemory.Storage.StoredArtifact
import AtomicMemory.Storage.ResponseContainment
import AtomicMemory.Entities.Types
import AtomicMemory.Entities.ResponseContainment
import AtomicMemory.Lib.JsonText
import AtomicMemory.Lib.Base64
import AtomicMemory.Storage.Upload
import AtomicMemory.KvCache.SqliteSessions
import AtomicMemory.Memory.ServiceOperations
import AtomicMemory.Client.Operations
import AtomicMemory.Client.ProviderStatus
import AtomicMemory.Providers.AsyncLifecycle
import AtomicMemory.Lib.UrlAuthority
import AtomicMemory.Lib.RequestReading
import AtomicMemory.Providers.HandleRequests
import AtomicMemory.Client.RequestOrigin
import AtomicMemory.Client.AtomicMemoryClient
import AtomicMemory.Lib.Monitor
import AtomicMemory.Client.ThreadedClient
