import LoadingCache.Basic
import LoadingCache.KeyHash
import LoadingCache.KeyHash.Registry
import LoadingCache.KeyHash.GoRegistry
import LoadingCache.ValueCloner
import LoadingCache.IterUtil
import LoadingCache.Expiration
import LoadingCache.Storage.MemStorage
import LoadingCache.Storage.BucketLocks
import LoadingCache.Storage.LockOrder
import LoadingCache.Storage.GoLockOrder
import LoadingCache.Storage.Refinement
import LoadingCache.Storage.Linearizable
import LoadingCache.Storage.GoLinearizable
import LoadingCache.Storage.Options
import LoadingCache.Loader.SingleFlight
import LoadingCache.Loader.Protocol
import LoadingCache.Loader.Pure
import LoadingCache.Source.Adapters
import LoadingCache.Loader.Sequential
import LoadingCache.Facade
import LoadingCache.Storage.Silent
import LoadingCache.Index.Composite
import LoadingCache.Index.OnMemory
import LoadingCache.Index.IntervalUpdater
import LoadingCache.Index.Concurrent
import LoadingCache.Indexed
import LoadingCache.EndToEnd
