import ConsensusLink.Retry.Config
/-!
# Configuration of a client

One record for each part of a client, each field with its default.
-/

namespace ConsensusLink

/-- The limits of the request pool. -/
structure PoolConfig where
  /-- How many requests run at once. -/
  maxConcurrentRequests : UInt64 := 16
  /-- How many admitted requests wait to run. -/
  maxQueuedRequests : UInt64 := 1024
deriving DecidableEq, Inhabited, Repr

/-- How batches are fetched and kept. -/
structure FetcherConfig where
  /-- How many batches are kept. -/
  batchCacheCapacity : UInt64 := 64
  /-- How many entries each lookup cache keeps. -/
  lookupCacheCapacity : UInt64 := 4096
  /-- How failed reads are repeated. -/
  retry : RetryConfig := {}
deriving DecidableEq, Inhabited, Repr

/-- How counts are queried. -/
structure SyncConfig where
  /-- How long a count is served without a new query, in milliseconds. -/
  countTtlMs : UInt64 := 250
  /-- How failed queries are repeated. -/
  retry : RetryConfig := {}
deriving DecidableEq, Inhabited, Repr

/-- How writes are coordinated. -/
structure SequencerConfig where
  /-- How many writes and probes wait for the coordinator. -/
  queueCapacity : UInt64 := 256
  /-- How long one attempt of a write may take, in milliseconds. -/
  writeTimeoutMs : UInt64 := 5000
  /-- How often a write is attempted again. -/
  maxWriteRetries : UInt16 := 4
  /-- How many accepted writes are remembered. -/
  recentWritesCapacity : UInt64 := 1024
deriving DecidableEq, Inhabited, Repr

/-- How the node is reached. -/
structure RpcConfig where
  /-- Where the node is. -/
  url : String := "http://127.0.0.1:8547"
  /-- How long one request may take, in milliseconds. -/
  requestTimeoutMs : UInt64 := 10000
deriving DecidableEq, Inhabited, Repr

/-- The configuration of a client. -/
structure ClientConfig where
  /-- The request pool. -/
  pool : PoolConfig := {}
  /-- Batches. -/
  batchFetcher : FetcherConfig := {}
  /-- Counts. -/
  sync : SyncConfig := {}
  /-- Writes. -/
  sequencer : SequencerConfig := {}
  /-- The node. -/
  rpc : RpcConfig := {}
deriving DecidableEq, Inhabited, Repr

/-- How failed writes and probes are repeated: as by default, but as often as configured. -/
def SequencerConfig.retry (c : SequencerConfig) : RetryConfig := { maxRetries := c.maxWriteRetries }

end ConsensusLink
