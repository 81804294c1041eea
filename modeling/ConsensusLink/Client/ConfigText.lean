import ConsensusLink.Bytes
import ConsensusLink.Client.Config
import ConsensusLink.Text.Json
import ConsensusLink.Text.TomlReader
/-!
# Configurations as texts

A configuration is written in TOML, with one table for each part of a client. What is left out has
its default, and names that are not known here are passed over. Under the same names `toJson` shows
a whole configuration.
-/

namespace ConsensusLink

/-- Why there is no configuration. -/
inductive ConfigFailure where
  /-- Its file could not be read as a text. -/
  | unreadable (reason : String)
  /-- Its text is no configuration. -/
  | unparsable
deriving DecidableEq, Inhabited, Repr

/-- The wording of a failure. -/
def ConfigFailure.message : ConfigFailure → String
  | unreadable reason => "io: " ++ reason
  | unparsable => "unparsable config: not a valid configuration"

/-- The retry settings that a record holds. -/
def RetryConfig.ofToml? (t : Toml) : Option RetryConfig := do
  let d : RetryConfig := {}
  match ← t.record? ["max_retries", "base_delay_ms", "multiplier_pct", "max_delay_ms"] with
  | [maxRetries, baseDelay, multiplier, maxDelay] =>
    return {
      maxRetries := ← Toml.fieldOr? Toml.shortWord? d.maxRetries maxRetries
      baseDelayMs := ← Toml.fieldOr? Toml.word? d.baseDelayMs baseDelay
      multiplierPct := ← Toml.fieldOr? Toml.word? d.multiplierPct multiplier
      maxDelayMs := ← Toml.fieldOr? Toml.word? d.maxDelayMs maxDelay }
  | _ => none

/-- The pool settings that a record holds. -/
def PoolConfig.ofToml? (t : Toml) : Option PoolConfig := do
  let d : PoolConfig := {}
  match ← t.record? ["max_concurrent_requests", "max_queued_requests"] with
  | [concurrent, queued] =>
    return {
      maxConcurrentRequests := ← Toml.fieldOr? Toml.word? d.maxConcurrentRequests concurrent
      maxQueuedRequests := ← Toml.fieldOr? Toml.word? d.maxQueuedRequests queued }
  | _ => none

/-- The batch settings that a record holds. -/
def FetcherConfig.ofToml? (t : Toml) : Option FetcherConfig := do
  let d : FetcherConfig := {}
  match ← t.record? ["batch_cache_capacity", "lookup_cache_capacity", "retry"] with
  | [batches, lookups, retry] =>
    return {
      batchCacheCapacity := ← Toml.fieldOr? Toml.word? d.batchCacheCapacity batches
      lookupCacheCapacity := ← Toml.fieldOr? Toml.word? d.lookupCacheCapacity lookups
      retry := ← Toml.fieldOr? RetryConfig.ofToml? d.retry retry }
  | _ => none

/-- The count settings that a record holds. -/
def SyncConfig.ofToml? (t : Toml) : Option SyncConfig := do
  let d : SyncConfig := {}
  match ← t.record? ["count_ttl_ms", "retry"] with
  | [ttl, retry] =>
    return {
      countTtlMs := ← Toml.fieldOr? Toml.word? d.countTtlMs ttl
      retry := ← Toml.fieldOr? RetryConfig.ofToml? d.retry retry }
  | _ => none

/-- The write settings that a record holds. -/
def SequencerConfig.ofToml? (t : Toml) : Option SequencerConfig := do
  let d : SequencerConfig := {}
  match ← t.record? ["queue_capacity", "write_timeout_ms", "max_write_retries",
      "recent_writes_capacity"] with
  | [capacity, timeout, retries, recents] =>
    return {
      queueCapacity := ← Toml.fieldOr? Toml.word? d.queueCapacity capacity
      writeTimeoutMs := ← Toml.fieldOr? Toml.word? d.writeTimeoutMs timeout
      maxWriteRetries := ← Toml.fieldOr? Toml.shortWord? d.maxWriteRetries retries
      recentWritesCapacity := ← Toml.fieldOr? Toml.word? d.recentWritesCapacity recents }
  | _ => none

/-- The connection settings that a record holds. -/
def RpcConfig.ofToml? (t : Toml) : Option RpcConfig := do
  let d : RpcConfig := {}
  match ← t.record? ["url", "request_timeout_ms"] with
  | [url, timeout] =>
    return {
      url := ← Toml.fieldOr? Toml.text? d.url url
      requestTimeoutMs := ← Toml.fieldOr? Toml.word? d.requestTimeoutMs timeout }
  | _ => none

/-- The retry settings as a JSON object. -/
def RetryConfig.toJson (c : RetryConfig) : Json :=
  .object [("max_retries", .nat c.maxRetries.toNat), ("base_delay_ms", .word c.baseDelayMs),
    ("multiplier_pct", .word c.multiplierPct), ("max_delay_ms", .word c.maxDelayMs)]

namespace ClientConfig

/-- The configuration as a JSON object. -/
def toJson (c : ClientConfig) : Json :=
  .object [
    ("pool", .object [
      ("max_concurrent_requests", .word c.pool.maxConcurrentRequests),
      ("max_queued_requests", .word c.pool.maxQueuedRequests)]),
    ("batch_fetcher", .object [
      ("batch_cache_capacity", .word c.batchFetcher.batchCacheCapacity),
      ("lookup_cache_capacity", .word c.batchFetcher.lookupCacheCapacity),
      ("retry", c.batchFetcher.retry.toJson)]),
    ("sync", .object [
      ("count_ttl_ms", .word c.sync.countTtlMs),
      ("retry", c.sync.retry.toJson)]),
    ("sequencer", .object [
      ("queue_capacity", .word c.sequencer.queueCapacity),
      ("write_timeout_ms", .word c.sequencer.writeTimeoutMs),
      ("max_write_retries", .nat c.sequencer.maxWriteRetries.toNat),
      ("recent_writes_capacity", .word c.sequencer.recentWritesCapacity)]),
    ("rpc", .object [
      ("url", .string c.rpc.url),
      ("request_timeout_ms", .word c.rpc.requestTimeoutMs)])]

/-- The configuration that a record holds. -/
def ofToml? (t : Toml) : Option ClientConfig := do
  match ← t.record? ["pool", "batch_fetcher", "sync", "sequencer", "rpc"] with
  | [pool, batchFetcher, sync, sequencer, rpc] =>
    return {
      pool := ← Toml.fieldOr? PoolConfig.ofToml? {} pool
      batchFetcher := ← Toml.fieldOr? FetcherConfig.ofToml? {} batchFetcher
      sync := ← Toml.fieldOr? SyncConfig.ofToml? {} sync
      sequencer := ← Toml.fieldOr? SequencerConfig.ofToml? {} sequencer
      rpc := ← Toml.fieldOr? RpcConfig.ofToml? {} rpc }
  | _ => none

/-- The configuration that a text describes. -/
def parse (s : String) : Except ConfigFailure ClientConfig :=
  match (Toml.read? s).bind ofToml? with
  | some c => .ok c
  | none => .error .unparsable

/-- The configuration in the bytes of a file, which must be a text in UTF-8. -/
def ofBytes (bs : Bytes) : Except ConfigFailure ClientConfig :=
  match String.fromUTF8? (ByteArray.mk bs.toArray) with
  | some s => parse s
  | none => .error (.unreadable "stream did not contain valid UTF-8")

end ClientConfig

end ConsensusLink
