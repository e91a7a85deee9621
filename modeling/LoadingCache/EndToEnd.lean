import LoadingCache.Facade
import LoadingCache.KeyHash

/-!
# Read-through caching of string keys

A `LoadingCache` over the in-memory storage finds a loaded entry again only if the storage
reads the key from the bucket it wrote it to.  The default hash of a `string` key depends on
whether `bytesBufferPool` handed out a new buffer, which it does whenever the runtime has
emptied the pool, so the `Set` of a load and a later `Get` of the same key can use different
buckets: the later `GetOrLoad` misses and asks the source again, well before the entry
expires.  `hashKey` in `Options` is the hash as it behaves at the call that uses it.
-/

namespace LoadingCache.EndToEnd
open Facade MemStorage KeyHash Pure

variable {K V : Type} [BEq K] [Inhabited V]

omit [BEq K] [Inhabited V] in
theorem getOrLoad_of_miss {σ : Type} (c : LoadingCache σ K V) {s : σ} {now : Instant} {key : K}
    (miss : c.storage.get s now key = .ok none) :
    c.getOrLoad s now key = c.loader.loadAndStore s key := by
  simp only [LoadingCache.getOrLoad, miss]

theorem getOrLoad_reloads_of_bucket_ne (hashGet hashSet : K → Int) {n : Nat} (several : n ≠ 1)
    (cloner : V → V) (source : LoadingSource K V) {key : K} {cacheEntry : CacheEntry K V}
    (answered : source.get key = .ok (some cacheEntry)) (keyed : cacheEntry.entry.key = key)
    (apart : (hashSet key).natAbs % n ≠ (hashGet key).natAbs % n) (now later : Instant) :
    let c : LoadingCache (InMemoryStorage K V) K V :=
      ⟨(PureLoader.mk source (InMemoryStorage.cacheStorage ⟨hashSet, n, cloner⟩)).sourceLoader,
        InMemoryStorage.cacheStorage ⟨hashGet, n, cloner⟩⟩
    let first := c.getOrLoad (newInMemoryStorage ⟨hashGet, n, cloner⟩) now key
    first.1 = some (.normal (.ok cacheEntry.result)) ∧
      c.storage.get first.2 later key = .ok none ∧
      c.getOrLoad first.2 later key = c.loader.loadAndStore first.2 key := by
  intro c first
  have empty : newInMemoryStorage ⟨hashGet, n, cloner⟩ =
      (.distributed ⟨n, fun _ _ => none⟩ : InMemoryStorage K V) := if_neg several
  have firstMiss : c.storage.get (newInMemoryStorage ⟨hashGet, n, cloner⟩) now key = .ok none := by
    rw [empty]; rfl
  have loaded : first = (some (.normal (.ok cacheEntry.result)), .distributed ⟨n,
      Function.update (fun _ _ => none) (bucketIndex hashSet n key).toNat
        (BucketMap.store cloner (fun _ => none) cacheEntry)⟩) := by
    simp only [first, getOrLoad_of_miss c firstMiss, empty, c, PureLoader.sourceLoader,
      PureLoader.loadAndStore, answered, InMemoryStorage.cacheStorage, DistributedStorage.set,
      DistributedStorage.storeAt, keyed]
  have missed : c.storage.get first.2 later key = .ok none := by
    rw [loaded]
    simp only [c, InMemoryStorage.cacheStorage, DistributedStorage.get,
      DistributedStorage.resolveBucket, bucketIndex_toNat, Function.update_noteq (Ne.symm apart)]
    rfl
  exact ⟨by rw [loaded], missed, getOrLoad_of_miss c missed⟩

/-- The key `"test"` under the default hash and 256 buckets.  The first `GetOrLoad` reads with
a reused buffer, misses, and loads an entry that expires at `100`; the runtime has emptied
`bytesBufferPool` before the `Set`, which hashes from a new buffer into bucket 37.  A
`GetOrLoad` at clock `1`, before the expiry, hashes from a reused buffer into bucket 219,
misses, and asks the loader, and with it the source, again. -/
theorem getOrLoad_string_key_reloads_before_expiry :
    let source : LoadingSource (List UInt8) Nat :=
      ⟨fun key => .ok (some ⟨⟨key, 7⟩, 100, false⟩),
        fun keys => .ok (keys.map fun key => some ⟨⟨key, 7⟩, 100, false⟩)⟩
    let test : List UInt8 := [116, 101, 115, 116]
    let c : LoadingCache (InMemoryStorage (List UInt8) Nat) (List UInt8) Nat :=
      ⟨(PureLoader.mk source
          (InMemoryStorage.cacheStorage ⟨fun key => (hashString [] key).1, 256, id⟩)).sourceLoader,
        InMemoryStorage.cacheStorage ⟨fun key => (hashString [[]] key).1, 256, id⟩⟩
    let first := c.getOrLoad (newInMemoryStorage ⟨fun key => (hashString [[]] key).1, 256, id⟩) 0 test
    (hashString [] test).1.natAbs % 256 = 37 ∧ (hashString [[]] test).1.natAbs % 256 = 219 ∧
      first.1 = some (.normal (.ok (some ⟨test, 7⟩))) ∧
      c.storage.get first.2 1 test = .ok none ∧
      c.getOrLoad first.2 1 test = c.loader.loadAndStore first.2 test := by
  intro source test c first
  have setBucket : (hashString [] test).1.natAbs % 256 = 37 := by
    rw [hashString_new_test]; decide
  have getBucket : (hashString [[]] test).1.natAbs % 256 = 219 := by
    rw [hashString_reused_test]; decide
  exact ⟨setBucket, getBucket, getOrLoad_reloads_of_bucket_ne _ _ (by decide) id source rfl rfl
    (by rw [setBucket, getBucket]; decide) 0 1⟩

end LoadingCache.EndToEnd
