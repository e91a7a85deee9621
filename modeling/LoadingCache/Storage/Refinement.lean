import LoadingCache.Storage.MemStorage
import LoadingCache.KeyHash

/-!
# The in-memory storages implement a TTL map

The specification `ttlMap` keeps the list of entries written so far.  A read returns the last
entry written for the key while the clock is before its expiry (cloned on the way in and on
the way out, as the storage contract asks), and `nil` otherwise; `SetMulti` writes its non-nil
entries in order.  Both storages `NewInMemoryStorage` builds answer every sequence of calls
exactly as `ttlMap` does, whatever the key hash and the bucket count.

The proof goes through `DistributedStorage.view`, the map a reader sees: the entry of each key
in that key's bucket.
-/

namespace LoadingCache

variable {σ K V : Type}

/-- A call on a storage, with the clock reading of the calls that read the clock. -/
inductive StorageCall (K V : Type) where
  | get (now : Instant) (key : K)
  | getMulti (now : Instant) (keys : List K)
  | set (entry : CacheEntry K V)
  | setMulti (entries : List (Option (CacheEntry K V)))

/-- What a storage call returns besides its error: `Set` and `SetMulti` return nothing else. -/
inductive StorageReply (K V : Type) where
  | entry (result : Option (CacheEntry K V))
  | entries (results : List (Option (CacheEntry K V)))
  | done
  deriving DecidableEq

namespace CacheStorage

/-- One call on `storage` in state `s`: the reply and the next state. -/
def call (storage : CacheStorage σ K V) (s : σ) :
    StorageCall K V → Except GoError (StorageReply K V × σ)
  | .get now key => (storage.get s now key).map fun result => (.entry result, s)
  | .getMulti now keys => (storage.getMulti s now keys).map fun results => (.entries results, s)
  | .set entry => (storage.set s entry).map fun s => (.done, s)
  | .setMulti entries => (storage.setMulti s entries).map fun s => (.done, s)

/-- A sequence of calls from state `s`: the replies, or the first error. -/
def run (storage : CacheStorage σ K V) : σ → List (StorageCall K V) →
    Except GoError (List (StorageReply K V))
  | _, [] => .ok []
  | s, c :: calls => do
      let step ← storage.call s c
      let replies ← storage.run step.2 calls
      pure (step.1 :: replies)

theorem run_eq_of_simulation {τ : Type} (storage : CacheStorage σ K V)
    (spec : CacheStorage τ K V) (related : σ → τ → Prop)
    (step : ∀ s t c, related s t → ∃ reply s' t', storage.call s c = .ok (reply, s') ∧
      spec.call t c = .ok (reply, t') ∧ related s' t')
    {s : σ} {t : τ} (hrelated : related s t) (calls : List (StorageCall K V)) :
    storage.run s calls = spec.run t calls := by
  induction calls generalizing s t with
  | nil => rfl
  | cons c calls inductionHypothesis =>
      obtain ⟨reply, s', t', hs, ht, hrelated'⟩ := step s t c hrelated
      simp only [run, hs, ht, bind, Except.bind, inductionHypothesis hrelated']

end CacheStorage

namespace MemStorage

section Specification

variable [BEq K]

/-- The last entry written for `key`, that is with a key `==` to it. -/
def lastWritten (written : List (CacheEntry K V)) (key : K) : Option (CacheEntry K V) :=
  (written.filter (·.entry.key == key)).getLast?

variable [Inhabited V]

/-- What a read returns of an entry written: its key, expiry and flag, with the zero value for
a negative entry and otherwise the value cloned on the way in and on the way out. -/
def ttlEntry (cloner : V → V) (e : CacheEntry K V) : CacheEntry K V :=
  ⟨⟨e.entry.key, if e.negativeCache then default else cloner (cloner e.entry.value)⟩,
    e.expiresAt, e.negativeCache⟩

/-- The specification of the in-memory storages.  The state is the list of entries written
so far; a read at `now` returns the last entry written for the key while `now` is before its
expiry. -/
def ttlMap (cloner : V → V) : CacheStorage (List (CacheEntry K V)) K V where
  get written now key := .ok <| (lastWritten written key).bind fun e =>
    if now < e.expiresAt then some (ttlEntry cloner e) else none
  getMulti written now keys := .ok <| keys.map fun key => (lastWritten written key).bind fun e =>
    if now < e.expiresAt then some (ttlEntry cloner e) else none
  set written entry := .ok (written ++ [entry])
  setMulti written entries := .ok (written ++ entries.filterMap id)

end Specification

variable [DecidableEq K]

theorem lastWritten_append_singleton (written : List (CacheEntry K V)) (entry : CacheEntry K V)
    (key : K) :
    lastWritten (written ++ [entry]) key =
      if entry.entry.key = key then some entry else lastWritten written key := by
  unfold lastWritten
  by_cases hit : entry.entry.key = key <;> simp [hit]

variable [Inhabited V]

omit [DecidableEq K] in
theorem cloneCacheEntry_cloneCacheEntry (cloner : V → V) (e : CacheEntry K V) :
    cloneCacheEntry cloner (cloneCacheEntry cloner e) = ttlEntry cloner e := by
  unfold cloneCacheEntry ttlEntry
  cases e.negativeCache <;> rfl

/-- The map a reader sees: what `ttlMap` stores, the clone of the last write. -/
def storedView (cloner : V → V) (written : List (CacheEntry K V)) : BucketMap K V :=
  fun key => (lastWritten written key).map (cloneCacheEntry cloner)

variable (cloner : V → V)

theorem storedView_append_singleton (written : List (CacheEntry K V)) (entry : CacheEntry K V) :
    storedView cloner (written ++ [entry]) = (storedView cloner written).store cloner entry := by
  funext key
  by_cases hit : key = entry.entry.key
  · subst hit; simp [storedView, lastWritten_append_singleton]
  · simp [storedView, lastWritten_append_singleton, BucketMap.store_of_ne _ _ _ hit,
      Ne.symm hit]

theorem storedView_storeAll (written : List (CacheEntry K V))
    (entries : List (Option (CacheEntry K V))) :
    storedView cloner (written ++ entries.filterMap id) =
      (storedView cloner written).storeAll cloner entries := by
  induction entries generalizing written with
  | nil => simp
  | cons e entries inductionHypothesis =>
      cases e with
      | none => simpa using inductionHypothesis written
      | some e =>
          rw [BucketMap.storeAll_cons_some, ← storedView_append_singleton, ← inductionHypothesis]
          simp

theorem lookup_storedView (written : List (CacheEntry K V)) (now : Instant) (key : K) :
    (storedView cloner written).lookup cloner now key =
      (lastWritten written key).bind fun e =>
        if now < e.expiresAt then some (ttlEntry cloner e) else none := by
  simp only [BucketMap.lookup, storedView]
  cases lastWritten written key <;> simp [cloneCacheEntry_cloneCacheEntry]

namespace DistributedStorage

variable (hashKey : K → Int)

/-- What a reader of `distributedStorage` sees: each key's entry in that key's bucket. -/
def view (s : DistributedStorage K V) : BucketMap K V :=
  fun key => s.buckets (bucketIndex hashKey s.bucketsSize key).toNat key

omit [DecidableEq K] in
theorem get_eq_view (s : DistributedStorage K V) (now : Instant) (key : K) :
    s.get hashKey cloner now key = (view hashKey s).lookup cloner now key := rfl

theorem getMulti_eq_view (s : DistributedStorage K V) (now : Instant) (keys : List K) :
    s.getMulti hashKey cloner now keys = keys.map ((view hashKey s).lookup cloner now) := by
  refine List.map_congr_left fun key membership => ?_
  simp [resolveBuckets_fst, membership, BucketMap.lookup, view]

theorem view_storeAt (s : DistributedStorage K V) (entry : CacheEntry K V) :
    view hashKey (s.storeAt cloner (bucketIndex hashKey s.bucketsSize entry.entry.key).toNat
      entry) = (view hashKey s).store cloner entry := by
  funext key
  by_cases hit : key = entry.entry.key
  · subst hit; simp [view, storeAt]
  · rw [BucketMap.store_of_ne _ _ _ hit]
    simp only [view, storeAt]
    by_cases sameBucket : (bucketIndex hashKey s.bucketsSize key).toNat =
        (bucketIndex hashKey s.bucketsSize entry.entry.key).toNat
    · rw [sameBucket, Function.update_same, BucketMap.store_of_ne _ _ _ hit]
    · rw [Function.update_noteq sameBucket]

theorem view_set (s : DistributedStorage K V) (entry : CacheEntry K V) :
    view hashKey (s.set hashKey cloner entry) = (view hashKey s).store cloner entry :=
  view_storeAt cloner hashKey s entry

theorem view_foldl_storeAt (indexes : K → Option Int) (entries : List (Option (CacheEntry K V)))
    (s : DistributedStorage K V)
    (located : ∀ e ∈ entries.filterMap id,
      indexes e.entry.key = some (bucketIndex hashKey s.bucketsSize e.entry.key)) :
    view hashKey (entries.foldl (fun s e => match e with
      | some e => s.storeAt cloner ((indexes e.entry.key).getD 0).toNat e
      | none => s) s) = (view hashKey s).storeAll cloner entries := by
  induction entries generalizing s with
  | nil => rfl
  | cons e entries inductionHypothesis =>
      cases e with
      | none => exact inductionHypothesis s (fun e m => located e (by simpa using m))
      | some e =>
          have here := located e (by simp)
          simp only [List.foldl_cons, BucketMap.storeAll_cons_some, here, Option.getD_some]
          rw [inductionHypothesis _ (fun e' m => by simpa using located e' (by simp [m])),
            view_storeAt]

theorem view_setMulti (s : DistributedStorage K V) (entries : List (Option (CacheEntry K V))) :
    view hashKey (s.setMulti hashKey cloner entries) =
      (view hashKey s).storeAll cloner entries := by
  refine view_foldl_storeAt cloner hashKey _ entries s fun e membership => ?_
  rw [resolveBuckets_fst, if_pos]
  obtain ⟨written, writtenMembership, hwritten⟩ := List.mem_filterMap.mp membership
  exact List.mem_filterMap.mpr ⟨written, writtenMembership, by simp_all⟩

end DistributedStorage

namespace InMemoryStorage

/-- What an in-memory storage holds for each key: the entry in the key's bucket. -/
def contents (options : Options K V) : InMemoryStorage K V → BucketMap K V
  | .single s => s.m
  | .distributed s => DistributedStorage.view options.hashKey s

theorem get_eq_contents (options : Options K V) (s : InMemoryStorage K V) (now : Instant)
    (key : K) :
    (cacheStorage options).get s now key =
      .ok ((contents options s).lookup options.cloner now key) := by
  cases s <;> rfl

theorem contents_of_set {options : Options K V} {s s' : InMemoryStorage K V}
    {entry : CacheEntry K V} (h : (cacheStorage options).set s entry = .ok s') :
    contents options s' = (contents options s).store options.cloner entry := by
  cases s <;> simp only [cacheStorage, Except.ok.injEq] at h <;> subst h
  · rfl
  · exact DistributedStorage.view_set _ _ _ _

theorem contents_of_setMulti {options : Options K V} {s s' : InMemoryStorage K V}
    {entries : List (Option (CacheEntry K V))}
    (h : (cacheStorage options).setMulti s entries = .ok s') :
    contents options s' = (contents options s).storeAll options.cloner entries := by
  cases s <;> simp only [cacheStorage, Except.ok.injEq] at h <;> subst h
  · rfl
  · exact DistributedStorage.view_setMulti _ _ _ _

theorem getMulti_eq_mapM_get (options : Options K V) (s : InMemoryStorage K V) (now : Instant)
    (keys : List K) :
    (cacheStorage options).getMulti s now keys = keys.mapM ((cacheStorage options).get s now) := by
  cases s <;>
    simp only [cacheStorage, Storage.getMulti, Storage.get, DistributedStorage.getMulti_eq_view,
      DistributedStorage.get_eq_view] <;>
    exact (mapM_ok _ _).symm

/-- How an in-memory storage stands to the specification's list of writes: a reader sees the
clone of the last write of every key. -/
def Represents (options : Options K V) : InMemoryStorage K V → List (CacheEntry K V) → Prop
  | .single s, written => s.m = storedView options.cloner written
  | .distributed s, written =>
      DistributedStorage.view options.hashKey s = storedView options.cloner written

theorem newInMemoryStorage_represents (options : Options K V) :
    Represents options (newInMemoryStorage options) [] := by
  unfold newInMemoryStorage
  split <;> rfl

theorem represents_iff_contents {options : Options K V} {s : InMemoryStorage K V}
    {written : List (CacheEntry K V)} :
    Represents options s written ↔ contents options s = storedView options.cloner written := by
  cases s <;> rfl

theorem call_simulates (options : Options K V) (s : InMemoryStorage K V)
    (written : List (CacheEntry K V)) (c : StorageCall K V) (h : Represents options s written) :
    ∃ reply s' written', (cacheStorage options).call s c = .ok (reply, s') ∧
      (ttlMap options.cloner).call written c = .ok (reply, written') ∧
      Represents options s' written' := by
  rw [represents_iff_contents] at h
  cases c with
  | get now key =>
      refine ⟨.entry ((storedView options.cloner written).lookup options.cloner now key), s,
        written, ?_, by simp [CacheStorage.call, Except.map, ttlMap, lookup_storedView],
        represents_iff_contents.mpr h⟩
      simp [CacheStorage.call, Except.map, get_eq_contents, h]
  | getMulti now keys =>
      refine ⟨.entries (keys.map fun key =>
        (storedView options.cloner written).lookup options.cloner now key), s, written, ?_,
        by simp [CacheStorage.call, Except.map, ttlMap, lookup_storedView],
        represents_iff_contents.mpr h⟩
      rw [CacheStorage.call, getMulti_eq_mapM_get, funext (get_eq_contents options s now),
        mapM_ok, h]
      rfl
  | set entry =>
      obtain ⟨s', stored⟩ : ∃ s', (cacheStorage options).set s entry = .ok s' := ⟨_, rfl⟩
      refine ⟨.done, s', written ++ [entry], by rw [CacheStorage.call, stored]; rfl, rfl, ?_⟩
      rw [represents_iff_contents, contents_of_set stored, h, storedView_append_singleton]
  | setMulti entries =>
      obtain ⟨s', stored⟩ : ∃ s', (cacheStorage options).setMulti s entries = .ok s' := ⟨_, rfl⟩
      refine ⟨.done, s', written ++ entries.filterMap id,
        by rw [CacheStorage.call, stored]; rfl, rfl, ?_⟩
      rw [represents_iff_contents, contents_of_setMulti stored, h, storedView_storeAll]

end InMemoryStorage

/-- Both storages `NewInMemoryStorage` builds, for every bucket count and every key hash,
answer every sequence of calls as the TTL map `ttlMap` does. -/
theorem newInMemoryStorage_refines_ttlMap (options : Options K V)
    (calls : List (StorageCall K V)) :
    (InMemoryStorage.cacheStorage options).run (newInMemoryStorage options) calls =
      (ttlMap options.cloner).run [] calls :=
  CacheStorage.run_eq_of_simulation _ _ (InMemoryStorage.Represents options)
    (InMemoryStorage.call_simulates options) (InMemoryStorage.newInMemoryStorage_represents options)
    calls

/-- `float64` keys under their default hash and 256 buckets.  `SetMulti` of entries for `+0.0`
and `-0.0`, which `==` identifies, writes both under `indexes[-0.0]`, bucket 69; `Get(+0.0)`
reads `resolveBucket(+0.0)`, bucket 59, and returns `nil` where `ttlMap` returns the entry of
`-0.0`. -/
theorem newInMemoryStorage_loses_positive_zero :
    let options : Options GoFloat64 Nat := ⟨KeyHash.hashFloat64, 256, id⟩
    let calls : List (StorageCall GoFloat64 Nat) :=
      [.setMulti [some ⟨⟨.posZero, 1⟩, 10, false⟩, some ⟨⟨.negZero, 2⟩, 10, false⟩],
        .get 0 .posZero]
    bucketIndex options.hashKey 256 .posZero = 59 ∧ bucketIndex options.hashKey 256 .negZero = 69 ∧
      (InMemoryStorage.cacheStorage options).run (newInMemoryStorage options) calls =
        .ok [.done, .entry none] ∧
      (ttlMap options.cloner).run [] calls =
        .ok [.done, .entry (some ⟨⟨.negZero, 2⟩, 10, false⟩)] :=
  ⟨by decide, by decide, rfl, rfl⟩

end MemStorage

end LoadingCache
