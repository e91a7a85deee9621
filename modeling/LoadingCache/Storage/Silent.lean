import LoadingCache.Facade

/-!
# The storage that hides its errors

`storage.SilentErrorStorage` wraps a storage and hides its errors: a `Get` that fails reads as
a miss, a `GetMulti` that fails as a miss on every key (`make([]…, len(keys))`), and a `Set` or
`SetMulti` that fails as done, the storage left as the failed call left it (here, as it was).
`OnError` only sees the errors; what it does with them is outside the storage's state and left
out.

Over such a storage, a loading cache with a `PureLoader` fails only as its source does:
`GetOrLoad` returns the hit the wrapped storage reads, and otherwise the source's answer; a
`GetOrLoadMulti` whose wrapped `GetMulti` fails answers every key from the source's
`GetMulti`.
-/

namespace LoadingCache.Storage

variable {σ K V : Type}

/-- `SilentErrorStorage` over `storage`. -/
def silentErrorStorage (storage : CacheStorage σ K V) : CacheStorage σ K V where
  get s now key :=
    match storage.get s now key with
    | .error _ => .ok none
    | .ok cacheEntry => .ok cacheEntry
  getMulti s now keys :=
    match storage.getMulti s now keys with
    | .error _ => .ok (List.replicate keys.length none)
    | .ok cacheEntries => .ok cacheEntries
  set s cacheEntry :=
    match storage.set s cacheEntry with
    | .error _ => .ok s
    | .ok s => .ok s
  setMulti s cacheEntries :=
    match storage.setMulti s cacheEntries with
    | .error _ => .ok s
    | .ok s => .ok s

section Silent

variable (storage : CacheStorage σ K V) (s : σ)

theorem silentErrorStorage_set_ok (cacheEntry : CacheEntry K V) :
    ∃ s', (silentErrorStorage storage).set s cacheEntry = .ok s' := by
  simp only [silentErrorStorage]
  split <;> exact ⟨_, rfl⟩

theorem silentErrorStorage_setMulti_ok (cacheEntries : List (Option (CacheEntry K V))) :
    ∃ s', (silentErrorStorage storage).setMulti s cacheEntries = .ok s' := by
  simp only [silentErrorStorage]
  split <;> exact ⟨_, rfl⟩

theorem loadAndStore_silentErrorStorage (source : LoadingSource K V) (key : K) :
    ((Pure.PureLoader.mk source (silentErrorStorage storage)).loadAndStore s key).1 =
      some (.normal (Pure.sourceAnswer source key)) := by
  simp only [Pure.PureLoader.loadAndStore, Pure.sourceAnswer]
  rcases source.get key with err | _ | cacheEntry
  · rfl
  · rfl
  · obtain ⟨s', stored⟩ := silentErrorStorage_set_ok storage s cacheEntry
    simp [stored, Except.map, hitResult]

theorem loadAndStoreMulti_silentErrorStorage (source : LoadingSource K V) (keys : List K) :
    ((Pure.PureLoader.mk source (silentErrorStorage storage)).loadAndStoreMulti s keys).1 =
      some (.normal ((source.getMulti keys).map (List.map hitResult))) := by
  simp only [Pure.PureLoader.loadAndStoreMulti]
  rcases source.getMulti keys with err | cacheEntries
  · rfl
  · obtain ⟨s', stored⟩ := silentErrorStorage_setMulti_ok storage s cacheEntries
    simp [stored, Except.map]

end Silent

section AllMissed

theorem missIndexes_replicate (i n : Nat) :
    Facade.missIndexes i (List.replicate n (none : Option (CacheEntry K V))) = List.range' i n := by
  induction n generalizing i with
  | zero => rfl
  | succ n inductionHypothesis =>
      simp [List.replicate_succ, Facade.missIndexes, inductionHypothesis, List.range'_succ]

theorem missedKeys_replicate (keys : List K) :
    Facade.missedKeys keys (List.replicate keys.length (none : Option (CacheEntry K V))) =
      keys := by
  induction keys with
  | nil => rfl
  | cons key keys inductionHypothesis =>
      simp [List.replicate_succ, Facade.missedKeys, inductionHypothesis]

theorem mergeLoaded_replicate (loaded : List (Option (Entry K V))) :
    Facade.mergeLoaded (List.replicate loaded.length (none : Option (CacheEntry K V))) loaded =
      loaded := by
  induction loaded with
  | nil => rfl
  | cons entry loaded inductionHypothesis =>
      simp [List.replicate_succ, Facade.mergeLoaded, inductionHypothesis]

end AllMissed

/-- Over a silent storage, a loading cache with a `PureLoader` never fails as its storage
does: whatever the wrapped storage answers, `GetOrLoad` returns the hit it reads, and on a
miss or a failed read the source's answer. -/
theorem getOrLoad_silentErrorStorage (source : LoadingSource K V) (storage : CacheStorage σ K V)
    (s : σ) (now : Instant) (key : K) :
    let silent := silentErrorStorage storage
    let c : Facade.LoadingCache σ K V :=
      ⟨(Pure.PureLoader.mk source silent).sourceLoader, silent⟩
    (c.getOrLoad s now key).1 = some (.normal (match storage.get s now key with
      | .ok (some cacheEntry) => .ok cacheEntry.result
      | _ => Pure.sourceAnswer source key)) := by
  intro silent c
  have loaded := loadAndStore_silentErrorStorage storage s source key
  simp only [c, silent, Facade.LoadingCache.getOrLoad, silentErrorStorage,
    Pure.PureLoader.sourceLoader]
  rcases storage.get s now key with _ | _ | cacheEntry
  · exact loaded
  · exact loaded
  · rfl

/-- Over a silent storage whose wrapped `GetMulti` fails, `GetOrLoadMulti` with a `PureLoader`
answers every key from the source's `GetMulti`, once, for all the keys in their order (and not
at all for no key), as long as the source answers one entry per key. -/
theorem getOrLoadMulti_silentErrorStorage_of_error (source : LoadingSource K V)
    (storage : CacheStorage σ K V) (s : σ) (now : Instant) (keys : List K)
    (failed : ∃ err, storage.getMulti s now keys = .error err)
    (aligned : ∀ entries, source.getMulti keys = .ok entries → entries.length = keys.length) :
    let silent := silentErrorStorage storage
    let c : Facade.LoadingCache σ K V :=
      ⟨(Pure.PureLoader.mk source silent).sourceLoader, silent⟩
    (c.getOrLoadMulti s now keys).1 = some (.normal (if keys.isEmpty then .ok []
      else (source.getMulti keys).map (List.map hitResult))) := by
  intro silent c
  obtain ⟨err, failed⟩ := failed
  have read : c.storage.getMulti s now keys = .ok (List.replicate keys.length none) := by
    simp [c, silent, silentErrorStorage, failed]
  rw [Facade.getOrLoadMulti_of_reads c s now keys read (List.length_replicate _ _),
    missIndexes_replicate, missedKeys_replicate]
  by_cases empty : keys = []
  · subst empty
    rfl
  · have asked : List.range' 0 keys.length ≠ [] := by simpa [List.range'_eq_nil] using empty
    have loaded : (c.loader.loadAndStoreMulti s keys).1 =
        some (.normal ((source.getMulti keys).map (List.map hitResult))) :=
      loadAndStoreMulti_silentErrorStorage storage s source keys
    rw [if_neg asked, if_neg (by simpa using empty)]
    generalize c.loader.loadAndStoreMulti s keys = loadedBy at loaded
    obtain ⟨outcome, s'⟩ := loadedBy
    subst loaded
    cases answered : source.getMulti keys with
    | error e => rfl
    | ok entries =>
        have sameLength : (entries.map hitResult).length = keys.length := by
          simpa using aligned entries answered
        have spliced := Facade.spliceLoaded_eq [] (List.replicate keys.length none)
          (entries.map hitResult) (by simp [missIndexes_replicate, sameLength])
        rw [← sameLength] at spliced ⊢
        simp only [List.length_nil, List.nil_append, missIndexes_replicate,
          mergeLoaded_replicate] at spliced
        simp only [List.length_map, List.map_replicate, hitResult] at spliced
        simp [Facade.fillMissing, Except.map, hitResult, spliced]

/-- A storage whose `GetMulti` always fails. -/
def getMultiFailingStorage : CacheStorage Unit Nat Nat :=
  ⟨fun _ _ _ => .ok none, fun _ _ _ => .error (.other 0), fun s _ => .ok s, fun s _ => .ok s⟩

/-- A source that has every key, its value the key. -/
def everyKeySource : LoadingSource Nat Nat :=
  ⟨fun key => .ok (some ⟨⟨key, key⟩, 0, false⟩),
    fun keys => .ok (keys.map fun key => some ⟨⟨key, key⟩, 0, false⟩)⟩

theorem getOrLoadMulti_silentErrorStorage_of_error_one_key :
    (∃ err, getMultiFailingStorage.getMulti () 0 [1] = .error err) ∧
      let silent := silentErrorStorage getMultiFailingStorage
      let c : Facade.LoadingCache Unit Nat Nat :=
        ⟨(Pure.PureLoader.mk everyKeySource silent).sourceLoader, silent⟩
      (c.getOrLoadMulti () 0 [1]).1 = some (.normal (.ok [some ⟨1, 1⟩])) :=
  ⟨⟨_, rfl⟩, getOrLoadMulti_silentErrorStorage_of_error everyKeySource getMultiFailingStorage
    () 0 [1] ⟨_, rfl⟩ fun _ answered => by cases answered; rfl⟩

end LoadingCache.Storage
