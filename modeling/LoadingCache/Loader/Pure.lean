import LoadingCache.Storage.Refinement

/-!
# The pure loader

`pureloader.PureLoader` loads in its caller's goroutine: it asks the source, stores what the
source answered, and returns it, a negative entry as `nil`.  From any state whose storage
writes succeed, it answers each key on its own over a per-key source, which is what
`getOrLoadMulti_agrees_with_getOrLoad` asks of a loader.
-/

namespace LoadingCache.Pure

variable {σ K V : Type}

structure PureLoader (σ K V : Type) where
  source : LoadingSource K V
  storage : CacheStorage σ K V

def PureLoader.loadAndStore (p : PureLoader σ K V) (s : σ) (key : K) :
    Outcome (Option (Entry K V)) × σ :=
  match p.source.get key with
  | .error err => (some (.normal (.error err)), s)
  | .ok none => (some (.normal (.ok none)), s)
  | .ok (some cacheEntry) =>
      match p.storage.set s cacheEntry with
      | .error err => (some (.normal (.error err)), s)
      | .ok s => (some (.normal (.ok cacheEntry.result)), s)

/-- `LoadAndStoreMulti`: `entries[i]` is `&e.Entry` for a non-nil, non-negative `e`. -/
def PureLoader.loadAndStoreMulti (p : PureLoader σ K V) (s : σ) (keys : List K) :
    Outcome (List (Option (Entry K V))) × σ :=
  match p.source.getMulti keys with
  | .error err => (some (.normal (.error err)), s)
  | .ok cacheEntries =>
      match p.storage.setMulti s cacheEntries with
      | .error err => (some (.normal (.error err)), s)
      | .ok s => (some (.normal (.ok (cacheEntries.map hitResult))), s)

/-- A `PureLoader` as a `SourceLoader`. -/
def PureLoader.sourceLoader (p : PureLoader σ K V) : SourceLoader σ K V :=
  ⟨p.loadAndStore, p.loadAndStoreMulti⟩

/-- What a load of `key` returns when the source answers: the source's entry, `nil` for a
missing or negative one. -/
def sourceAnswer (source : LoadingSource K V) (key : K) : Except GoError (Option (Entry K V)) :=
  (source.get key).map hitResult

section InMemory

open MemStorage

variable [DecidableEq K] [Inhabited V] (options : Options K V) (source : LoadingSource K V)
  {s s' : InMemoryStorage K V}

theorem PureLoader.loadAndStore_inMemory
    (same : InMemoryStorage.contents options s = InMemoryStorage.contents options s') (key : K) :
    let pure : PureLoader (InMemoryStorage K V) K V :=
      ⟨source, InMemoryStorage.cacheStorage options⟩
    (pure.loadAndStore s key).1 = (pure.loadAndStore s' key).1 ∧
      InMemoryStorage.contents options (pure.loadAndStore s key).2 =
        InMemoryStorage.contents options (pure.loadAndStore s' key).2 := by
  intro pure
  simp only [pure, loadAndStore]
  rcases source.get key with _ | _ | cacheEntry
  · exact ⟨rfl, same⟩
  · exact ⟨rfl, same⟩
  · obtain ⟨t, stored⟩ : ∃ t, (InMemoryStorage.cacheStorage options).set s cacheEntry = .ok t :=
      ⟨_, rfl⟩
    obtain ⟨t', stored'⟩ :
        ∃ t', (InMemoryStorage.cacheStorage options).set s' cacheEntry = .ok t' :=
      ⟨_, rfl⟩
    simp only [stored, stored']
    rw [InMemoryStorage.contents_of_set stored, InMemoryStorage.contents_of_set stored', same]
    exact ⟨trivial, rfl⟩

theorem PureLoader.loadAndStoreMulti_inMemory
    (same : InMemoryStorage.contents options s = InMemoryStorage.contents options s')
    (keys : List K) :
    let pure : PureLoader (InMemoryStorage K V) K V :=
      ⟨source, InMemoryStorage.cacheStorage options⟩
    (pure.loadAndStoreMulti s keys).1 = (pure.loadAndStoreMulti s' keys).1 ∧
      InMemoryStorage.contents options (pure.loadAndStoreMulti s keys).2 =
        InMemoryStorage.contents options (pure.loadAndStoreMulti s' keys).2 := by
  intro pure
  simp only [pure, loadAndStoreMulti]
  rcases source.getMulti keys with _ | cacheEntries
  · exact ⟨rfl, same⟩
  · obtain ⟨t, stored⟩ :
        ∃ t, (InMemoryStorage.cacheStorage options).setMulti s cacheEntries = .ok t :=
      ⟨_, rfl⟩
    obtain ⟨t', stored'⟩ :
        ∃ t', (InMemoryStorage.cacheStorage options).setMulti s' cacheEntries = .ok t' := ⟨_, rfl⟩
    simp only [stored, stored']
    rw [InMemoryStorage.contents_of_setMulti stored, InMemoryStorage.contents_of_setMulti stored',
      same]
    exact ⟨trivial, rfl⟩

end InMemory

end LoadingCache.Pure
