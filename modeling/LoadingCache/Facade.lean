import LoadingCache.Loader.Sequential

/-!
# The loading cache

`LoadingCache.GetOrLoad` reads the storage and asks the loader on a miss.  `GetOrLoadMulti`
reads all the keys in one `GetMulti`, puts each hit at its key's index (`nil` for a negative
hit), asks the loader once for the keys it missed, in their order, and writes each loaded
entry back at its key's index.  Writing or reading a slice past its end panics, as Go's
runtime does; that takes a storage or a loader whose lists are not as long as the keys asked.
-/

namespace LoadingCache.Facade

open MemStorage

variable {σ K V : Type}

/-- `LoadingCache`: a loader and the storage it writes, over one state. -/
structure LoadingCache (σ K V : Type) where
  loader : SourceLoader σ K V
  storage : CacheStorage σ K V

def LoadingCache.getOrLoad (c : LoadingCache σ K V) (s : σ) (now : Instant) (key : K) :
    Outcome (Option (Entry K V)) × σ :=
  match c.storage.get s now key with
  | .error err => (some (.normal (.error err)), s)
  | .ok (some cacheEntry) => (some (.normal (.ok cacheEntry.result)), s)
  | .ok none => c.loader.loadAndStore s key

/-- The loop of `GetOrLoadMulti` over `cacheEntries`, from index `i`: a hit goes to
`entries[i]` (a negative one stays `nil`), a miss's index to `indexes`; `none` is the panic
of `entries[i]` past its end. -/
def collectHits : Nat → List (Option (CacheEntry K V)) → List (Option (Entry K V)) →
    List Nat → Option (List (Option (Entry K V)) × List Nat)
  | _, [], entries, indexes => some (entries, indexes)
  | i, none :: rest, entries, indexes => collectHits (i + 1) rest entries (indexes ++ [i])
  | i, some cacheEntry :: rest, entries, indexes =>
      if cacheEntry.negativeCache then collectHits (i + 1) rest entries indexes
      else if i < entries.length then
        collectHits (i + 1) rest (entries.set i (some cacheEntry.entry)) indexes
      else none

/-- The loop that writes `loaded[i]` to `entries[indexes[i]]`; `none` is an index out of
range. -/
def spliceLoaded : List Nat → List (Option (Entry K V)) → List (Option (Entry K V)) →
    Option (List (Option (Entry K V)))
  | [], _, entries => some entries
  | _ :: _, [], _ => none
  | j :: indexes, entry :: loaded, entries =>
      if j < entries.length then spliceLoaded indexes loaded (entries.set j entry) else none

/-- The end of `GetOrLoadMulti` once the loader has answered: write `loaded[i]` to
`entries[indexes[i]]`, or return the loader's error. -/
def fillMissing (indexes : List Nat) (entries : List (Option (Entry K V))) :
    Outcome (List (Option (Entry K V))) × σ → Outcome (List (Option (Entry K V))) × σ
  | (some (.normal (.ok loaded)), s) =>
      match spliceLoaded indexes loaded entries with
      | some entries => (some (.normal (.ok entries)), s)
      | none => (some (.panic .indexOutOfRange), s)
  | (some (.normal (.error err)), s) => (some (.normal (.error err)), s)
  | (some (.panic p), s) => (some (.panic p), s)
  | (some .goexit, s) => (some .goexit, s)
  | (none, s) => (none, s)

def LoadingCache.getOrLoadMulti (c : LoadingCache σ K V) (s : σ) (now : Instant)
    (keys : List K) : Outcome (List (Option (Entry K V))) × σ :=
  match c.storage.getMulti s now keys with
  | .error err => (some (.normal (.error err)), s)
  | .ok cacheEntries =>
      match collectHits 0 cacheEntries (List.replicate keys.length none) [] with
      | none => (some (.panic .indexOutOfRange), s)
      | some (entries, indexes) =>
          if indexes.length = 0 then (some (.normal (.ok entries)), s)
          else match indexes.mapM fun j => keys[j]? with
            | none => (some (.panic .indexOutOfRange), s)
            | some missing => fillMissing indexes entries (c.loader.loadAndStoreMulti s missing)

/-! ## `GetOrLoadMulti` in closed form -/

/-- The indexes, from `i` on, of the misses among `cacheEntries`. -/
def missIndexes : Nat → List (Option (CacheEntry K V)) → List Nat
  | _, [] => []
  | i, none :: rest => i :: missIndexes (i + 1) rest
  | i, some _ :: rest => missIndexes (i + 1) rest

/-- The keys whose reads missed. -/
def missedKeys : List K → List (Option (CacheEntry K V)) → List K
  | key :: keys, none :: rest => key :: missedKeys keys rest
  | _ :: keys, some _ :: rest => missedKeys keys rest
  | _, _ => []

/-- The reads with their misses filled, in order, from `loaded`. -/
def mergeLoaded : List (Option (CacheEntry K V)) → List (Option (Entry K V)) →
    List (Option (Entry K V))
  | [], _ => []
  | none :: rest, entry :: loaded => entry :: mergeLoaded rest loaded
  | none :: rest, [] => none :: mergeLoaded rest []
  | some cacheEntry :: rest, loaded => cacheEntry.result :: mergeLoaded rest loaded

theorem collectHits_eq (pre : List (Option (Entry K V)))
    (cacheEntries : List (Option (CacheEntry K V))) (indexes : List Nat) :
    collectHits pre.length cacheEntries (pre ++ List.replicate cacheEntries.length none) indexes =
      some (pre ++ cacheEntries.map hitResult, indexes ++ missIndexes pre.length cacheEntries) := by
  induction cacheEntries generalizing pre indexes with
  | nil => simp [collectHits, missIndexes]
  | cons cacheEntry rest inductionHypothesis =>
      have shift : pre ++ List.replicate (rest.length + 1) none =
          pre ++ [none] ++ List.replicate rest.length none := by
        simp [List.replicate_succ]
      rw [List.length_cons, shift]
      cases cacheEntry with
      | none =>
          have := inductionHypothesis (pre ++ [none]) (indexes ++ [pre.length])
          rw [List.length_append, List.length_singleton] at this
          simp only [collectHits]
          rw [this]
          simp [missIndexes, hitResult]
      | some cacheEntry =>
          by_cases negative : cacheEntry.negativeCache
          · have := inductionHypothesis (pre ++ [none]) indexes
            rw [List.length_append, List.length_singleton] at this
            simp only [collectHits, negative, if_true]
            rw [this]
            simp [missIndexes, hitResult, CacheEntry.result, negative]
          · have := inductionHypothesis (pre ++ [some cacheEntry.entry]) indexes
            rw [List.length_append, List.length_singleton] at this
            have filled : (pre ++ [none] ++ List.replicate rest.length none).set pre.length
                (some cacheEntry.entry) =
                  pre ++ [some cacheEntry.entry] ++ List.replicate rest.length none := by
              simp [List.set_append_right]
            simp only [collectHits, negative, if_false, Bool.false_eq_true]
            rw [if_pos (by simp), filled, this]
            simp [missIndexes, hitResult, CacheEntry.result, negative]

theorem spliceLoaded_eq (pre : List (Option (Entry K V)))
    (cacheEntries : List (Option (CacheEntry K V))) (loaded : List (Option (Entry K V)))
    (aligned : loaded.length = (missIndexes pre.length cacheEntries).length) :
    spliceLoaded (missIndexes pre.length cacheEntries) loaded (pre ++ cacheEntries.map hitResult) =
      some (pre ++ mergeLoaded cacheEntries loaded) := by
  induction cacheEntries generalizing pre loaded with
  | nil =>
      cases loaded with
      | nil => rfl
      | cons _ _ => simp [missIndexes] at aligned
  | cons cacheEntry rest inductionHypothesis =>
      cases cacheEntry with
      | none =>
          cases loaded with
          | nil => simp [missIndexes] at aligned
          | cons entry loaded =>
              have := inductionHypothesis (pre ++ [entry]) loaded
                (by simpa [missIndexes] using aligned)
              rw [List.length_append, List.length_singleton] at this
              have filled : (pre ++ none :: rest.map hitResult).set pre.length entry =
                  pre ++ [entry] ++ rest.map hitResult := by
                simp [List.set_append_right]
              simp only [missIndexes, List.map_cons, spliceLoaded, hitResult]
              rw [if_pos (by simp), filled, this]
              simp [mergeLoaded]
      | some cacheEntry =>
          have := inductionHypothesis (pre ++ [cacheEntry.result]) loaded
            (by simpa [missIndexes] using aligned)
          rw [List.length_append, List.length_singleton] at this
          simp only [missIndexes, List.map_cons, hitResult]
          rw [← List.singleton_append, ← List.append_assoc, this]
          simp [mergeLoaded]

theorem mapM_missIndexes (pre keys : List K) (cacheEntries : List (Option (CacheEntry K V)))
    (aligned : cacheEntries.length = keys.length) :
    (missIndexes pre.length cacheEntries).mapM (fun j => (pre ++ keys)[j]?) =
      some (missedKeys keys cacheEntries) := by
  induction cacheEntries generalizing pre keys with
  | nil => cases keys <;> rfl
  | cons cacheEntry rest inductionHypothesis =>
      cases keys with
      | nil => simp at aligned
      | cons key keys =>
          have := inductionHypothesis (pre ++ [key]) keys (by simpa using aligned)
          rw [List.length_append, List.length_singleton, List.append_assoc,
            List.singleton_append] at this
          cases cacheEntry with
          | none =>
              simp only [missIndexes, missedKeys, List.mapM_cons, this]
              simp only [Option.bind_eq_bind, pure, List.getElem?_append_right (Nat.le_refl _),
                Nat.sub_self, List.getElem?_cons_zero, Option.some_bind]
          | some _ => simpa [missIndexes, missedKeys] using this

/-- Whether the read of `key` missed. -/
def missed (storage : CacheStorage σ K V) (s : σ) (now : Instant) (key : K) : Bool :=
  match storage.get s now key with
  | .ok none => true
  | _ => false

theorem getOrLoadMulti_of_reads (c : LoadingCache σ K V) (s : σ) (now : Instant) (keys : List K)
    {cacheEntries : List (Option (CacheEntry K V))}
    (read : c.storage.getMulti s now keys = .ok cacheEntries)
    (aligned : cacheEntries.length = keys.length) :
    c.getOrLoadMulti s now keys =
      if missIndexes 0 cacheEntries = [] then (some (.normal (.ok (cacheEntries.map hitResult))), s)
      else fillMissing (missIndexes 0 cacheEntries) (cacheEntries.map hitResult)
        (c.loader.loadAndStoreMulti s (missedKeys keys cacheEntries)) := by
  have collected := collectHits_eq [] cacheEntries []
  have missing := mapM_missIndexes [] keys cacheEntries aligned
  simp only [List.length_nil, List.nil_append, aligned] at collected missing
  simp only [LoadingCache.getOrLoadMulti, read, collected, List.length_eq_zero]
  split
  · rfl
  · rw [missing]

end LoadingCache.Facade
