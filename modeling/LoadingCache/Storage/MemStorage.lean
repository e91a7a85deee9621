import LoadingCache.Basic

/-!
# The in-memory storage

`memstorage`: a bucket maps keys to cache entries.  `storage` keeps every key in one bucket;
`distributedStorage` keeps `len(buckets)` of them and puts a key in the bucket whose index
`resolveBucket` computes from the key's hash.  Every entry is cloned on its way in and on its
way out (`cloneCacheEntry`).  Here each call is one atomic step; the bucket locks that make
it one are modelled in `BucketLocks`.

The maps `m` and `indexes` find keys by the key type's `==` (`mapAssign`).  The lemmas of the
last section take keys whose `==` is equality; for `float64` keys it is not (`Refinement`).
-/

namespace LoadingCache.MemStorage

variable {K V : Type} [Inhabited V]

/-- A bucket's map `m`; `none` is a key with no entry. -/
abbrev BucketMap (K V : Type) := K → Option (CacheEntry K V)

/-- `options`.  `hashKey` is the key hash as it behaves at the call that uses it, and
`default` stands for the zero value of `V`. -/
structure Options (K V : Type) where
  hashKey : K → Int
  bucketsSize : Nat
  cloner : V → V

/-- `cloneCacheEntry`: a negative entry keeps its key, expiry and flag and gets the zero
value; any other entry has its value cloned. -/
def cloneCacheEntry (cloner : V → V) (v : CacheEntry K V) : CacheEntry K V :=
  if v.negativeCache then
    { entry := { key := v.entry.key, value := default }, expiresAt := v.expiresAt,
      negativeCache := true }
  else
    { entry := { key := v.entry.key, value := cloner v.entry.value },
      expiresAt := v.expiresAt, negativeCache := false }

section Clone

variable (cloner : V → V) (v : CacheEntry K V)

@[simp] theorem cloneCacheEntry_expiresAt :
    (cloneCacheEntry cloner v).expiresAt = v.expiresAt := by
  unfold cloneCacheEntry; split <;> rfl

end Clone

/-- The index `resolveBucket` and `resolveBuckets` compute: Go's `%` truncates toward zero,
and a negative remainder is negated. -/
def bucketIndex (hashKey : K → Int) (bucketsSize : Nat) (key : K) : Int :=
  let index := (hashKey key).tmod bucketsSize
  if index < 0 then index * -1 else index

theorem natAbs_tmod (a : Int) (n : Nat) : (a.tmod n).natAbs = a.natAbs % n := by
  cases a with
  | ofNat m => rfl
  | negSucc m => exact Int.natAbs_neg _

theorem bucketIndex_eq (hashKey : K → Int) (bucketsSize : Nat) (key : K) :
    bucketIndex hashKey bucketsSize key = ((hashKey key).natAbs % bucketsSize : Nat) := by
  rw [← natAbs_tmod]
  simp only [bucketIndex]
  split <;> omega

theorem bucketIndex_toNat (hashKey : K → Int) (bucketsSize : Nat) (key : K) :
    (bucketIndex hashKey bucketsSize key).toNat = (hashKey key).natAbs % bucketsSize := by
  rw [bucketIndex_eq]; omega

theorem bucketIndex_mem_range (hashKey : K → Int) {bucketsSize : Nat} (h : 0 < bucketsSize)
    (key : K) :
    0 ≤ bucketIndex hashKey bucketsSize key ∧
      bucketIndex hashKey bucketsSize key < bucketsSize := by
  have := Nat.mod_lt (hashKey key).natAbs h
  rw [bucketIndex_eq]
  omega

section GoKeys

variable [BEq K]

namespace BucketMap

/-- The read of `Get` and `GetMulti` in one bucket: a live entry, cloned on its way out. -/
def lookup (cloner : V → V) (now : Instant) (m : BucketMap K V) (key : K) :
    Option (CacheEntry K V) :=
  match m key with
  | some v => if now < v.expiresAt then some (cloneCacheEntry cloner v) else none
  | none => none

/-- The write of `Set` and `SetMulti` in one bucket: `m[entry.Key] = cloneCacheEntry(entry)`. -/
def store (cloner : V → V) (m : BucketMap K V) (entry : CacheEntry K V) : BucketMap K V :=
  mapAssign m entry.entry.key (some (cloneCacheEntry cloner entry))

/-- The loop of `storage.SetMulti`: every non-nil entry is stored, in order. -/
def storeAll (cloner : V → V) (m : BucketMap K V) (entries : List (Option (CacheEntry K V))) :
    BucketMap K V :=
  entries.foldl (fun m e => match e with | some e => m.store cloner e | none => m) m

variable (cloner : V → V) (m : BucketMap K V)

@[simp] theorem storeAll_nil : m.storeAll cloner [] = m := rfl

@[simp] theorem storeAll_cons_some (e : CacheEntry K V) (entries) :
    m.storeAll cloner (some e :: entries) = (m.store cloner e).storeAll cloner entries := rfl

@[simp] theorem storeAll_cons_none (entries) :
    m.storeAll cloner (none :: entries) = m.storeAll cloner entries := rfl

end BucketMap

/-- `storage`, what `NewInMemoryStorage` builds for `bucketsSize = 1`: one bucket. -/
structure Storage (K V : Type) where
  m : BucketMap K V

namespace Storage

variable (cloner : V → V)

def get (s : Storage K V) (now : Instant) (key : K) : Option (CacheEntry K V) :=
  s.m.lookup cloner now key

/-- `GetMulti` reads the clock once, at `now`. -/
def getMulti (s : Storage K V) (now : Instant) (keys : List K) :
    List (Option (CacheEntry K V)) :=
  keys.map (s.m.lookup cloner now)

def set (s : Storage K V) (entry : CacheEntry K V) : Storage K V :=
  ⟨s.m.store cloner entry⟩

def setMulti (s : Storage K V) (entries : List (Option (CacheEntry K V))) : Storage K V :=
  ⟨s.m.storeAll cloner entries⟩

end Storage

/-- `distributedStorage`: `buckets` indexed `0 … bucketsSize - 1`, `bucketsSize` being
`len(buckets)`. -/
structure DistributedStorage (K V : Type) where
  bucketsSize : Nat
  buckets : Nat → BucketMap K V

namespace DistributedStorage

variable (hashKey : K → Int) (cloner : V → V)

/-- `resolveBucket`: the bucket of `key`. -/
def resolveBucket (s : DistributedStorage K V) (key : K) : BucketMap K V :=
  s.buckets (bucketIndex hashKey s.bucketsSize key).toNat

/-- One key of the loop of `resolveBuckets`: `indexes[key] = index`, and the index appended
to `buckets` unless it was seen. -/
def resolveBucketsStep (s : DistributedStorage K V) (acc : (K → Option Int) × List Int)
    (key : K) : (K → Option Int) × List Int :=
  let index := bucketIndex hashKey s.bucketsSize key
  (mapAssign acc.1 key (some index), if index ∈ acc.2 then acc.2 else acc.2 ++ [index])

/-- `resolveBuckets`: the map `indexes`, and the distinct indexes in the order they are first
met (the map `seen` is membership in that list). -/
def resolveBuckets (s : DistributedStorage K V) (keys : List K) :
    (K → Option Int) × List Int :=
  keys.foldl (s.resolveBucketsStep hashKey) (fun _ => none, [])

/-- `m[key] = cloneCacheEntry(entry)` in bucket `index`. -/
def storeAt (s : DistributedStorage K V) (index : Nat) (entry : CacheEntry K V) :
    DistributedStorage K V :=
  { s with buckets := Function.update s.buckets index ((s.buckets index).store cloner entry) }

def get (s : DistributedStorage K V) (now : Instant) (key : K) : Option (CacheEntry K V) :=
  (s.resolveBucket hashKey key).lookup cloner now key

/-- `GetMulti`: a missing `indexes[key]` reads as Go's zero, `0`. -/
def getMulti (s : DistributedStorage K V) (now : Instant) (keys : List K) :
    List (Option (CacheEntry K V)) :=
  let indexes := (s.resolveBuckets hashKey keys).1
  keys.map fun key => (s.buckets ((indexes key).getD 0).toNat).lookup cloner now key

def set (s : DistributedStorage K V) (entry : CacheEntry K V) : DistributedStorage K V :=
  s.storeAt cloner (bucketIndex hashKey s.bucketsSize entry.entry.key).toNat entry

/-- `SetMulti`: each entry is written to bucket `indexes[e.Key]`, `0` when missing. -/
def setMulti (s : DistributedStorage K V) (entries : List (Option (CacheEntry K V))) :
    DistributedStorage K V :=
  let indexes := (s.resolveBuckets hashKey (entries.filterMap (Option.map (·.entry.key)))).1
  entries.foldl (fun s e => match e with
    | some e => s.storeAt cloner ((indexes e.entry.key).getD 0).toNat e
    | none => s) s

omit [Inhabited V] in
@[simp] theorem resolveBucketsStep_fst (s : DistributedStorage K V)
    (acc : (K → Option Int) × List Int) (key : K) :
    (s.resolveBucketsStep hashKey acc key).1 =
      mapAssign acc.1 key (some (bucketIndex hashKey s.bucketsSize key)) := rfl

end DistributedStorage

/-- What `NewInMemoryStorage` returns: `storage` for one bucket, `distributedStorage`
otherwise. -/
inductive InMemoryStorage (K V : Type) where
  | single (s : Storage K V)
  | distributed (s : DistributedStorage K V)

/-- `NewInMemoryStorage`: every bucket starts empty. -/
def newInMemoryStorage (options : Options K V) : InMemoryStorage K V :=
  if options.bucketsSize = 1 then .single ⟨fun _ => none⟩
  else .distributed ⟨options.bucketsSize, fun _ _ => none⟩

/-- The in-memory storages as a `CacheStorage`: no call fails. -/
def InMemoryStorage.cacheStorage (options : Options K V) :
    CacheStorage (InMemoryStorage K V) K V where
  get s now key := .ok <| match s with
    | .single s => s.get options.cloner now key
    | .distributed s => s.get options.hashKey options.cloner now key
  getMulti s now keys := .ok <| match s with
    | .single s => s.getMulti options.cloner now keys
    | .distributed s => s.getMulti options.hashKey options.cloner now keys
  set s entry := .ok <| match s with
    | .single s => .single (s.set options.cloner entry)
    | .distributed s => .distributed (s.set options.hashKey options.cloner entry)
  setMulti s entries := .ok <| match s with
    | .single s => .single (s.setMulti options.cloner entries)
    | .distributed s => .distributed (s.setMulti options.hashKey options.cloner entries)

end GoKeys

/-! ## Keys whose `==` is equality -/

section LawfulKeys

variable [DecidableEq K]

namespace BucketMap

variable (cloner : V → V) (m : BucketMap K V)

@[simp] theorem store_self (entry : CacheEntry K V) :
    m.store cloner entry entry.entry.key = some (cloneCacheEntry cloner entry) := by
  simp [store]

theorem store_of_ne (entry : CacheEntry K V) {key : K} (h : key ≠ entry.entry.key) :
    m.store cloner entry key = m key := by
  simp [store, h]

theorem storeAll_map_of_keyed (f : K → Option (CacheEntry K V))
    (keyed : ∀ key e, f key = some e → e.entry.key = key) (keys : List K) (key : K) :
    m.storeAll cloner (keys.map f) key =
      match f key with
      | some e => if key ∈ keys then some (cloneCacheEntry cloner e) else m key
      | none => m key := by
  induction keys generalizing m with
  | nil => cases f key <;> rfl
  | cons k keys inductionHypothesis =>
      rw [List.map_cons]
      by_cases hit : key = k
      · subst hit
        cases found : f key with
        | none => rw [storeAll_cons_none, inductionHypothesis, found]
        | some e =>
            rw [storeAll_cons_some, inductionHypothesis, found, ← keyed key e found, store_self]
            simp
      · cases found : f k with
        | none =>
            rw [storeAll_cons_none, inductionHypothesis]
            cases f key <;> simp [hit]
        | some e =>
            rw [storeAll_cons_some, inductionHypothesis]
            cases f key <;> simp [hit, store_of_ne _ _ _ (keyed k e found ▸ hit)]

theorem storeAll_map_congr_of_keyed (f : K → Option (CacheEntry K V))
    (keyed : ∀ key e, f key = some e → e.entry.key = key) {keys keys' : List K}
    (sameMembers : ∀ key, key ∈ keys ↔ key ∈ keys') :
    m.storeAll cloner (keys.map f) = m.storeAll cloner (keys'.map f) := by
  funext key
  simp only [storeAll_map_of_keyed _ _ f keyed, sameMembers]

end BucketMap

namespace DistributedStorage

variable (hashKey : K → Int)

omit [Inhabited V] in
theorem resolveBuckets_fst (s : DistributedStorage K V) (keys : List K) (key : K) :
    (s.resolveBuckets hashKey keys).1 key =
      if key ∈ keys then some (bucketIndex hashKey s.bucketsSize key) else none := by
  suffices ∀ acc : (K → Option Int) × List Int,
      (keys.foldl (s.resolveBucketsStep hashKey) acc).1 key =
        if key ∈ keys then some (bucketIndex hashKey s.bucketsSize key) else acc.1 key from
    this _
  induction keys with
  | nil => simp
  | cons head tail inductionHypothesis =>
      intro acc
      rw [List.foldl_cons, inductionHypothesis]
      by_cases hit : key = head
      · subst hit; simp
      · simp [hit, Function.update_noteq hit]

end DistributedStorage

end LawfulKeys

end LoadingCache.MemStorage
