import LoadingCache.KeyHash.Registry
import LoadingCache.ValueCloner
import LoadingCache.Storage.GoLockOrder

/-!
# The options of `NewInMemoryStorage`

`NewInMemoryStorage(opts...)` starts from `defaultOptions`, whose key hash is
`keyhash.GetOrCreateKeyHash[K]()` and whose cloner is `DefaultValueCloner[V]()`, applies each
option in order, and builds one bucket when `bucketsSize = 1`, `bucketsSize` buckets otherwise.
An `Option`'s `apply` is unexported, so every option comes from a `With…` function, and
`WithBucketsSize` panics on a size that is not positive: an option never carries one
(`MemOption.bucketsSize` holds the proof).  `WithClock` sets the clock each call reads; here a
call receives the reading, so that option changes nothing the model keeps.  The registry of key
hashes is the map `GetOrCreateKeyHash` reads and writes, threaded through the call.

The defaults are made before any option is applied, so a panic of `GetOrCreateKeyHash` or of
`DefaultValueCloner` comes whatever the options.  Otherwise it builds a storage with at least
one bucket, and batched calls on a distributed one never deadlock on Go's mutexes.
-/

namespace LoadingCache.MemStorage

open KeyHash

variable {K V : Type}

/-- An `Option` of `memstorage`, as the `With…` function that made it left it. -/
inductive MemOption (K V : Type) where
  /-- `WithKeyHash(f)`: `f` applied to the key asserted back to `K`. -/
  | keyHash (f : K → Int)
  /-- `WithBucketsSize(bucketsSize)`, past its check. -/
  | bucketsSize (bucketsSize : Nat) (positive : 0 < bucketsSize)
  /-- `WithClock(clock)`. -/
  | clock
  /-- `WithCloner(cloner)`. -/
  | cloner (cloner : V → V)

/-- `WithBucketsSize`: the option, or the message it panics with. -/
def withBucketsSize (bucketsSize : Int) : Except String (MemOption K V) :=
  if positive : 0 < bucketsSize then .ok (.bucketsSize bucketsSize.toNat (by omega))
  else .error "bucketSize must be natural number"

def MemOption.apply : MemOption K V → Options K V → Options K V
  | .keyHash f, o => { o with hashKey := f }
  | .bucketsSize n _, o => { o with bucketsSize := n }
  | .clock, o => o
  | .cloner f, o => { o with cloner := f }

def defaultBucketsSize : Nat := 256

/-- `defaultOptions`, on a registry `m`, for a key type whose zero value has dynamic type
`keyType` and a value type `valueType`: `closure` is what each closure of `createKeyHashAny`
computes on the keys.  The fields are made in order, so a panic of `GetOrCreateKeyHash` comes
before one of `DefaultValueCloner`.  The options or the panic's message, and the registry
afterwards. -/
def defaultOptions (closure : Kind → K → Int) (valueType : ValueType V) (m : KeyHashMap)
    (keyType : KeyType) : Except String (Options K V) × KeyHashMap :=
  let (hashKey, m) := getOrCreateKeyHashAny m keyType
  (hashKey.bind fun f => (defaultValueCloner valueType).map fun cloner =>
    ⟨closure f, defaultBucketsSize, cloner⟩, m)

/-- The loop `for _, opt := range opts { opt.apply(&options) }`. -/
def applyOptions (options : Options K V) (opts : List (MemOption K V)) : Options K V :=
  opts.foldl (fun options opt => opt.apply options) options

/-- `NewInMemoryStorage(opts...)`: the storage and its options, or the panic's message, and the
registry afterwards. -/
def newInMemoryStorageWith (closure : Kind → K → Int) (valueType : ValueType V) (m : KeyHashMap)
    (keyType : KeyType) (opts : List (MemOption K V)) :
    Except String (InMemoryStorage K V × Options K V) × KeyHashMap :=
  let (options, m) := defaultOptions closure valueType m keyType
  (options.map fun options =>
    let options := applyOptions options opts
    (newInMemoryStorage options, options), m)

theorem applyOptions_bucketsSize_pos {options : Options K V} (positive : 0 < options.bucketsSize)
    (opts : List (MemOption K V)) : 0 < (applyOptions options opts).bucketsSize := by
  induction opts generalizing options with
  | nil => exact positive
  | cons opt opts inductionHypothesis =>
      apply inductionHypothesis
      cases opt with
      | bucketsSize n positive' => exact positive'
      | keyHash | clock | cloner => exact positive

theorem newInMemoryStorageWith_built {closure : Kind → K → Int} {valueType : ValueType V}
    {m : KeyHashMap} {keyType : KeyType} {opts : List (MemOption K V)}
    {s : InMemoryStorage K V} {options : Options K V}
    (built : (newInMemoryStorageWith closure valueType m keyType opts).1 = .ok (s, options)) :
    s = newInMemoryStorage options ∧ 0 < options.bucketsSize := by
  simp only [newInMemoryStorageWith, defaultOptions] at built
  cases made : (getOrCreateKeyHashAny m keyType).1 <;>
    cases cloned : defaultValueCloner valueType <;>
    simp [made, cloned, Except.bind, Except.map] at built
  obtain ⟨rfl, rfl⟩ := built
  exact ⟨rfl, applyOptions_bucketsSize_pos (Nat.succ_pos _) opts⟩

/-- Batched `GetMulti` and `SetMulti` calls on any distributed storage `NewInMemoryStorage`
builds, whatever its options, never deadlock on Go's mutexes: in every reachable state where a
call has not returned, some call can move. -/
theorem newInMemoryStorageWith_batches_never_deadlock [DecidableEq K] {closure : Kind → K → Int}
    {valueType : ValueType V} {m : KeyHashMap} {keyType : KeyType} {opts : List (MemOption K V)}
    {d : DistributedStorage K V} {options : Options K V}
    (built : (newInMemoryStorageWith closure valueType m keyType opts).1 =
      .ok (.distributed d, options))
    {b : GoBatches} (reachable : GoReachable d options.hashKey b)
    (running : ∃ c ∈ b.calls, c.call.returned = false) : ∃ b', GoCallStep b b' := by
  obtain ⟨same, positive⟩ := newInMemoryStorageWith_built built
  have : d.bucketsSize = options.bucketsSize := by
    unfold newInMemoryStorage at same
    split at same
    · cases same
    · cases same; rfl
  exact (reachable.inv d options.hashKey (this ▸ positive)).some_call_moves running

theorem newInMemoryStorageWith_batches_never_deadlock_int :
    (newInMemoryStorageWith (fun _ (key : Nat) => (key : Int))
        (.plain (some .int) : ValueType Nat) (fun _ => none) (.kind .int) []).1 =
      .ok (.distributed ⟨256, fun _ _ => none⟩, ⟨fun key => key, 256, nopValueCloner⟩) ∧
    ∃ b', GoCallStep ⟨fun _ => GoRWMutex.unlocked, [] ++ [⟨⟨false,
      ((⟨256, fun _ _ => none⟩ : DistributedStorage Nat Nat).sortedBuckets
        (fun key : Nat => (key : Int)) [1]).map Int.toNat, 0, false⟩, false⟩]⟩ b' :=
  have built : (newInMemoryStorageWith (fun _ (key : Nat) => (key : Int))
      (.plain (some .int) : ValueType Nat) (fun _ => none) (.kind .int) []).1 =
      .ok (.distributed ⟨256, fun _ _ => none⟩, ⟨fun key => key, 256, nopValueCloner⟩) := rfl
  ⟨built, newInMemoryStorageWith_batches_never_deadlock built (.step .init (.start false [1]))
    ⟨_, List.mem_singleton_self _, rfl⟩⟩

end LoadingCache.MemStorage
