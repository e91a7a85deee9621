import Mathlib.Data.List.Sort
import LoadingCache.IterUtil
import LoadingCache.Storage.MemStorage
import LoadingCache.KeyHash

/-!
# The bucket locks of the distributed in-memory storage

Each bucket of a `distributedStorage` has its own `sync.RWMutex`.  `GetMulti` and `SetMulti`
lock every bucket their keys fall in before they touch one: `resolveBuckets` lists the
distinct bucket indexes, `sort.Ints` sorts them, and the loop takes `RLock` (`GetMulti`) or
`Lock` (`SetMulti`) on each in that order, deferring the matching unlock.  The deferred calls
run at return, last deferred first.

The indexes are distinct and sorted, so the loop locks each bucket once, in ascending order,
and the deferred unlocks leave every mutex as the call found it.
-/

namespace LoadingCache.MemStorage

variable {K V : Type}

/-- `sort.Ints`.  A list of integers has one sorted permutation, so which sorting algorithm
the library runs does not matter. -/
def sortInts (xs : List Int) : List Int :=
  xs.insertionSort (· ≤ ·)

/-- The loop `for _, i := range buckets { s.buckets[i].mu.RLock(); defer ... }` of `GetMulti`,
with `lock` the mutex's `RLock`, or that of `SetMulti`, with `Lock`: the bucket mutexes
afterwards and the buckets in the order they were locked; `none` when a call waits. -/
def lockBuckets (lock : RWMutex → Option RWMutex) (mus : Nat → RWMutex) :
    List Int → Option ((Nat → RWMutex) × List Nat)
  | [] => some (mus, [])
  | index :: buckets =>
      (lock (mus index.toNat)).bind fun mu =>
        (lockBuckets lock (Function.update mus index.toNat mu) buckets).map
          fun (mus, locked) => (mus, index.toNat :: locked)

/-- The deferred `RUnlock` (or `Unlock`) calls of the loop, run at return last deferred
first. -/
def unlockBuckets (unlock : RWMutex → RWMutex) (mus : Nat → RWMutex) (locked : List Nat) :
    Nat → RWMutex :=
  locked.foldr (fun index mus => Function.update mus index (unlock (mus index))) mus

namespace DistributedStorage

variable [BEq K] (hashKey : K → Int)

/-- The bucket list of `resolveBuckets`, sorted by `sort.Ints` when it is not empty. -/
def sortedBuckets (s : DistributedStorage K V) (keys : List K) : List Int :=
  let buckets := (s.resolveBuckets hashKey keys).2
  if buckets.length ≠ 0 then sortInts buckets else buckets

/-- The read locks `GetMulti` takes before it reads. -/
def getMultiLocks (s : DistributedStorage K V) (mus : Nat → RWMutex) (keys : List K) :
    Option ((Nat → RWMutex) × List Nat) :=
  lockBuckets RWMutex.rLock mus (s.sortedBuckets hashKey keys)

/-- The write locks `SetMulti` takes before it writes: on the buckets of the keys of the
entries that are not `nil`. -/
def setMultiLocks (s : DistributedStorage K V) (mus : Nat → RWMutex)
    (entries : List (Option (CacheEntry K V))) : Option ((Nat → RWMutex) × List Nat) :=
  lockBuckets RWMutex.lock mus
    (s.sortedBuckets hashKey (entries.filterMap (Option.map (·.entry.key))))

end DistributedStorage

section Sorting

theorem mem_sortInts {xs : List Int} {index : Int} : index ∈ sortInts xs ↔ index ∈ xs :=
  (List.perm_insertionSort _ xs).mem_iff

theorem sortInts_sorted_lt {xs : List Int} (distinct : xs.Nodup) :
    (sortInts xs).Sorted (· < ·) :=
  (List.sorted_insertionSort _ xs).lt_of_le ((List.perm_insertionSort _ xs).nodup_iff.mpr distinct)

theorem sorted_map_toNat {xs : List Int} (increasing : xs.Sorted (· < ·))
    (nonneg : ∀ index ∈ xs, 0 ≤ index) : (xs.map Int.toNat).Sorted (· < ·) :=
  List.pairwise_map.mpr (increasing.imp_of_mem fun {a b} member _ lower => by
    have := nonneg a member
    omega)

end Sorting

section Loop

variable {lock : RWMutex → Option RWMutex}

theorem lockBuckets_of_free (locked : RWMutex → RWMutex) {buckets : List Int}
    (distinct : (buckets.map Int.toNat).Nodup)
    {mus : Nat → RWMutex}
    (free : ∀ index ∈ buckets, lock (mus index.toNat) = some (locked (mus index.toNat))) :
    lockBuckets lock mus buckets =
      some (fun n => if n ∈ buckets.map Int.toNat then locked (mus n) else mus n,
        buckets.map Int.toNat) := by
  induction buckets generalizing mus with
  | nil => rfl
  | cons index buckets inductionHypothesis =>
      obtain ⟨fresh, distinct⟩ := List.nodup_cons.mp distinct
      have later : ∀ other ∈ buckets, Function.update mus index.toNat
          (locked (mus index.toNat)) other.toNat = mus other.toNat := fun other member =>
        Function.update_noteq (ne_of_mem_of_not_mem (List.mem_map_of_mem _ member) fresh) _ _
      rw [lockBuckets, free index (List.mem_cons_self _ _), Option.some_bind,
        inductionHypothesis distinct fun other member => by
          rw [later other member]; exact free other (List.mem_cons_of_mem _ member)]
      simp only [Option.map_some', List.map_cons, List.mem_cons, Option.some.injEq,
        Prod.mk.injEq, and_true]
      funext n
      by_cases same : n = index.toNat
      · subst same
        simp [fresh]
      · simp [same, Function.update_noteq same]

theorem unlockBuckets_apply (unlock : RWMutex → RWMutex) (mus : Nat → RWMutex)
    {touched : List Nat} (distinct : touched.Nodup) (n : Nat) :
    unlockBuckets unlock mus touched n = if n ∈ touched then unlock (mus n) else mus n := by
  induction touched generalizing n with
  | nil => rfl
  | cons index touched inductionHypothesis =>
      obtain ⟨fresh, distinctRest⟩ := List.nodup_cons.mp distinct
      simp only [unlockBuckets, List.foldr_cons] at inductionHypothesis ⊢
      by_cases same : n = index
      · subst same
        simp [inductionHypothesis distinctRest, fresh]
      · simp [same, Function.update_noteq same, inductionHypothesis distinctRest]

end Loop
namespace DistributedStorage

variable [DecidableEq K] (hashKey : K → Int)

theorem resolveBuckets_snd (s : DistributedStorage K V) (keys : List K) :
    (s.resolveBuckets hashKey keys).2 =
      IterUtil.uniq (keys.map (bucketIndex hashKey s.bucketsSize)) := by
  suffices ∀ acc : (K → Option Int) × List Int,
      (keys.foldl (s.resolveBucketsStep hashKey) acc).2 =
        (keys.map (bucketIndex hashKey s.bucketsSize)).foldl
          (fun out v => if v ∈ out then out else out ++ [v]) acc.2 from this _
  induction keys with
  | nil => exact fun _ => rfl
  | cons key keys inductionHypothesis => exact fun acc => inductionHypothesis _

theorem sortedBuckets_eq (s : DistributedStorage K V) (keys : List K) :
    s.sortedBuckets hashKey keys =
      sortInts (IterUtil.uniq (keys.map (bucketIndex hashKey s.bucketsSize))) := by
  rw [sortedBuckets, resolveBuckets_snd]
  split
  · rfl
  · next empty => rw [List.eq_nil_of_length_eq_zero (not_not.mp empty)]; rfl

theorem mem_sortedBuckets {s : DistributedStorage K V} {keys : List K} {i : Int} :
    i ∈ s.sortedBuckets hashKey keys ↔
      ∃ key ∈ keys, bucketIndex hashKey s.bucketsSize key = i := by
  rw [sortedBuckets_eq, mem_sortInts, (IterUtil.uniq_spec _).1, List.mem_map]

theorem sortedBuckets_sorted (s : DistributedStorage K V) (keys : List K) :
    (s.sortedBuckets hashKey keys).Sorted (· < ·) := by
  rw [sortedBuckets_eq]
  exact sortInts_sorted_lt (IterUtil.uniq_spec _).2

theorem sortedBuckets_toNat_sorted {s : DistributedStorage K V} (positive : 0 < s.bucketsSize)
    (keys : List K) : ((s.sortedBuckets hashKey keys).map Int.toNat).Sorted (· < ·) :=
  sorted_map_toNat (sortedBuckets_sorted hashKey s keys) fun _ member => by
    obtain ⟨key, _, rfl⟩ := (mem_sortedBuckets hashKey).mp member
    exact (bucketIndex_mem_range hashKey positive key).1

/-- For every bucket count, every key hash and every list of keys: each index lies in
`[0, bucketsSize)`; `resolveBuckets` records for each key the index `resolveBucket` uses;
the sorted bucket list is strictly increasing, with the keys' indexes as its members.  So on
mutexes that grant their locks, `GetMulti`, and `SetMulti` on entries with these keys, lock
each bucket they touch once, in ascending order. -/
theorem sortedBuckets_lock_each_once (s : DistributedStorage K V)
    (positive : 0 < s.bucketsSize) (keys : List K) :
    let index : K → Int := bucketIndex hashKey s.bucketsSize
    let sorted : List Int := s.sortedBuckets hashKey keys
    (∀ key, 0 ≤ index key ∧ index key < s.bucketsSize) ∧
    (∀ key ∈ keys, (s.resolveBuckets hashKey keys).1 key = some (index key) ∧
      s.resolveBucket hashKey key = s.buckets (index key).toNat) ∧
    sorted.Sorted (· < ·) ∧ (∀ i, i ∈ sorted ↔ ∃ key ∈ keys, index key = i) ∧
    (sorted.map Int.toNat).Sorted (· < ·) ∧
    (∀ mus : Nat → RWMutex, (∀ key ∈ keys, (mus (index key).toNat).writer = false) →
      s.getMultiLocks hashKey mus keys =
        some (fun n => if n ∈ sorted.map Int.toNat
          then { mus n with readers := (mus n).readers + 1 } else mus n,
          sorted.map Int.toNat)) ∧
    (∀ (entries : List (Option (CacheEntry K V))) (mus : Nat → RWMutex),
      keys = entries.filterMap (Option.map (·.entry.key)) →
      (∀ key ∈ keys, (mus (index key).toNat).readers = 0 ∧
        (mus (index key).toNat).writer = false) →
      s.setMultiLocks hashKey mus entries =
        some (fun n => if n ∈ sorted.map Int.toNat then { mus n with writer := true } else mus n,
          sorted.map Int.toNat)) := by
  intro index sorted
  have ascending := sortedBuckets_toNat_sorted hashKey positive keys
  refine ⟨bucketIndex_mem_range hashKey positive,
    fun key member => ⟨by rw [resolveBuckets_fst, if_pos member], rfl⟩,
    sortedBuckets_sorted hashKey s keys, fun _ => mem_sortedBuckets hashKey, ascending,
    fun mus free => ?_, fun entries mus keysEq free => ?_⟩
  · exact lockBuckets_of_free (fun mu => { mu with readers := mu.readers + 1 }) ascending.nodup
      fun i member => by
        obtain ⟨key, listed, rfl⟩ := (mem_sortedBuckets hashKey).mp member
        exact RWMutex.rLock_of_free (free key listed)
  · rw [setMultiLocks, ← keysEq]
    exact lockBuckets_of_free (fun mu => { mu with writer := true }) ascending.nodup
      fun i member => by
        obtain ⟨key, listed, rfl⟩ := (mem_sortedBuckets hashKey).mp member
        exact RWMutex.lock_of_free (free key listed)

theorem sortedBuckets_lock_each_once_negative_hash :
    let s : DistributedStorage Int Nat := ⟨3, fun _ _ => none⟩
    let keys : List Int := [5, -4, 2, 5]
    0 < s.bucketsSize ∧ s.sortedBuckets id keys = [1, 2] ∧
      s.getMultiLocks id (fun _ => RWMutex.unlocked) keys =
        some (fun n => if n ∈ [1, 2] then ⟨1, false⟩ else RWMutex.unlocked, [1, 2]) := by
  intro s keys
  have sorted : s.sortedBuckets id keys = [1, 2] := by decide
  have locks := (sortedBuckets_lock_each_once id s (by decide) keys).2.2.2.2.2.1
    (fun _ => RWMutex.unlocked) fun _ _ => rfl
  rw [sorted] at locks
  exact ⟨by decide, sorted, locks⟩

/-- `float64` keys under their default hash and 256 buckets.  `SetMulti` of an entry for
`NaN` locks `resolveBucket(NaN)`, bucket 123, but `indexes[NaN]` is never found, so it writes
the entry to bucket `0`, which it has not locked.  Of the keys `[+0.0, -0.0]`, which `==`
identifies, `indexes[+0.0]` is `-0.0`'s bucket 69 while `resolveBucket(+0.0)` is bucket 59. -/
theorem resolveBuckets_disagrees_on_float_keys :
    let s : DistributedStorage GoFloat64 Nat := ⟨256, fun _ _ => none⟩
    let hashKey := KeyHash.hashFloat64
    let e : CacheEntry GoFloat64 Nat := ⟨⟨.nan, 1⟩, 10, false⟩
    bucketIndex hashKey 256 .nan = 123 ∧
      (s.setMultiLocks hashKey (fun _ => RWMutex.unlocked) [some e]).map Prod.snd = some [123] ∧
      ((s.resolveBuckets hashKey [.nan]).1 .nan).getD 0 = 0 ∧
      bucketIndex hashKey 256 .posZero = 59 ∧
      (s.resolveBuckets hashKey [.posZero, .negZero]).1 .posZero = some 69 :=
  ⟨by decide, rfl, rfl, by decide, rfl⟩

end DistributedStorage

end LoadingCache.MemStorage
