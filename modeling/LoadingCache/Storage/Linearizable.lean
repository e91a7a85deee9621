import LoadingCache.Storage.LockOrder
import LoadingCache.Storage.Refinement

/-!
# Batched calls at once answer as the TTL map does

`LockOrder` leaves out what a batched call does once it holds its buckets.  Here a `GetMulti`
reads its keys one at a time and a `SetMulti` writes its entries one at a time, each turn of
its loop a step of its own, between which any other call may move; `Set` locks one bucket for
one write, and is one step, taken when its lock would be granted.  The state also keeps, as a
ghost, the entries of the writes that have returned, in the order they returned: the state of
the specification `ttlMap` of `Refinement`.

A key whose bucket no `SetMulti` holds reads as those entries, and one whose bucket a
`SetMulti` holds reads as those entries followed by the ones it has written so far
(`StorageCalls.Inv`).  A `GetMulti` holds its buckets with read locks while it reads, so what
it has read is what `ttlMap` answers.  The calls are linearizable: a `GetMulti` returns what
`ttlMap`'s `GetMulti` answers after the writes that returned before it
(`StorageReachable.getMulti_linearizable`), and a `SetMulti` takes effect, whole, when it
returns.

The moves of the calls that have started (`DataCallStep`) are set apart from those that start
a call, as `LockOrder` sets its `CallStep` apart.  That the calls can always all return is
proved on Go's mutexes, in `GoLinearizable`.
-/

namespace LoadingCache.MemStorage

variable {K V : Type}

/-- What a batched call does with its buckets once it holds them: `GetMulti` has read the
first keys of its list, `SetMulti` has written the first entries of its list. -/
inductive Work (K V : Type) where
  | getMulti (now : Instant) (keys : List K) (read : List (Option (CacheEntry K V)))
  | setMulti (entries : List (Option (CacheEntry K V))) (written : Nat)

namespace Work

/-- The entries a `SetMulti` has written so far. -/
def writtenSoFar : Work K V → List (Option (CacheEntry K V))
  | .getMulti .. => []
  | .setMulti entries written => entries.take written

/-- Whether the loop is over, so the call returns. -/
def done : Work K V → Bool
  | .getMulti _ keys read => read.length == keys.length
  | .setMulti entries written => written == entries.length

/-- The turns its loop has still to make. -/
def remaining : Work K V → Nat
  | .getMulti _ keys read => keys.length - read.length
  | .setMulti entries written => entries.length - written

theorem writtenSoFar_setMulti_succ {entries : List (Option (CacheEntry K V))} {written : Nat}
    {entry : Option (CacheEntry K V)} (next : entries[written]? = some entry) :
    (setMulti entries (written + 1)).writtenSoFar.filterMap id =
      (setMulti entries written).writtenSoFar.filterMap id ++ entry.toList := by
  cases entry <;> simp [writtenSoFar, List.take_succ, next]

end Work

/-- A batched call: its lock loop, as in `LockOrder`, and its work. -/
structure DataCall (K V : Type) where
  lock : BatchCall
  work : Work K V

/-- The storage's buckets and their mutexes, the batched calls that have started, and the
entries of the writes that have returned, in the order they returned. -/
structure StorageCalls (K V : Type) where
  store : DistributedStorage K V
  mus : Nat → RWMutex
  calls : List (DataCall K V)
  written : List (CacheEntry K V)

/-- The keys `SetMulti` locks the buckets of: those of its entries that are not `nil`. -/
def entryKeys (entries : List (Option (CacheEntry K V))) : List K :=
  entries.filterMap (Option.map (·.entry.key))

variable [DecidableEq K] [Inhabited V]

/-- One turn of the write loop of `SetMulti`, `indexes` being what `resolveBuckets` gave. -/
def DistributedStorage.writeEntry (cloner : V → V) (s : DistributedStorage K V)
    (indexes : K → Option Int) : Option (CacheEntry K V) → DistributedStorage K V
  | some e => s.storeAt cloner ((indexes e.entry.key).getD 0).toNat e
  | none => s

variable (hashKey : K → Int) (cloner : V → V)

/-- A move of a call that has started: it takes its next lock, reads its next key or writes its
next entry, or returns, running its deferred unlocks. -/
inductive DataCallStep : StorageCalls K V → StorageCalls K V → Prop
  | lock {t : StorageCalls K V} {i : Nat} {c : DataCall K V} {bucket : Nat} {mu : RWMutex} :
      t.calls[i]? = some c → c.lock.returned = false →
      c.lock.buckets[c.lock.taken]? = some bucket → lockOf c.lock.write (t.mus bucket) = some mu →
      DataCallStep t { t with
        mus := Function.update t.mus bucket mu
        calls := t.calls.set i ⟨c.lock.advance, c.work⟩ }
  | read {t : StorageCalls K V} {i : Nat} {c : DataCall K V} {now : Instant} {keys : List K}
      {read : List (Option (CacheEntry K V))} {key : K} :
      t.calls[i]? = some c → c.lock.returned = false → c.lock.taken = c.lock.buckets.length →
      c.work = .getMulti now keys read → keys[read.length]? = some key →
      DataCallStep t { t with calls := t.calls.set i ⟨c.lock, .getMulti now keys (read ++
        [(t.store.buckets (((t.store.resolveBuckets hashKey keys).1 key).getD 0).toNat).lookup
          cloner now key])⟩ }
  | write {t : StorageCalls K V} {i : Nat} {c : DataCall K V}
      {entries : List (Option (CacheEntry K V))} {written : Nat} {entry : Option (CacheEntry K V)} :
      t.calls[i]? = some c → c.lock.returned = false → c.lock.taken = c.lock.buckets.length →
      c.work = .setMulti entries written → entries[written]? = some entry →
      DataCallStep t { t with
        store := t.store.writeEntry cloner (t.store.resolveBuckets hashKey (entryKeys entries)).1
          entry
        calls := t.calls.set i ⟨c.lock, .setMulti entries (written + 1)⟩ }
  | ret {t : StorageCalls K V} {i : Nat} {c : DataCall K V} :
      t.calls[i]? = some c → c.lock.returned = false → c.lock.taken = c.lock.buckets.length →
      c.work.done = true →
      DataCallStep t { t with
        mus := unlockBuckets (unlockOf c.lock.write) t.mus c.lock.buckets
        calls := t.calls.set i ⟨c.lock.finish, c.work⟩
        written := t.written ++ c.work.writtenSoFar.filterMap id }

/-- A move of the system: a `GetMulti` (at clock reading `now`) or a `SetMulti` starts, a `Set`
runs, or a call moves. -/
inductive StorageStep : StorageCalls K V → StorageCalls K V → Prop
  | getMulti {t : StorageCalls K V} (now : Instant) (keys : List K) :
      StorageStep t { t with calls := t.calls ++
        [⟨⟨false, (t.store.sortedBuckets hashKey keys).map Int.toNat, 0, false⟩,
          .getMulti now keys []⟩] }
  | setMulti {t : StorageCalls K V} (entries : List (Option (CacheEntry K V))) :
      StorageStep t { t with calls := t.calls ++
        [⟨⟨true, (t.store.sortedBuckets hashKey (entryKeys entries)).map Int.toNat, 0, false⟩,
          .setMulti entries 0⟩] }
  | set {t : StorageCalls K V} (entry : CacheEntry K V) {mu : RWMutex} :
      (t.mus (bucketIndex hashKey t.store.bucketsSize entry.entry.key).toNat).lock = some mu →
      StorageStep t { t with
        store := t.store.set hashKey cloner entry
        written := t.written ++ [entry] }
  | call {t t' : StorageCalls K V} : DataCallStep hashKey cloner t t' → StorageStep t t'

/-- What `NewInMemoryStorage` builds with `bucketsSize` buckets: every bucket empty, every
mutex free, no call, and nothing written. -/
def StorageCalls.init (bucketsSize : Nat) : StorageCalls K V :=
  ⟨⟨bucketsSize, fun _ _ => none⟩, fun _ => RWMutex.unlocked, [], []⟩

/-- The states reachable from a storage with `bucketsSize` buckets. -/
inductive StorageReachable (bucketsSize : Nat) : StorageCalls K V → Prop
  | init : StorageReachable bucketsSize (StorageCalls.init bucketsSize)
  | step {t t' : StorageCalls K V} : StorageReachable bucketsSize t →
      StorageStep hashKey cloner t t' → StorageReachable bucketsSize t'

/-- The locks and calls as `LockOrder` sees them. -/
def StorageCalls.toBatches (t : StorageCalls K V) : Batches :=
  ⟨t.mus, t.calls.map DataCall.lock⟩

/-! ## Who holds a bucket -/

theorem two_le_countP {α : Type} (p : α → Bool) {l : List α} {i j : Nat} {a b : α}
    (distinct : i ≠ j) (found : l[i]? = some a) (found' : l[j]? = some b) (pa : p a = true)
    (pb : p b = true) : 2 ≤ l.countP p := by
  induction l generalizing i j with
  | nil => simp at found
  | cons x l inductionHypothesis =>
      rw [List.countP_cons]
      cases i with
      | zero =>
          cases j with
          | zero => exact absurd rfl distinct
          | succ j =>
              obtain rfl : x = a := by simpa using found
              have := List.countP_pos_iff.mpr
                ⟨b, List.getElem?_mem (show l[j]? = some b by simpa using found'), pb⟩
              simp only [pa, if_true]
              omega
      | succ i =>
          cases j with
          | zero =>
              obtain rfl : x = b := by simpa using found'
              have := List.countP_pos_iff.mpr
                ⟨a, List.getElem?_mem (show l[i]? = some a by simpa using found), pa⟩
              simp only [pb, if_true]
              omega
          | succ j =>
              have := inductionHypothesis (i := i) (j := j) (by omega) (by simpa using found)
                (by simpa using found')
              split <;> omega

namespace Batches.Inv

variable {b : Batches} {i j : Nat} {c d : BatchCall} {bucket : Nat}

theorem eq_of_writesBucket (inv : b.Inv) (found : b.calls[i]? = some c)
    (found' : b.calls[j]? = some d) (writes : c.writesBucket bucket = true)
    (holds : bucket ∈ d.held) : i = j := by
  obtain ⟨-, -, alone⟩ := inv.accounts bucket
  have writers := List.countP_pos_iff.mpr ⟨c, List.getElem?_mem found, writes⟩
  obtain ⟨single, noReads⟩ := alone writers
  by_contra distinct
  cases write : d.write
  · have : d.readsBucket bucket = true := by simp [BatchCall.readsBucket, write, holds]
    have := List.countP_pos_iff.mpr ⟨d, List.getElem?_mem found', this⟩
    omega
  · have : d.writesBucket bucket = true := by simp [BatchCall.writesBucket, write, holds]
    have := two_le_countP _ distinct found found' writes this
    omega

theorem writesBucket_eq_false (inv : b.Inv) (reads : d.readsBucket bucket = true)
    (member : d ∈ b.calls) : ∀ c ∈ b.calls, c.writesBucket bucket = false := by
  obtain ⟨-, -, alone⟩ := inv.accounts bucket
  have readers := List.countP_pos_iff.mpr ⟨d, member, reads⟩
  have noWriters : b.calls.countP (BatchCall.writesBucket bucket) = 0 := by
    by_contra busy
    have := (alone (Nat.pos_of_ne_zero busy)).2
    omega
  exact fun c member => by simpa using List.countP_eq_zero.mp noWriters c member

theorem writesBucket_eq_false_of_free (inv : b.Inv) (free : (b.mus bucket).writer = false) :
    ∀ c ∈ b.calls, c.writesBucket bucket = false := by
  have noWriters : b.calls.countP (BatchCall.writesBucket bucket) = 0 := by
    simpa [(inv.accounts bucket).writer] using free
  exact fun c member => by simpa using List.countP_eq_zero.mp noWriters c member

theorem not_mem_held_of_lock {mu : RWMutex} (inv : b.Inv)
    (granted : (b.mus bucket).lock = some mu) :
    ∀ c ∈ b.calls, bucket ∉ c.held := by
  obtain ⟨readers, writer, -⟩ := inv.accounts bucket
  unfold RWMutex.lock at granted
  split at granted
  · next free =>
      intro c member holds
      cases write : c.write
      · have : 0 < b.calls.countP (BatchCall.readsBucket bucket) :=
          List.countP_pos_iff.mpr ⟨c, member, by simp [BatchCall.readsBucket, write, holds]⟩
        omega
      · have : 0 < b.calls.countP (BatchCall.writesBucket bucket) :=
          List.countP_pos_iff.mpr ⟨c, member, by simp [BatchCall.writesBucket, write, holds]⟩
        have held : (b.mus bucket).writer = true := by rw [writer]; exact decide_eq_true this
        simp [free.2] at held
  · cases granted

end Batches.Inv

/-! ## What a key reads as -/

section Views

theorem BucketMap.store_apply (m : BucketMap K V) (e : CacheEntry K V) (key : K) :
    m.store cloner e key =
      if key = e.entry.key then some (cloneCacheEntry cloner e) else m key := by
  by_cases same : key = e.entry.key
  · subst same; simp
  · simp [BucketMap.store_of_ne _ _ _ same, same]

omit [DecidableEq K] in
theorem BucketMap.lookup_congr {m m' : BucketMap K V} {key : K} (same : m key = m' key)
    (now : Instant) : m.lookup cloner now key = m'.lookup cloner now key := by
  simp [BucketMap.lookup, same]

theorem storedView_append_of_ne {written entries later : List (CacheEntry K V)} {key : K}
    (others : ∀ e ∈ entries, e.entry.key ≠ key) :
    storedView cloner (written ++ entries ++ later) key =
      storedView cloner (written ++ later) key := by
  have dropped : entries.filter (·.entry.key == key) = [] :=
    List.filter_eq_nil_iff.mpr fun e member => by simpa using others e member
  simp only [storedView, lastWritten, List.filter_append, dropped, List.append_nil]

theorem storedView_append_eq_of_ne {written entries : List (CacheEntry K V)} {key : K}
    (others : ∀ e ∈ entries, e.entry.key ≠ key) :
    storedView cloner (written ++ entries) key = storedView cloner written key := by
  rw [← List.append_nil (written ++ entries), storedView_append_of_ne cloner others,
    List.append_nil]

@[simp] theorem DistributedStorage.writeEntry_bucketsSize (s : DistributedStorage K V)
    (indexes : K → Option Int) (e : Option (CacheEntry K V)) :
    (s.writeEntry cloner indexes e).bucketsSize = s.bucketsSize := by
  cases e <;> rfl

theorem DistributedStorage.view_writeEntry (s : DistributedStorage K V)
    (indexes : K → Option Int) (e : CacheEntry K V)
    (located : indexes e.entry.key = some (bucketIndex hashKey s.bucketsSize e.entry.key)) :
    DistributedStorage.view hashKey (s.writeEntry cloner indexes (some e)) =
      (DistributedStorage.view hashKey s).store cloner e := by
  simp only [DistributedStorage.writeEntry, located, Option.getD_some]
  exact DistributedStorage.view_storeAt cloner hashKey s e

theorem DistributedStorage.view_writeEntry_of_ne (s : DistributedStorage K V)
    (indexes : K → Option Int) {entry : Option (CacheEntry K V)} {key : K}
    (others : ∀ e, entry = some e → e.entry.key ≠ key) :
    DistributedStorage.view hashKey (s.writeEntry cloner indexes entry) key =
      DistributedStorage.view hashKey s key := by
  cases entry with
  | none => rfl
  | some e =>
      simp only [DistributedStorage.view, DistributedStorage.writeEntry,
        DistributedStorage.storeAt, Function.update_apply]
      split
      · next same => rw [same, BucketMap.store_of_ne _ _ _ (Ne.symm (others e rfl))]
      · rfl

end Views

section Lists

variable {α : Type} {l : List α} {i j : Nat} {a b x : α}

theorem getElem?_append_singleton (found : (l ++ [x])[j]? = some a) : l[j]? = some a ∨ a = x := by
  by_cases inside : j < l.length
  · exact .inl (by rwa [List.getElem?_append_left inside] at found)
  · right
    rw [List.getElem?_append_right (by omega)] at found
    exact List.mem_singleton.mp (List.getElem?_mem found)

theorem mem_set_or_eq (member : a ∈ l) (found : l[i]? = some b) (x : α) :
    a ∈ l.set i x ∨ a = b := by
  obtain ⟨j, at_j⟩ := List.mem_iff_getElem?.mp member
  by_cases same : j = i
  · subst same
    exact .inr (Option.some_injective _ (at_j.symm.trans found))
  · exact .inl (List.mem_iff_getElem?.mpr ⟨j, by rwa [List.getElem?_set_ne (Ne.symm same)]⟩)

theorem getElem?_set_cases (found : (l.set i x)[j]? = some a) :
    (j ≠ i ∧ l[j]? = some a) ∨ (j = i ∧ a = x) := by
  by_cases same : j = i
  · subst same
    rw [List.getElem?_set_self'] at found
    cases old : l[j]? <;> simp [old] at found
    exact .inr ⟨rfl, found.symm⟩
  · exact .inl ⟨same, by rwa [List.getElem?_set_ne (Ne.symm same)] at found⟩

theorem mem_set_of_getElem? (found : l[i]? = some a) (x : α) : x ∈ l.set i x :=
  List.mem_set _ _ (List.getElem?_eq_some_iff.mp found).1 _

end Lists

/-! ## The invariant -/

namespace StorageCalls

variable {t : StorageCalls K V} {i : Nat} {c : DataCall K V}

/-- The bucket of `key`, the one `resolveBucket` names. -/
def bucketOf (t : StorageCalls K V) (key : K) : Nat :=
  (bucketIndex hashKey t.store.bucketsSize key).toNat

omit [DecidableEq K] [Inhabited V] in
theorem toBatches_getElem? (found : t.calls[i]? = some c) :
    t.toBatches.calls[i]? = some c.lock := by
  simp [toBatches, found]

omit [DecidableEq K] [Inhabited V] in
theorem map_lock_set (found : t.calls[i]? = some c) (work : Work K V) :
    (t.calls.set i ⟨c.lock, work⟩).map DataCall.lock = t.calls.map DataCall.lock := by
  rw [List.map_set]
  exact set_of_getElem? (by simp [found])

omit [Inhabited V] in
theorem bucketOf_mem_sortedBuckets {key : K} {keys : List K} (listed : key ∈ keys) :
    t.bucketOf hashKey key ∈ (t.store.sortedBuckets hashKey keys).map Int.toNat :=
  List.mem_map_of_mem _ ((DistributedStorage.mem_sortedBuckets hashKey).mpr ⟨key, listed, rfl⟩)

omit [DecidableEq K] [Inhabited V] in
theorem lock_mem_toBatches (member : c ∈ t.calls) : c.lock ∈ t.toBatches.calls :=
  List.mem_map_of_mem _ member

/-- A key reads as `ttlMap`'s state followed by what the `SetMulti` holding its bucket has
written so far, and a `GetMulti` has read what `ttlMap` answers; each call takes its locks
on the buckets of its keys, as `LockOrder` has it, works only once it holds them all, and goes
no further than the end of its list. -/
structure Inv (t : StorageCalls K V) : Prop where
  positive : 0 < t.store.bucketsSize
  seen : t.toBatches.Inv
  reader : ∀ c ∈ t.calls, ∀ now keys read, c.work = .getMulti now keys read →
    c.lock.write = false ∧ (∀ key ∈ keys, t.bucketOf hashKey key ∈ c.lock.buckets) ∧
      (read ≠ [] → c.lock.taken = c.lock.buckets.length)
  writer : ∀ c ∈ t.calls, ∀ entries written, c.work = .setMulti entries written →
    c.lock.write = true ∧ (∀ key ∈ entryKeys entries, t.bucketOf hashKey key ∈ c.lock.buckets) ∧
      (written ≠ 0 → c.lock.taken = c.lock.buckets.length) ∧ written ≤ entries.length
  quiet : ∀ key, (∀ c ∈ t.calls, c.lock.writesBucket (t.bucketOf hashKey key) = false) →
    DistributedStorage.view hashKey t.store key = storedView cloner t.written key
  writing : ∀ (i : Nat) (c : DataCall K V), t.calls[i]? = some c → ∀ key,
    c.lock.writesBucket (t.bucketOf hashKey key) = true →
    DistributedStorage.view hashKey t.store key =
      storedView cloner (t.written ++ c.work.writtenSoFar.filterMap id) key
  reads : ∀ c ∈ t.calls, c.lock.returned = false → ∀ now keys read,
    c.work = .getMulti now keys read →
    read = (keys.take read.length).map ((storedView cloner t.written).lookup cloner now)

end StorageCalls

namespace StorageCalls.Inv

variable {t : StorageCalls K V} {i : Nat} {c : DataCall K V}

theorem init {bucketsSize : Nat} (positive : 0 < bucketsSize) :
    (StorageCalls.init bucketsSize : StorageCalls K V).Inv hashKey cloner where
  positive := positive
  seen := Batches.Inv.init
  reader _ member := by cases member
  writer _ member := by cases member
  quiet _ _ := rfl
  writing _ _ found := by simp [StorageCalls.init] at found
  reads _ member := by cases member

variable {hashKey cloner}

theorem writtenSoFar_eq_nil (inv : t.Inv hashKey cloner) (member : c ∈ t.calls)
    (locking : c.lock.taken ≠ c.lock.buckets.length) : c.work.writtenSoFar = [] := by
  cases work : c.work with
  | getMulti => rfl
  | setMulti entries written =>
      have := (inv.writer c member entries written work).2.2.1
      have : written = 0 := by by_contra started; exact locking (this started)
      simp [Work.writtenSoFar, this]

theorem start (inv : t.Inv hashKey cloner) (c : DataCall K V) (fresh : c.lock.taken = 0)
    (active : c.lock.returned = false)
    (reader : ∀ now keys read, c.work = .getMulti now keys read →
      c.lock.write = false ∧ (∀ key ∈ keys, t.bucketOf hashKey key ∈ c.lock.buckets) ∧ read = [])
    (writer : ∀ entries written, c.work = .setMulti entries written → c.lock.write = true ∧
      (∀ key ∈ entryKeys entries, t.bucketOf hashKey key ∈ c.lock.buckets) ∧ written = 0)
    (seen : (StorageCalls.mk t.store t.mus (t.calls ++ [c]) t.written).toBatches.Inv) :
    (StorageCalls.mk t.store t.mus (t.calls ++ [c]) t.written).Inv hashKey cloner := by
  have holdsNothing : c.lock.held = [] := by simp [BatchCall.held, active, fresh]
  refine ⟨inv.positive, seen, fun d member => ?_, fun d member => ?_, fun key quiet => ?_,
    fun j d found key writes => ?_, fun d member => ?_⟩
  · rcases List.mem_append.mp member with old | new
    · exact inv.reader d old
    · obtain rfl := List.mem_singleton.mp new
      exact fun now keys read work => by
        obtain ⟨write, located, rfl⟩ := reader now keys read work
        exact ⟨write, located, fun nonempty => absurd rfl nonempty⟩
  · rcases List.mem_append.mp member with old | new
    · exact inv.writer d old
    · obtain rfl := List.mem_singleton.mp new
      exact fun entries written work => by
        obtain ⟨write, located, rfl⟩ := writer entries written work
        exact ⟨write, located, fun started => absurd rfl started, Nat.zero_le _⟩
  · exact inv.quiet key fun d member => quiet d (List.mem_append_left _ member)
  · rcases getElem?_append_singleton found with old | rfl
    · exact inv.writing j d old key writes
    · simp [BatchCall.writesBucket_of_not_mem, holdsNothing] at writes
  · rcases List.mem_append.mp member with old | new
    · exact inv.reads d old
    · obtain rfl := List.mem_singleton.mp new
      exact fun _ now keys read work => by
        obtain ⟨-, -, rfl⟩ := reader now keys read work
        rfl

theorem lock (inv : t.Inv hashKey cloner) {bucket : Nat} {mu : RWMutex}
    (found : t.calls[i]? = some c) (active : c.lock.returned = false)
    (next : c.lock.buckets[c.lock.taken]? = some bucket)
    (granted : lockOf c.lock.write (t.mus bucket) = some mu) :
    (StorageCalls.mk t.store (Function.update t.mus bucket mu)
      (t.calls.set i ⟨c.lock.advance, c.work⟩) t.written).Inv hashKey cloner := by
  have member := List.getElem?_mem found
  have locking : c.lock.taken ≠ c.lock.buckets.length := by
    have := (List.getElem?_eq_some_iff.mp next).1
    omega
  have mover := mem_set_of_getElem? found ⟨c.lock.advance, c.work⟩
  refine ⟨inv.positive, ?_, fun d inNew => ?_, fun d inNew => ?_, fun key quiet => ?_,
    fun j d found' key writes => ?_, fun d inNew => ?_⟩
  · simpa [toBatches, List.map_set] using
      inv.seen.lock (toBatches_getElem? found) active next granted
  · rcases List.mem_or_eq_of_mem_set inNew with old | rfl
    · exact inv.reader d old
    · exact fun now keys read work => by
        obtain ⟨write, located, complete⟩ := inv.reader c member now keys read work
        exact ⟨write, located, fun nonempty => absurd (complete nonempty) locking⟩
  · rcases List.mem_or_eq_of_mem_set inNew with old | rfl
    · exact inv.writer d old
    · exact fun entries written work => by
        obtain ⟨write, located, complete, bound⟩ := inv.writer c member entries written work
        exact ⟨write, located, fun started => absurd (complete started) locking, bound⟩
  · refine inv.quiet key fun d old => ?_
    rcases mem_set_or_eq old found ⟨c.lock.advance, c.work⟩ with kept | rfl
    · exact quiet d kept
    · have := quiet _ mover
      simp only [BatchCall.writesBucket_advance active next, Bool.or_eq_false_iff] at this
      exact this.1
  · rcases getElem?_set_cases found' with ⟨_, old⟩ | ⟨rfl, rfl⟩
    · exact inv.writing j d old key writes
    · simp only [BatchCall.writesBucket_advance active next, Bool.or_eq_true,
        Bool.and_eq_true, decide_eq_true_eq] at writes
      rcases writes with held | ⟨write, same⟩
      · exact inv.writing j c found key held
      · rw [inv.writtenSoFar_eq_nil member locking, List.filterMap_nil, List.append_nil]
        have same : bucketOf hashKey t key = bucket := same
        refine inv.quiet key fun d old => BatchCall.writesBucket_of_not_mem ?_
        rw [same]
        exact inv.seen.not_mem_held_of_lock (by simpa [write] using granted) d.lock
          (lock_mem_toBatches old)
  · rcases List.mem_or_eq_of_mem_set inNew with old | rfl
    · exact inv.reads d old
    · exact fun _ => inv.reads c member active

theorem quiet_of_reading (inv : t.Inv hashKey cloner) {now : Instant} {keys : List K}
    {read : List (Option (CacheEntry K V))} {key : K} (member : c ∈ t.calls)
    (active : c.lock.returned = false) (holding : c.lock.taken = c.lock.buckets.length)
    (work : c.work = .getMulti now keys read) (listed : key ∈ keys) :
    ∀ d ∈ t.calls, d.lock.writesBucket (t.bucketOf hashKey key) = false := by
  obtain ⟨reader, located, -⟩ := inv.reader c member now keys read work
  have reads := BatchCall.readsBucket_of_mem reader
    (by rw [BatchCall.held_of_complete active holding]; exact located key listed)
  exact fun d other =>
    inv.seen.writesBucket_eq_false reads (lock_mem_toBatches member) d.lock
      (lock_mem_toBatches other)

theorem read (inv : t.Inv hashKey cloner) {now : Instant} {keys : List K}
    {read : List (Option (CacheEntry K V))} {key : K} (found : t.calls[i]? = some c)
    (active : c.lock.returned = false) (holding : c.lock.taken = c.lock.buckets.length)
    (work : c.work = .getMulti now keys read) (next : keys[read.length]? = some key) :
    (StorageCalls.mk t.store t.mus (t.calls.set i ⟨c.lock, .getMulti now keys (read ++
      [(t.store.buckets (((t.store.resolveBuckets hashKey keys).1 key).getD 0).toNat).lookup
        cloner now key])⟩) t.written).Inv hashKey cloner := by
  have member := List.getElem?_mem found
  have listed := List.getElem?_mem next
  have readAsSpec : (t.store.buckets (((t.store.resolveBuckets hashKey keys).1 key).getD
      0).toNat).lookup cloner now key = (storedView cloner t.written).lookup cloner now key := by
    rw [DistributedStorage.resolveBuckets_fst, if_pos listed, Option.getD_some]
    exact BucketMap.lookup_congr cloner
      (inv.quiet key (inv.quiet_of_reading member active holding work listed)) now
  have mover := mem_set_of_getElem? found ⟨c.lock, .getMulti now keys (read ++
    [(storedView cloner t.written).lookup cloner now key])⟩
  rw [readAsSpec]
  refine ⟨inv.positive, ?_, fun d inNew => ?_, fun d inNew => ?_, fun key' quiet => ?_,
    fun j d found' key' writes => ?_, fun d inNew => ?_⟩
  · simpa only [toBatches, map_lock_set found] using inv.seen
  · rcases List.mem_or_eq_of_mem_set inNew with old | rfl
    · exact inv.reader d old
    · rintro _ _ _ ⟨⟩
      obtain ⟨write, located, -⟩ := inv.reader c member now keys read work
      exact ⟨write, located, fun _ => holding⟩
  · rcases List.mem_or_eq_of_mem_set inNew with old | rfl
    · exact inv.writer d old
    · rintro _ _ ⟨⟩
  · refine inv.quiet key' fun d old => ?_
    rcases mem_set_or_eq old found _ with kept | rfl
    · exact quiet d kept
    · have moverQuiet := quiet _ mover
      exact moverQuiet
  · rcases getElem?_set_cases found' with ⟨_, old⟩ | ⟨rfl, rfl⟩
    · exact inv.writing j d old key' writes
    · have := inv.writing j c found key' writes
      rwa [work] at this
  · rcases List.mem_or_eq_of_mem_set inNew with old | rfl
    · exact inv.reads d old
    · rintro - _ _ _ ⟨⟩
      rw [List.length_append, List.length_singleton, List.take_succ, next, Option.toList_some,
        List.map_append, ← inv.reads c member active now keys read work]
      rfl

theorem writesBucket_of_entry (inv : t.Inv hashKey cloner) (member : c ∈ t.calls)
    (active : c.lock.returned = false) (holding : c.lock.taken = c.lock.buckets.length)
    {entries : List (Option (CacheEntry K V))} {written : Nat}
    (work : c.work = .setMulti entries written) {e : CacheEntry K V} (listed : some e ∈ entries) :
    c.lock.writesBucket (t.bucketOf hashKey e.entry.key) = true := by
  obtain ⟨write, located, -⟩ := inv.writer c member entries written work
  refine BatchCall.writesBucket_of_mem write ?_
  rw [BatchCall.held_of_complete active holding]
  exact located _ (List.mem_filterMap.mpr ⟨_, listed, rfl⟩)

theorem write (inv : t.Inv hashKey cloner) {entries : List (Option (CacheEntry K V))}
    {written : Nat} {entry : Option (CacheEntry K V)} (found : t.calls[i]? = some c)
    (active : c.lock.returned = false) (holding : c.lock.taken = c.lock.buckets.length)
    (work : c.work = .setMulti entries written) (next : entries[written]? = some entry) :
    (StorageCalls.mk (t.store.writeEntry cloner (t.store.resolveBuckets hashKey
      (entryKeys entries)).1 entry) t.mus (t.calls.set i ⟨c.lock, .setMulti entries
        (written + 1)⟩) t.written).Inv hashKey cloner := by
  have member := List.getElem?_mem found
  have mover := mem_set_of_getElem? found ⟨c.lock, .setMulti entries (written + 1)⟩
  obtain ⟨write, located, -⟩ := inv.writer c member entries written work
  have ownsEntry : ∀ e, entry = some e →
      c.lock.writesBucket (t.bucketOf hashKey e.entry.key) = true := by
    rintro e rfl
    exact inv.writesBucket_of_entry member active holding work (List.getElem?_mem next)
  have sameBucket : ∀ key, bucketOf hashKey (StorageCalls.mk (t.store.writeEntry cloner
      (t.store.resolveBuckets hashKey (entryKeys entries)).1 entry) t.mus
      (t.calls.set i ⟨c.lock, .setMulti entries (written + 1)⟩) t.written) key =
        t.bucketOf hashKey key := fun key => by simp [bucketOf]
  refine ⟨by simpa using inv.positive, ?_, fun d inNew => ?_, fun d inNew => ?_,
    fun key' quiet => ?_, fun j d found' key' writes => ?_, fun d inNew => ?_⟩
  · simpa only [toBatches, map_lock_set found] using inv.seen
  · rcases List.mem_or_eq_of_mem_set inNew with old | rfl
    · simpa only [sameBucket] using inv.reader d old
    · rintro _ _ _ ⟨⟩
  · rcases List.mem_or_eq_of_mem_set inNew with old | rfl
    · simpa only [sameBucket] using inv.writer d old
    · rintro _ _ ⟨⟩
      simp only [sameBucket]
      exact ⟨write, located, fun _ => holding, (List.getElem?_eq_some_iff.mp next).1⟩
  · simp only [sameBucket] at quiet
    have others : ∀ e, entry = some e → e.entry.key ≠ key' := by
      rintro e rfl rfl
      exact absurd (ownsEntry e rfl) (by simpa using quiet _ mover)
    rw [DistributedStorage.view_writeEntry_of_ne _ _ _ _ others]
    refine inv.quiet key' fun d old => ?_
    rcases mem_set_or_eq old found _ with kept | rfl
    · exact quiet d kept
    · have moverQuiet := quiet _ mover
      exact moverQuiet
  · rw [sameBucket] at writes
    rcases getElem?_set_cases found' with ⟨other, old⟩ | ⟨rfl, rfl⟩
    · have others : ∀ e, entry = some e → e.entry.key ≠ key' := by
        rintro e rfl rfl
        exact other (inv.seen.eq_of_writesBucket (toBatches_getElem? found)
          (toBatches_getElem? old) (ownsEntry e rfl)
          (BatchCall.mem_held_of_writesBucket writes)).symm
      rw [DistributedStorage.view_writeEntry_of_ne _ _ _ _ others]
      exact inv.writing j d old key' writes
    · have before := inv.writing j c found key' writes
      rw [work] at before
      dsimp only
      rw [Work.writtenSoFar_setMulti_succ next]
      cases entry with
      | none => simpa using before
      | some e =>
          have listed : e.entry.key ∈ entryKeys entries :=
            List.mem_filterMap.mpr ⟨_, List.getElem?_mem next, rfl⟩
          rw [DistributedStorage.view_writeEntry _ _ _ _ e
              (by rw [DistributedStorage.resolveBuckets_fst, if_pos listed]),
            Option.toList_some, ← List.append_assoc, storedView_append_singleton,
            BucketMap.store_apply, BucketMap.store_apply, before]
  · rcases List.mem_or_eq_of_mem_set inNew with old | rfl
    · exact inv.reads d old
    · rintro - _ _ _ ⟨⟩

theorem writesBucket_of_writtenSoFar (inv : t.Inv hashKey cloner) (member : c ∈ t.calls)
    (active : c.lock.returned = false) (holding : c.lock.taken = c.lock.buckets.length)
    {e : CacheEntry K V} (wrote : e ∈ c.work.writtenSoFar.filterMap id) :
    c.lock.writesBucket (t.bucketOf hashKey e.entry.key) = true := by
  cases work : c.work with
  | getMulti => simp [work, Work.writtenSoFar] at wrote
  | setMulti entries written =>
      rw [work, Work.writtenSoFar, List.mem_filterMap] at wrote
      obtain ⟨_, taken, rfl⟩ := wrote
      exact inv.writesBucket_of_entry member active holding work (List.mem_of_mem_take taken)

theorem ret (inv : t.Inv hashKey cloner) (found : t.calls[i]? = some c)
    (active : c.lock.returned = false) (holding : c.lock.taken = c.lock.buckets.length) :
    (StorageCalls.mk t.store (unlockBuckets (unlockOf c.lock.write) t.mus c.lock.buckets)
      (t.calls.set i ⟨c.lock.finish, c.work⟩)
      (t.written ++ c.work.writtenSoFar.filterMap id)).Inv hashKey cloner := by
  have member := List.getElem?_mem found
  -- what `c` wrote is in buckets it write-locks, so no other key reads it
  have untouched : ∀ key, c.lock.writesBucket (t.bucketOf hashKey key) = false →
      ∀ e ∈ c.work.writtenSoFar.filterMap id, e.entry.key ≠ key := by
    rintro key free e wrote rfl
    simp [inv.writesBucket_of_writtenSoFar member active holding wrote] at free
  refine ⟨inv.positive, ?_, fun d inNew => ?_, fun d inNew => ?_, fun key quiet => ?_,
    fun j d found' key writes => ?_, fun d inNew => ?_⟩
  · simpa [toBatches, List.map_set] using inv.seen.ret (toBatches_getElem? found) active holding
  · rcases List.mem_or_eq_of_mem_set inNew with old | rfl
    · exact inv.reader d old
    · exact inv.reader c member
  · rcases List.mem_or_eq_of_mem_set inNew with old | rfl
    · exact inv.writer d old
    · exact inv.writer c member
  · cases writes : c.lock.writesBucket (t.bucketOf hashKey key)
    · rw [storedView_append_eq_of_ne cloner (untouched key writes)]
      refine inv.quiet key fun d old => ?_
      rcases mem_set_or_eq old found _ with kept | rfl
      · exact quiet d kept
      · exact writes
    · exact inv.writing i c found key writes
  · rcases getElem?_set_cases found' with ⟨other, old⟩ | ⟨rfl, rfl⟩
    · have free : c.lock.writesBucket (t.bucketOf hashKey key) = false := by
        cases busy : c.lock.writesBucket (t.bucketOf hashKey key)
        · rfl
        · exact absurd (inv.seen.eq_of_writesBucket (toBatches_getElem? found)
            (toBatches_getElem? old) busy (BatchCall.mem_held_of_writesBucket writes)).symm other
      rw [storedView_append_of_ne cloner (untouched key free)]
      exact inv.writing j d old key writes
    · simp at writes
  · rcases List.mem_or_eq_of_mem_set inNew with old | rfl
    · intro waiting now keys read work
      refine (inv.reads d old waiting now keys read work).trans
        (List.map_congr_left fun key taken => ?_)
      have nonempty : read ≠ [] := by rintro rfl; simp at taken
      have free := inv.quiet_of_reading old waiting
        ((inv.reader d old now keys read work).2.2 nonempty) work
        (List.mem_of_mem_take taken) c member
      exact BucketMap.lookup_congr cloner
        (storedView_append_eq_of_ne cloner (untouched key free)).symm now
    · intro waiting
      simp [BatchCall.finish] at waiting

theorem set (inv : t.Inv hashKey cloner) (entry : CacheEntry K V) {mu : RWMutex}
    (granted : (t.mus (t.bucketOf hashKey entry.entry.key)).lock = some mu) :
    (StorageCalls.mk (t.store.set hashKey cloner entry) t.mus t.calls
      (t.written ++ [entry])).Inv hashKey cloner := by
  -- no call holds the bucket of the written key
  have others : ∀ key, ∀ d ∈ t.calls, t.bucketOf hashKey key ∈ d.lock.held →
      ∀ e ∈ [entry], e.entry.key ≠ key := by
    rintro key d member holds e written rfl
    obtain rfl := List.mem_singleton.mp written
    exact inv.seen.not_mem_held_of_lock granted d.lock (lock_mem_toBatches member) holds
  refine ⟨inv.positive, inv.seen, inv.reader, inv.writer, fun key quiet => ?_,
    fun j d found key writes => ?_, fun d member waiting now keys read work => ?_⟩
  · rw [DistributedStorage.view_set, storedView_append_singleton, BucketMap.store_apply,
      BucketMap.store_apply, inv.quiet key quiet]
  · have outside := others key d (List.getElem?_mem found)
      (BatchCall.mem_held_of_writesBucket writes)
    rw [DistributedStorage.view_set,
      BucketMap.store_of_ne _ _ _ (outside entry (List.mem_singleton_self _)).symm,
      storedView_append_of_ne cloner outside]
    exact inv.writing j d found key writes
  · refine (inv.reads d member waiting now keys read work).trans
      (List.map_congr_left fun key taken => ?_)
    have nonempty : read ≠ [] := by rintro rfl; simp at taken
    obtain ⟨-, located, complete⟩ := inv.reader d member now keys read work
    have holds : t.bucketOf hashKey key ∈ d.lock.held := by
      rw [BatchCall.held_of_complete waiting (complete nonempty)]
      exact located key (List.mem_of_mem_take taken)
    exact BucketMap.lookup_congr cloner
      (storedView_append_eq_of_ne cloner (others key d member holds)).symm now

theorem getMulti (inv : t.Inv hashKey cloner) (now : Instant) (keys : List K) :
    (StorageCalls.mk t.store t.mus (t.calls ++ [⟨⟨false, (t.store.sortedBuckets hashKey
      keys).map Int.toNat, 0, false⟩, .getMulti now keys []⟩]) t.written).Inv hashKey cloner :=
  inv.start _ rfl rfl
    (fun _ _ _ work => by
      cases work
      exact ⟨rfl, fun _ listed => bucketOf_mem_sortedBuckets hashKey listed, rfl⟩)
    (fun _ _ work => by cases work)
    (by simpa [toBatches] using inv.seen.start hashKey inv.positive false keys)

theorem setMulti (inv : t.Inv hashKey cloner) (entries : List (Option (CacheEntry K V))) :
    (StorageCalls.mk t.store t.mus (t.calls ++ [⟨⟨true, (t.store.sortedBuckets hashKey
      (entryKeys entries)).map Int.toNat, 0, false⟩, .setMulti entries 0⟩])
      t.written).Inv hashKey cloner :=
  inv.start _ rfl rfl (fun _ _ _ work => by cases work)
    (fun _ _ work => by
      cases work
      exact ⟨rfl, fun _ listed => bucketOf_mem_sortedBuckets hashKey listed, rfl⟩)
    (by simpa [toBatches] using inv.seen.start hashKey inv.positive true (entryKeys entries))

theorem step {t' : StorageCalls K V} (inv : t.Inv hashKey cloner)
    (moved : StorageStep hashKey cloner t t') : t'.Inv hashKey cloner := by
  cases moved with
  | getMulti now keys => exact inv.getMulti now keys
  | setMulti entries => exact inv.setMulti entries
  | set entry granted => exact inv.set entry granted
  | call moved =>
      cases moved with
      | lock found active next granted => exact inv.lock found active next granted
      | read found active holding work next => exact inv.read found active holding work next
      | write found active holding work next => exact inv.write found active holding work next
      | ret found active holding _ => exact inv.ret found active holding

theorem next_work (inv : t.Inv hashKey cloner) (member : c ∈ t.calls)
    (active : c.lock.returned = false) :
    c.work.done = true ∨
      (∃ now keys read, ∃ key : K, c.work = .getMulti now keys read ∧
        keys[read.length]? = some key) ∨
      ∃ entries written, ∃ entry : Option (CacheEntry K V),
        c.work = .setMulti entries written ∧ entries[written]? = some entry := by
  cases done : c.work.done
  · cases work : c.work with
    | getMulti now keys read =>
        have bound : read.length ≤ keys.length := by
          have := congrArg List.length (inv.reads c member active now keys read work)
          simp only [List.length_map, List.length_take] at this
          omega
        have unfinished : read.length ≠ keys.length := by simpa [work, Work.done] using done
        exact .inr (.inl ⟨now, keys, read, _, rfl, List.getElem?_eq_getElem (by omega)⟩)
    | setMulti entries written =>
        have bound := (inv.writer c member entries written work).2.2.2
        have unfinished : written ≠ entries.length := by simpa [work, Work.done] using done
        exact .inr (.inr ⟨entries, written, _, rfl, List.getElem?_eq_getElem (by omega)⟩)
  · exact .inl rfl

theorem getMulti_of_finished (inv : t.Inv hashKey cloner) (member : c ∈ t.calls)
    (active : c.lock.returned = false) {now : Instant} {keys : List K}
    {read : List (Option (CacheEntry K V))} (work : c.work = .getMulti now keys read)
    (finished : read.length = keys.length) :
    (ttlMap cloner).getMulti t.written now keys = .ok read := by
  rw [inv.reads c member active now keys read work, finished, List.take_length]
  exact congrArg Except.ok
    (List.map_congr_left fun key _ => (lookup_storedView cloner t.written now key).symm)

theorem get_of_rLock (inv : t.Inv hashKey cloner) (now : Instant) (key : K) {mu : RWMutex}
    (granted : (t.mus (t.bucketOf hashKey key)).rLock = some mu) :
    (ttlMap cloner).get t.written now key = .ok (t.store.get hashKey cloner now key) := by
  have quiet := inv.quiet key fun d member =>
    inv.seen.writesBucket_eq_false_of_free (RWMutex.writer_eq_false_of_rLock granted) d.lock
      (lock_mem_toBatches member)
  rw [DistributedStorage.get_eq_view, BucketMap.lookup_congr cloner quiet now,
    lookup_storedView]
  rfl

end StorageCalls.Inv

theorem StorageReachable.inv {bucketsSize : Nat} (positive : 0 < bucketsSize)
    {t : StorageCalls K V} (reachable : StorageReachable hashKey cloner bucketsSize t) :
    t.Inv hashKey cloner := by
  induction reachable with
  | init => exact StorageCalls.Inv.init hashKey cloner positive
  | step _ moved inv => exact inv.step moved

/-! ## Runs to a finished state -/

theorem exists_run_to_finished {σ : Type} {R : σ → σ → Prop} (measure : σ → Nat)
    (inv : σ → Prop) (finished : σ → Prop)
    (step : ∀ s s', inv s → R s s' → inv s' ∧ measure s' < measure s)
    (progress : ∀ s, inv s → ¬finished s → ∃ s', R s s') {s : σ} (holds : inv s) :
    ∃ s', Relation.ReflTransGen R s s' ∧ inv s' ∧ finished s' := by
  generalize left : measure s = n
  induction n using Nat.strong_induction_on generalizing s with
  | _ n inductionHypothesis =>
      by_cases done : finished s
      · exact ⟨s, .refl, holds, done⟩
      · obtain ⟨s', moved⟩ := progress s holds done
        obtain ⟨holds', closer⟩ := step s s' holds moved
        obtain ⟨s'', run, rest⟩ := inductionHypothesis _ (left ▸ closer) holds' rfl
        exact ⟨s'', .head moved run, rest⟩

/-! ## Linearizability -/

section Reachable

variable {bucketsSize : Nat} (positive : 0 < bucketsSize) {t : StorageCalls K V}
  (reachable : StorageReachable hashKey cloner bucketsSize t)
include positive reachable

/-- A `GetMulti` that has read all its keys and not yet returned has read what `ttlMap`'s
`GetMulti` answers after the writes that have returned, so the call takes effect at once,
between its last read and its return, however the other calls interleave. -/
theorem StorageReachable.getMulti_linearizable {i : Nat} {c : DataCall K V}
    (found : t.calls[i]? = some c) (active : c.lock.returned = false) {now : Instant}
    {keys : List K} {read : List (Option (CacheEntry K V))}
    (work : c.work = .getMulti now keys read) (finished : read.length = keys.length) :
    (ttlMap cloner).getMulti t.written now keys = .ok read :=
  (StorageReachable.inv hashKey cloner positive reachable).getMulti_of_finished
    (List.getElem?_mem found) active work finished

/-- An entry of key `0` and value `7`, live until `10`. -/
def sevenAtZero : CacheEntry Int Nat := ⟨⟨0, 7⟩, 10, false⟩

omit positive reachable in
theorem getMulti_reads_returned_setMulti :
    ∃ t : StorageCalls Int Nat, StorageReachable id id 2 t ∧ t.written = [sevenAtZero] ∧
      (∃ c, t.calls[1]? = some c ∧ c.lock.returned = false ∧
        c.work = .getMulti 5 [0] [some sevenAtZero]) ∧
      (ttlMap id).getMulti t.written 5 [0] = .ok [some sevenAtZero] := by
  have started : StorageReachable (id : Int → Int) (id : Nat → Nat) 2 _ :=
    .step .init (.setMulti [some sevenAtZero])
  have locked := StorageReachable.step started (.call (.lock (i := 0) rfl rfl rfl rfl))
  have wrote := StorageReachable.step locked (.call (.write (i := 0) rfl rfl rfl rfl rfl))
  have returned := StorageReachable.step wrote (.call (.ret (i := 0) rfl rfl rfl rfl))
  have reading := StorageReachable.step returned (.getMulti 5 [0])
  have readLocked := StorageReachable.step reading (.call (.lock (i := 1) rfl rfl rfl rfl))
  have done := StorageReachable.step readLocked (.call (.read (i := 1) rfl rfl rfl rfl rfl))
  exact ⟨_, done, rfl, ⟨_, rfl, rfl, rfl⟩,
    StorageReachable.getMulti_linearizable id id (by decide) done (i := 1) rfl rfl rfl rfl⟩

/-- A `Get`, which reads once its bucket's mutex grants `RLock`, answers what `ttlMap`'s `Get`
answers after the writes that have returned. -/
theorem StorageReachable.get_linearizable (now : Instant) (key : K) {mu : RWMutex}
    (granted : (t.mus (bucketIndex hashKey t.store.bucketsSize key).toNat).rLock = some mu) :
    (ttlMap cloner).get t.written now key = .ok (t.store.get hashKey cloner now key) :=
  (StorageReachable.inv hashKey cloner positive reachable).get_of_rLock now key granted

omit positive reachable in
theorem get_reads_returned_setMulti :
    ∃ t : StorageCalls Int Nat, StorageReachable id id 2 t ∧ t.written = [sevenAtZero] ∧
      (t.mus 0).rLock = some ⟨1, false⟩ ∧
      (ttlMap id).get t.written 5 0 = .ok (t.store.get id id 5 0) ∧
      t.store.get id id 5 0 = some sevenAtZero := by
  have started : StorageReachable (id : Int → Int) (id : Nat → Nat) 2 _ :=
    .step .init (.setMulti [some sevenAtZero])
  have locked := StorageReachable.step started (.call (.lock (i := 0) rfl rfl rfl rfl))
  have wrote := StorageReachable.step locked (.call (.write (i := 0) rfl rfl rfl rfl rfl))
  have returned := StorageReachable.step wrote (.call (.ret (i := 0) rfl rfl rfl rfl))
  exact ⟨_, returned, rfl, rfl,
    StorageReachable.get_linearizable id id (by decide) returned 5 0 rfl, rfl⟩

end Reachable

end LoadingCache.MemStorage
