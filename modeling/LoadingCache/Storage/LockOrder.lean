import Mathlib.Data.List.MinMax
import Mathlib.Logic.Relation
import LoadingCache.Storage.BucketLocks

/-!
# Batched calls at once: the bucket locks never deadlock

Any number of `GetMulti` and `SetMulti` calls on one `distributedStorage` run at once, and a
new one may start at any time.  Each walks its sorted bucket list taking one lock at a time,
as `lockBuckets` does, then does its reads or writes and returns, running its deferred
unlocks.  `CallStep` is a move of one call, `Step` adds the start of a new one; a call's lock
steps refine its loop (`CallStep.of_lockBuckets`).

`Batches.Inv` ties each bucket's mutex to the calls holding it: its reader count is the number
of `GetMulti` calls that hold it, and it is write-locked exactly when a `SetMulti` holds it,
alone.  A call holds a prefix of a strictly increasing list, so every bucket it holds lies
below the one it waits for.  As in `RWMutex`, `RLock` waits only while the write lock is held;
Go's also waits behind a `Lock` call that is waiting, which `GoLockOrder` adds over this model,
and there progress is proved.
-/

namespace LoadingCache.MemStorage

/-- The lock a call takes on each bucket: `Lock` for `SetMulti`, `RLock` for `GetMulti`. -/
def lockOf (write : Bool) : RWMutex → Option RWMutex :=
  if write then RWMutex.lock else RWMutex.rLock

/-- The deferred unlock that matches `lockOf`. -/
def unlockOf (write : Bool) : RWMutex → RWMutex :=
  if write then RWMutex.unlock else RWMutex.rUnlock

@[simp] theorem unlockOf_false : unlockOf false = RWMutex.rUnlock := rfl

@[simp] theorem unlockOf_true : unlockOf true = RWMutex.unlock := rfl

/-- A `GetMulti` (`write = false`) or `SetMulti` (`write = true`) call: the bucket list its
lock loop walks, how many of those buckets it has locked, and whether it has returned. -/
structure BatchCall where
  write : Bool
  buckets : List Nat
  taken : Nat
  returned : Bool
  deriving DecidableEq, Repr

namespace BatchCall

/-- The buckets a call holds. -/
def held (c : BatchCall) : List Nat :=
  if c.returned then [] else c.buckets.take c.taken

/-- Whether `c` holds bucket `bucket` with a read lock. -/
def readsBucket (bucket : Nat) (c : BatchCall) : Bool :=
  !c.write && decide (bucket ∈ c.held)

/-- Whether `c` holds bucket `bucket` with the write lock. -/
def writesBucket (bucket : Nat) (c : BatchCall) : Bool :=
  c.write && decide (bucket ∈ c.held)

/-- The call whose lock loop has gone one bucket further. -/
def advance (c : BatchCall) : BatchCall := { c with taken := c.taken + 1 }

/-- The call once returned. -/
def finish (c : BatchCall) : BatchCall := { c with returned := true }

/-- The bucket a call locks next; `0` past the end of its list. -/
def nextBucket (c : BatchCall) : Nat := c.buckets.getD c.taken 0

end BatchCall

/-- The bucket mutexes and the calls that have started. -/
structure Batches where
  mus : Nat → RWMutex
  calls : List BatchCall

/-- A move of a call that has started and not returned: lock its next bucket once the mutex
grants it, or, with every bucket of its list locked, do its work and return, running its
deferred unlocks. -/
inductive CallStep : Batches → Batches → Prop
  | lock {b : Batches} {i : Nat} {c : BatchCall} {bucket : Nat} {mu : RWMutex} :
      b.calls[i]? = some c → c.returned = false → c.buckets[c.taken]? = some bucket →
      lockOf c.write (b.mus bucket) = some mu →
      CallStep b ⟨Function.update b.mus bucket mu, b.calls.set i c.advance⟩
  | ret {b : Batches} {i : Nat} {c : BatchCall} :
      b.calls[i]? = some c → c.returned = false → c.taken = c.buckets.length →
      CallStep b ⟨unlockBuckets (unlockOf c.write) b.mus c.buckets, b.calls.set i c.finish⟩

variable {K V : Type} [DecidableEq K] (s : DistributedStorage K V) (hashKey : K → Int)

/-- A move of the system: a call starts on `keys` (for `SetMulti`, the keys of its entries
that are not `nil`) with the bucket list `GetMulti` and `SetMulti` lock, or a call moves. -/
inductive Step : Batches → Batches → Prop
  | start {b : Batches} (write : Bool) (keys : List K) :
      Step b ⟨b.mus,
        b.calls ++ [⟨write, (s.sortedBuckets hashKey keys).map Int.toNat, 0, false⟩]⟩
  | call {b b' : Batches} : CallStep b b' → Step b b'

/-- The states reachable from no call and every mutex free. -/
inductive Reachable : Batches → Prop
  | init : Reachable ⟨fun _ => RWMutex.unlocked, []⟩
  | step {b b' : Batches} : Reachable b → Step s hashKey b b' → Reachable b'

/-- Every call walks a strictly increasing list and has locked no more than it, and every
mutex accounts for the calls holding it. -/
structure Batches.Inv (b : Batches) : Prop where
  sorted : ∀ c ∈ b.calls, c.buckets.Sorted (· < ·) ∧ c.taken ≤ c.buckets.length
  accounts : ∀ bucket, RWMutex.Accounts (b.mus bucket)
    (b.calls.countP (BatchCall.readsBucket bucket))
    (b.calls.countP (BatchCall.writesBucket bucket))

namespace BatchCall

variable {c : BatchCall} {bucket : Nat}

theorem lt_of_mem_held (sorted : c.buckets.Sorted (· < ·))
    (next : c.buckets[c.taken]? = some bucket) {x : Nat} (member : x ∈ c.held) : x < bucket := by
  unfold held at member
  split at member
  · cases member
  · obtain ⟨j, below, rfl⟩ := List.mem_iff_getElem.mp member
    obtain ⟨inside, rfl⟩ := List.getElem?_eq_some_iff.mp next
    simp only [List.getElem_take]
    exact List.pairwise_iff_getElem.mp sorted _ _ _ _ (by simp at below; omega)

theorem held_advance (active : c.returned = false) (next : c.buckets[c.taken]? = some bucket) :
    c.advance.held = c.held ++ [bucket] := by
  simp [held, advance, active, List.take_succ, next]

@[simp] theorem advance_write : c.advance.write = c.write := rfl

@[simp] theorem finish_write : c.finish.write = c.write := rfl

@[simp] theorem held_finish : c.finish.held = [] := by
  simp [held, finish]

theorem getElem?_taken (locking : c.taken < c.buckets.length) :
    c.buckets[c.taken]? = some c.nextBucket := by
  simp [nextBucket, locking]

theorem active_of_mem_held (member : bucket ∈ c.held) : c.returned = false := by
  unfold held at member
  split at member
  · cases member
  · next active => simpa using active

theorem held_of_complete (active : c.returned = false) (complete : c.taken = c.buckets.length) :
    c.held = c.buckets := by
  simp [held, active, complete]

variable {x : Nat}

theorem readsBucket_advance (active : c.returned = false)
    (next : c.buckets[c.taken]? = some bucket) :
    c.advance.readsBucket x = (c.readsBucket x || (!c.write && decide (x = bucket))) := by
  simp [readsBucket, held_advance active next, Bool.and_or_distrib_left]

theorem writesBucket_advance (active : c.returned = false)
    (next : c.buckets[c.taken]? = some bucket) :
    c.advance.writesBucket x = (c.writesBucket x || (c.write && decide (x = bucket))) := by
  simp [writesBucket, held_advance active next, Bool.and_or_distrib_left]

@[simp] theorem readsBucket_finish : c.finish.readsBucket x = false := by simp [readsBucket]

@[simp] theorem writesBucket_finish : c.finish.writesBucket x = false := by simp [writesBucket]

theorem readsBucket_of_write (writer : c.write = true) : c.readsBucket x = false := by
  simp [readsBucket, writer]

theorem writesBucket_of_read (reader : c.write = false) : c.writesBucket x = false := by
  simp [writesBucket, reader]

theorem readsBucket_of_mem (reader : c.write = false) (member : x ∈ c.held) :
    c.readsBucket x = true := by
  simp [readsBucket, reader, member]

theorem writesBucket_of_mem (writer : c.write = true) (member : x ∈ c.held) :
    c.writesBucket x = true := by
  simp [writesBucket, writer, member]

theorem readsBucket_of_not_mem (outside : x ∉ c.held) : c.readsBucket x = false := by
  simp [readsBucket, outside]

theorem writesBucket_of_not_mem (outside : x ∉ c.held) : c.writesBucket x = false := by
  simp [writesBucket, outside]

theorem mem_held_of_writesBucket (writes : c.writesBucket x = true) : x ∈ c.held := by
  simp only [writesBucket, Bool.and_eq_true, decide_eq_true_eq] at writes
  exact writes.2

end BatchCall

namespace Batches.Inv

variable {b : Batches}

theorem init : Batches.Inv ⟨fun _ => RWMutex.unlocked, []⟩ :=
  ⟨by simp, fun _ => RWMutex.Accounts.unlocked⟩

theorem start (inv : b.Inv) {s : DistributedStorage K V} (positive : 0 < s.bucketsSize)
    (write : Bool) (keys : List K) :
    Batches.Inv ⟨b.mus, b.calls ++
      [⟨write, (s.sortedBuckets hashKey keys).map Int.toNat, 0, false⟩]⟩ := by
  refine ⟨fun c member => ?_, fun bucket => ?_⟩
  · rcases List.mem_append.mp member with old | new
    · exact inv.sorted c old
    · obtain rfl := List.mem_singleton.mp new
      exact ⟨DistributedStorage.sortedBuckets_toNat_sorted hashKey positive keys, Nat.zero_le _⟩
  · simpa [List.countP_append, BatchCall.readsBucket, BatchCall.writesBucket,
      BatchCall.held] using inv.accounts bucket

theorem lock (inv : b.Inv) {i : Nat} {c : BatchCall} {bucket : Nat} {mu : RWMutex}
    (found : b.calls[i]? = some c) (active : c.returned = false)
    (next : c.buckets[c.taken]? = some bucket) (granted : lockOf c.write (b.mus bucket) = some mu) :
    Batches.Inv ⟨Function.update b.mus bucket mu, b.calls.set i c.advance⟩ := by
  obtain ⟨sorted, within⟩ := inv.sorted c (List.getElem?_mem found)
  have fresh : bucket ∉ c.held := fun member =>
    Nat.lt_irrefl _ (BatchCall.lt_of_mem_held sorted next member)
  have heldAdvance := BatchCall.held_advance active next
  refine ⟨fun c' member => ?_, fun bucket' => ?_⟩
  · rcases List.mem_or_eq_of_mem_set member with old | rfl
    · exact inv.sorted c' old
    · have := (List.getElem?_eq_some_iff.mp next).1
      exact ⟨sorted, by simp only [BatchCall.advance]; omega⟩
  · have reads := countP_set_add found (BatchCall.readsBucket bucket') c.advance
    have writes := countP_set_add found (BatchCall.writesBucket bucket') c.advance
    dsimp only
    by_cases same : bucket' = bucket
    · subst same
      have before : c.readsBucket bucket' = false ∧ c.writesBucket bucket' = false := by
        simp [BatchCall.readsBucket, BatchCall.writesBucket, fresh]
      have after : c.advance.readsBucket bucket' = !c.write ∧
          c.advance.writesBucket bucket' = c.write := by
        simp [BatchCall.readsBucket, BatchCall.writesBucket, heldAdvance]
      rw [Function.update_same]
      cases write : c.write
      · simp [before, after, write] at reads writes
        exact ((inv.accounts bucket').rLock (by simpa [write] using granted)).of_eq
          (by omega) (by omega)
      · simp [before, after, write] at reads writes
        exact ((inv.accounts bucket').lock (by simpa [write] using granted)).of_eq
          (by omega) (by omega)
    · have kept : bucket' ∈ c.advance.held ↔ bucket' ∈ c.held := by simp [heldAdvance, same]
      simp only [BatchCall.readsBucket, BatchCall.writesBucket, BatchCall.advance_write, kept,
        Nat.add_right_cancel_iff] at reads writes
      rw [Function.update_noteq same, reads, writes]
      exact inv.accounts bucket'

theorem ret (inv : b.Inv) {i : Nat} {c : BatchCall} (found : b.calls[i]? = some c)
    (active : c.returned = false) (complete : c.taken = c.buckets.length) :
    Batches.Inv ⟨unlockBuckets (unlockOf c.write) b.mus c.buckets, b.calls.set i c.finish⟩ := by
  obtain ⟨sorted, -⟩ := inv.sorted c (List.getElem?_mem found)
  have heldAll := BatchCall.held_of_complete active complete
  refine ⟨fun c' member => ?_, fun bucket => ?_⟩
  · rcases List.mem_or_eq_of_mem_set member with old | rfl
    · exact inv.sorted c' old
    · exact inv.sorted c (List.getElem?_mem found)
  · have reads := countP_set_add found (BatchCall.readsBucket bucket) c.finish
    have writes := countP_set_add found (BatchCall.writesBucket bucket) c.finish
    simp only [BatchCall.readsBucket, BatchCall.writesBucket, BatchCall.held_finish, heldAll,
      BatchCall.finish_write] at reads writes
    dsimp only
    rw [unlockBuckets_apply _ _ sorted.nodup]
    split
    · next member =>
        cases write : c.write
        · simp [write, member] at reads writes
          rw [unlockOf_false]
          exact ((inv.accounts bucket).of_eq (by omega) writes.symm).rUnlock
        · simp [write, member] at reads writes
          rw [unlockOf_true]
          exact ((inv.accounts bucket).of_eq reads.symm (by omega)).unlock
    · next outside =>
        simp [outside] at reads writes
        rw [reads, writes]
        exact inv.accounts bucket

theorem step (inv : b.Inv) {s : DistributedStorage K V} (positive : 0 < s.bucketsSize)
    {b' : Batches} (moved : Step s hashKey b b') : b'.Inv := by
  cases moved with
  | start write keys => exact inv.start hashKey positive write keys
  | call moved =>
      cases moved with
      | lock found active next granted => exact inv.lock found active next granted
      | ret found active complete => exact inv.ret found active complete

end Batches.Inv

theorem Reachable.inv {s : DistributedStorage K V} (positive : 0 < s.bucketsSize) {b : Batches}
    (reachable : Reachable s hashKey b) : b.Inv := by
  induction reachable with
  | init => exact Batches.Inv.init
  | step _ moved inductionHypothesis => exact inductionHypothesis.step hashKey positive moved

end LoadingCache.MemStorage
