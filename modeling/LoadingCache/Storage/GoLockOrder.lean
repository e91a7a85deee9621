import Mathlib.Data.Finset.Max
import LoadingCache.Storage.LockOrder

/-!
# Batched calls on Go's mutexes

`LockOrder` grants an `RLock` whenever no writer holds the bucket.  Go's `sync.RWMutex` also
makes it wait behind a `Lock` call that has announced itself and waits for the read locks to
be given back (`GoRWMutex`).  Here a `SetMulti` takes each bucket in two moves, its
announcement and its acquisition, and a `GetMulti`'s `RLock` waits behind an announced writer.

Seen through `GoRWMutex.toRWMutex`, each move of this system is a move of `LockOrder`'s, or
none for an announcement (`GoBatches.toStep`), so every state it reaches is one `LockOrder`
reaches (`GoReachable.toReachable`), and `LockOrder`'s invariant holds of it.  Progress does
not carry over, since Go's mutex makes a reader wait where `LockOrder` lets it through; it is
proved again (`GoBatches.Inv.some_call_moves`).  No call holds the largest next bucket of the
unreturned calls, so the writer announced on it can acquire it, and with none announced the
calls that wait for it can take it.
-/

namespace LoadingCache.MemStorage

/-- A call of `LockOrder`, and whether it is a `SetMulti` whose `Lock` on its next bucket has
announced itself. -/
structure GoBatchCall where
  call : BatchCall
  announced : Bool
  deriving DecidableEq, Repr

/-- Whether `c` has announced itself on bucket `bucket`. -/
def GoBatchCall.announcesBucket (bucket : Nat) (c : GoBatchCall) : Bool :=
  c.announced && decide (c.call.nextBucket = bucket)

theorem GoBatchCall.announcesBucket_mk (call : BatchCall) (announced : Bool) (x : Nat) :
    (⟨call, announced⟩ : GoBatchCall).announcesBucket x =
      (announced && decide (call.nextBucket = x)) := rfl

theorem GoBatchCall.announcesBucket_of_quiet {c : GoBatchCall} (quiet : c.announced = false)
    (x : Nat) : c.announcesBucket x = false := by
  simp [announcesBucket, quiet]

theorem GoBatchCall.announcesBucket_of_announced {c : GoBatchCall}
    (announced : c.announced = true) (x : Nat) :
    c.announcesBucket x = decide (c.call.nextBucket = x) := by
  simp [announcesBucket, announced]

/-- The deferred unlock that matches a call's locks, on Go's mutexes. -/
def goUnlockOf (write : Bool) : GoRWMutex → GoRWMutex :=
  if write then GoRWMutex.unlock else GoRWMutex.rUnlock

@[simp] theorem goUnlockOf_false : goUnlockOf false = GoRWMutex.rUnlock := rfl

@[simp] theorem goUnlockOf_true : goUnlockOf true = GoRWMutex.unlock := rfl

theorem toRWMutex_goUnlockOf (write : Bool) (mu : GoRWMutex) :
    (goUnlockOf write mu).toRWMutex = unlockOf write mu.toRWMutex := by
  cases write <;> rfl

theorem toRWMutex_comp_goUnlock {mus : Nat → GoRWMutex} {buckets : List Nat}
    (distinct : buckets.Nodup) (write : Bool) :
    GoRWMutex.toRWMutex ∘ (fun n => if n ∈ buckets then goUnlockOf write (mus n) else mus n) =
      unlockBuckets (unlockOf write) (GoRWMutex.toRWMutex ∘ mus) buckets := by
  funext n
  rw [unlockBuckets_apply _ _ distinct]
  split <;> simp [toRWMutex_goUnlockOf, *]

/-- Go's bucket mutexes and the calls that have started. -/
structure GoBatches where
  mus : Nat → GoRWMutex
  calls : List GoBatchCall

/-- No call has started, and every mutex is free. -/
def GoBatches.init : GoBatches := ⟨fun _ => GoRWMutex.unlocked, []⟩

/-- A move of a call that has started and not returned: a `GetMulti` read-locks its next
bucket, a `SetMulti` announces itself on it and, announced, acquires it, and a call that has
locked its whole list returns, its deferred unlocks releasing each bucket of its list. -/
inductive GoCallStep : GoBatches → GoBatches → Prop
  | rLock {b : GoBatches} {i : Nat} {c : GoBatchCall} {bucket : Nat} {mu : GoRWMutex} :
      b.calls[i]? = some c → c.call.returned = false → c.call.write = false →
      c.call.buckets[c.call.taken]? = some bucket → (b.mus bucket).rLock = some mu →
      GoCallStep b ⟨Function.update b.mus bucket mu, b.calls.set i ⟨c.call.advance, false⟩⟩
  | announce {b : GoBatches} {i : Nat} {c : GoBatchCall} {bucket : Nat} {mu : GoRWMutex} :
      b.calls[i]? = some c → c.call.returned = false → c.call.write = true →
      c.announced = false → c.call.buckets[c.call.taken]? = some bucket →
      (b.mus bucket).announce = some mu →
      GoCallStep b ⟨Function.update b.mus bucket mu, b.calls.set i ⟨c.call, true⟩⟩
  | acquire {b : GoBatches} {i : Nat} {c : GoBatchCall} {bucket : Nat} {mu : GoRWMutex} :
      b.calls[i]? = some c → c.call.returned = false → c.call.write = true →
      c.announced = true → c.call.buckets[c.call.taken]? = some bucket →
      (b.mus bucket).acquire = some mu →
      GoCallStep b ⟨Function.update b.mus bucket mu, b.calls.set i ⟨c.call.advance, false⟩⟩
  | ret {b : GoBatches} {i : Nat} {c : GoBatchCall} :
      b.calls[i]? = some c → c.call.returned = false → c.call.taken = c.call.buckets.length →
      GoCallStep b ⟨fun n => if n ∈ c.call.buckets then goUnlockOf c.call.write (b.mus n)
        else b.mus n, b.calls.set i ⟨c.call.finish, false⟩⟩

variable {K V : Type} [DecidableEq K] (s : DistributedStorage K V) (hashKey : K → Int)

/-- A move of the system: a call starts, as in `LockOrder`, or a call moves. -/
inductive GoStep : GoBatches → GoBatches → Prop
  | start {b : GoBatches} (write : Bool) (keys : List K) :
      GoStep b ⟨b.mus, b.calls ++
        [⟨⟨write, (s.sortedBuckets hashKey keys).map Int.toNat, 0, false⟩, false⟩]⟩
  | call {b b' : GoBatches} : GoCallStep b b' → GoStep b b'

/-- The states reachable from no call and every mutex free. -/
inductive GoReachable : GoBatches → Prop
  | init : GoReachable GoBatches.init
  | step {b b' : GoBatches} : GoReachable b → GoStep s hashKey b b' → GoReachable b'

/-! ## The state `LockOrder` sees -/

/-- The state as `LockOrder` sees it: each mutex through `toRWMutex`, each call without its
announcement. -/
def GoBatches.toBatches (b : GoBatches) : Batches :=
  ⟨GoRWMutex.toRWMutex ∘ b.mus, b.calls.map GoBatchCall.call⟩

namespace GoBatches

variable {b b' : GoBatches} {i : Nat} {c : GoBatchCall}

theorem toBatches_getElem? (found : b.calls[i]? = some c) :
    b.toBatches.calls[i]? = some c.call := by
  simp [toBatches, found]

theorem toBatches_update (bucket : Nat) (mu : GoRWMutex) (calls : List GoBatchCall) :
    (⟨Function.update b.mus bucket mu, calls⟩ : GoBatches).toBatches =
      ⟨Function.update b.toBatches.mus bucket mu.toRWMutex, calls.map GoBatchCall.call⟩ := by
  simp [toBatches, Function.comp_update]

theorem toStep (seen : b.toBatches.Inv) (moved : GoStep s hashKey b b') :
    Step s hashKey b.toBatches b'.toBatches ∨ b'.toBatches = b.toBatches := by
  cases moved with
  | start write keys =>
      exact .inl (by simpa [toBatches] using Step.start (b := b.toBatches) write keys)
  | call moved =>
      cases moved with
      | rLock found active reader next granted =>
          refine .inl (.call ?_)
          rw [toBatches_update, List.map_set]
          exact .lock (toBatches_getElem? found) active next
            (by simpa [reader, toBatches] using GoRWMutex.toRWMutex_rLock granted)
      | announce found _ _ _ _ granted =>
          have kept := set_of_getElem? (toBatches_getElem? found)
          rw [toBatches_update, List.map_set, GoRWMutex.toRWMutex_announce granted]
          exact .inr (by simpa [toBatches] using kept)
      | acquire found active writer _ next granted =>
          refine .inl (.call ?_)
          rw [toBatches_update, List.map_set]
          exact .lock (toBatches_getElem? found) active next
            (by simpa [writer, toBatches] using GoRWMutex.toRWMutex_acquire granted)
      | @ret i c found active complete =>
          have sorted :=
            (seen.sorted c.call (List.mem_map_of_mem _ (List.getElem?_mem found))).1
          refine .inl (.call ?_)
          simpa [toBatches, toRWMutex_comp_goUnlock sorted.nodup] using
            CallStep.ret (toBatches_getElem? found) active complete

end GoBatches

/-- Go's system refines `LockOrder`'s: every state it reaches, seen through `toRWMutex`, is
one `LockOrder` reaches. -/
theorem GoReachable.toReachable (positive : 0 < s.bucketsSize) {b : GoBatches}
    (reachable : GoReachable s hashKey b) : Reachable s hashKey b.toBatches := by
  induction reachable with
  | init => exact Reachable.init
  | step _ moved seen =>
      rcases GoBatches.toStep s hashKey (seen.inv hashKey positive) moved with moved | same
      · exact seen.step moved
      · exact same ▸ seen

/-- Two buckets, the identity as key hash. -/
def twoBuckets : DistributedStorage Int Nat := ⟨2, fun _ _ => none⟩

/-- A `SetMulti` on key `0` announced on bucket `0`, and a `GetMulti` on key `0` after it. -/
def readerBehindWriter : GoBatches :=
  ⟨Function.update (fun _ => GoRWMutex.unlocked) 0 ⟨0, .waiting⟩,
    [⟨⟨true, [0], 0, false⟩, true⟩, ⟨⟨false, [0], 0, false⟩, false⟩]⟩

theorem reachable_readerBehindWriter : GoReachable twoBuckets id readerBehindWriter := by
  have sorted : (twoBuckets.sortedBuckets id [0]).map Int.toNat = [0] := by decide
  have start (b : GoBatches) (write : Bool) :
      GoStep twoBuckets id b ⟨b.mus, b.calls ++ [⟨⟨write, [0], 0, false⟩, false⟩]⟩ := by
    rw [← sorted]
    exact .start write [0]
  have announced : GoReachable twoBuckets id ⟨Function.update (fun _ => GoRWMutex.unlocked) 0
      ⟨0, .waiting⟩, [⟨⟨true, [0], 0, false⟩, true⟩]⟩ :=
    .step (.step .init (start _ true))
      (.call (.announce (i := 0) (c := ⟨⟨true, [0], 0, false⟩, false⟩) rfl rfl rfl rfl rfl rfl))
  exact .step announced (start _ false)

theorem readerBehindWriter_seen :
    0 < twoBuckets.bucketsSize ∧ GoReachable twoBuckets id readerBehindWriter ∧
      Reachable twoBuckets id readerBehindWriter.toBatches ∧
      (readerBehindWriter.mus 0).rLock = none ∧
      (readerBehindWriter.toBatches.mus 0).rLock = some ⟨1, false⟩ :=
  ⟨by decide, reachable_readerBehindWriter,
    GoReachable.toReachable twoBuckets id (by decide) reachable_readerBehindWriter, rfl, rfl⟩

/-! ## Go's invariant -/

/-- Go's own part of the invariant: an announced call is an unreturned `SetMulti` with a bucket
still to lock, and each mutex accounts for the calls reading it, announced on it and writing
it. -/
structure GoBatches.Accounted (b : GoBatches) : Prop where
  announcing : ∀ c ∈ b.calls, c.announced = true →
    c.call.write = true ∧ c.call.returned = false ∧ c.call.taken < c.call.buckets.length
  accounts : ∀ bucket, GoRWMutex.Accounts (b.mus bucket)
    (b.calls.countP (·.call.readsBucket bucket)) (b.calls.countP (·.announcesBucket bucket))
    (b.calls.countP (·.call.writesBucket bucket))

/-- `LockOrder`'s invariant of the state it sees, and Go's own. -/
structure GoBatches.Inv (b : GoBatches) : Prop where
  seen : b.toBatches.Inv
  accounted : b.Accounted

namespace GoBatches.Inv

variable {b : GoBatches} {c : GoBatchCall} {bucket : Nat}

theorem sorted (inv : b.Inv) (member : c ∈ b.calls) :
    c.call.buckets.Sorted (· < ·) ∧ c.call.taken ≤ c.call.buckets.length :=
  inv.seen.sorted c.call (List.mem_map_of_mem _ member)

theorem fresh (inv : b.Inv) (member : c ∈ b.calls)
    (next : c.call.buckets[c.call.taken]? = some bucket) : bucket ∉ c.call.held :=
  fun held => Nat.lt_irrefl _ (BatchCall.lt_of_mem_held (inv.sorted member).1 next held)

end GoBatches.Inv

namespace GoBatches.Accounted

variable {b : GoBatches} {i : Nat} {c : GoBatchCall} {bucket : Nat} {mu : GoRWMutex}

theorem init : GoBatches.init.Accounted where
  announcing _ member := by cases member
  accounts _ := GoRWMutex.Accounts.unlocked

theorem announcing_set (accounted : b.Accounted) (c' : GoBatchCall)
    (announcing : c'.announced = true →
      c'.call.write = true ∧ c'.call.returned = false ∧ c'.call.taken < c'.call.buckets.length) :
    ∀ d ∈ b.calls.set i c', d.announced = true →
      d.call.write = true ∧ d.call.returned = false ∧ d.call.taken < d.call.buckets.length :=
  fun d member => (List.mem_or_eq_of_mem_set member).elim (accounted.announcing d)
    fun same => same ▸ announcing

theorem counts_set (found : b.calls[i]? = some c) (c' : GoBatchCall) (x : Nat) :
    let calls := b.calls.set i c'
    calls.countP (·.call.readsBucket x) + (if c.call.readsBucket x then 1 else 0) =
        b.calls.countP (·.call.readsBucket x) + (if c'.call.readsBucket x then 1 else 0) ∧
      calls.countP (·.announcesBucket x) + (if c.announcesBucket x then 1 else 0) =
        b.calls.countP (·.announcesBucket x) + (if c'.announcesBucket x then 1 else 0) ∧
      calls.countP (·.call.writesBucket x) + (if c.call.writesBucket x then 1 else 0) =
        b.calls.countP (·.call.writesBucket x) + (if c'.call.writesBucket x then 1 else 0) :=
  have reads := countP_set_add found (fun d : GoBatchCall => d.call.readsBucket x) c'
  have announces := countP_set_add found (fun d : GoBatchCall => d.announcesBucket x) c'
  have writes := countP_set_add found (fun d : GoBatchCall => d.call.writesBucket x) c'
  ⟨reads, announces, writes⟩

theorem start (accounted : b.Accounted) (write : Bool) (buckets : List Nat) :
    Accounted ⟨b.mus, b.calls ++ [⟨⟨write, buckets, 0, false⟩, false⟩]⟩ := by
  refine ⟨fun c member => ?_, fun x => ?_⟩
  · rcases List.mem_append.mp member with old | new
    · exact accounted.announcing c old
    · obtain rfl := List.mem_singleton.mp new
      simp
  · simpa [List.countP_append, BatchCall.readsBucket, BatchCall.writesBucket,
      GoBatchCall.announcesBucket, BatchCall.held] using accounted.accounts x

theorem rLock (inv : b.Inv) (found : b.calls[i]? = some c) (active : c.call.returned = false)
    (reader : c.call.write = false) (next : c.call.buckets[c.call.taken]? = some bucket)
    (granted : (b.mus bucket).rLock = some mu) :
    Accounted ⟨Function.update b.mus bucket mu, b.calls.set i ⟨c.call.advance, false⟩⟩ := by
  have member := List.getElem?_mem found
  have quiet : c.announced = false := by
    cases announced : c.announced
    · rfl
    · simp [(inv.accounted.announcing c member announced).1] at reader
  refine ⟨announcing_set inv.accounted _ (by simp), fun x => ?_⟩
  obtain ⟨reads, announces, writes⟩ := counts_set found ⟨c.call.advance, false⟩ x
  simp [BatchCall.readsBucket_advance active next, BatchCall.writesBucket_of_read, reader,
    GoBatchCall.announcesBucket_mk, GoBatchCall.announcesBucket_of_quiet quiet]
    at reads announces writes
  have accounts := inv.accounted.accounts x
  dsimp only
  by_cases same : x = bucket
  · subst same
    simp [BatchCall.readsBucket_of_not_mem (inv.fresh member next)] at reads
    rw [Function.update_same]
    exact (accounts.of_eq rfl (by omega) (by omega)).rLock granted (by omega)
  · simp [same] at reads
    rw [Function.update_noteq same]
    exact accounts.of_eq (by omega) (by omega) (by omega)

theorem announce (inv : b.Inv) (found : b.calls[i]? = some c) (active : c.call.returned = false)
    (writer : c.call.write = true) (quiet : c.announced = false)
    (next : c.call.buckets[c.call.taken]? = some bucket)
    (granted : (b.mus bucket).announce = some mu) :
    Accounted ⟨Function.update b.mus bucket mu, b.calls.set i ⟨c.call, true⟩⟩ := by
  have nextBucket : c.call.nextBucket = bucket := by simp [BatchCall.nextBucket, next]
  refine ⟨announcing_set inv.accounted _
    fun _ => ⟨writer, active, (List.getElem?_eq_some_iff.mp next).1⟩, fun x => ?_⟩
  obtain ⟨reads, announces, writes⟩ := counts_set found ⟨c.call, true⟩ x
  simp [GoBatchCall.announcesBucket_mk, GoBatchCall.announcesBucket_of_quiet quiet, nextBucket]
    at reads announces writes
  have accounts := inv.accounted.accounts x
  dsimp only
  by_cases same : x = bucket
  · subst same
    simp at announces
    rw [Function.update_same]
    exact (accounts.of_eq (by omega) rfl rfl).announce granted (by omega) (by omega)
  · simp [Ne.symm same] at announces
    rw [Function.update_noteq same]
    exact accounts.of_eq (by omega) (by omega) (by omega)

theorem acquire (inv : b.Inv) (found : b.calls[i]? = some c) (active : c.call.returned = false)
    (writer : c.call.write = true) (announced : c.announced = true)
    (next : c.call.buckets[c.call.taken]? = some bucket)
    (granted : (b.mus bucket).acquire = some mu) :
    Accounted ⟨Function.update b.mus bucket mu, b.calls.set i ⟨c.call.advance, false⟩⟩ := by
  have nextBucket : c.call.nextBucket = bucket := by simp [BatchCall.nextBucket, next]
  refine ⟨announcing_set inv.accounted _ (by simp), fun x => ?_⟩
  obtain ⟨reads, announces, writes⟩ := counts_set found ⟨c.call.advance, false⟩ x
  simp [BatchCall.readsBucket_of_write, BatchCall.writesBucket_advance active next, writer,
    GoBatchCall.announcesBucket_of_announced announced, GoBatchCall.announcesBucket_mk,
    nextBucket] at reads announces writes
  have accounts := inv.accounted.accounts x
  dsimp only
  by_cases same : x = bucket
  · subst same
    simp [BatchCall.writesBucket_of_not_mem (inv.fresh (List.getElem?_mem found) next)]
      at announces writes
    rw [Function.update_same]
    exact (accounts.of_eq (by omega) rfl rfl).acquire granted (by omega) (by omega)
  · simp [same, Ne.symm same] at announces writes
    rw [Function.update_noteq same]
    exact accounts.of_eq (by omega) (by omega) (by omega)

theorem ret (inv : b.Inv) (found : b.calls[i]? = some c) (active : c.call.returned = false)
    (complete : c.call.taken = c.call.buckets.length) :
    Accounted ⟨fun n => if n ∈ c.call.buckets then goUnlockOf c.call.write (b.mus n)
      else b.mus n, b.calls.set i ⟨c.call.finish, false⟩⟩ := by
  have quiet : c.announced = false := by
    cases announced : c.announced
    · rfl
    · have := (inv.accounted.announcing c (List.getElem?_mem found) announced).2.2
      omega
  have heldAll := BatchCall.held_of_complete active complete
  refine ⟨announcing_set inv.accounted _ (by simp), fun x => ?_⟩
  obtain ⟨reads, announces, writes⟩ := counts_set found ⟨c.call.finish, false⟩ x
  simp [GoBatchCall.announcesBucket_mk, GoBatchCall.announcesBucket_of_quiet quiet]
    at reads announces writes
  have accounts := inv.accounted.accounts x
  dsimp only
  split
  · next member =>
      cases write : c.call.write
      · simp [BatchCall.readsBucket_of_mem, BatchCall.writesBucket_of_read, heldAll, write,
          member] at reads writes
        rw [goUnlockOf_false]
        exact (accounts.of_eq rfl (by omega) (by omega)).rUnlock (by omega)
      · simp [BatchCall.readsBucket_of_write, BatchCall.writesBucket_of_mem, heldAll, write,
          member] at reads writes
        rw [goUnlockOf_true]
        exact (accounts.of_eq (by omega) rfl rfl).unlock (by omega) (by omega)
  · next outside =>
      simp [BatchCall.readsBucket_of_not_mem, BatchCall.writesBucket_of_not_mem, heldAll,
        outside] at reads writes
      exact accounts.of_eq (by omega) (by omega) (by omega)

end GoBatches.Accounted

theorem GoBatches.Inv.init : GoBatches.init.Inv :=
  ⟨Batches.Inv.init, GoBatches.Accounted.init⟩

theorem GoBatches.Inv.step {b b' : GoBatches} (inv : b.Inv) (positive : 0 < s.bucketsSize)
    (moved : GoStep s hashKey b b') : b'.Inv where
  seen := (GoBatches.toStep s hashKey inv.seen moved).elim (inv.seen.step hashKey positive)
    (· ▸ inv.seen)
  accounted := by
    cases moved with
    | start write keys => exact inv.accounted.start write _
    | call moved =>
        cases moved with
        | rLock found active reader next granted =>
            exact GoBatches.Accounted.rLock inv found active reader next granted
        | announce found active writer quiet next granted =>
            exact GoBatches.Accounted.announce inv found active writer quiet next granted
        | acquire found active writer announced next granted =>
            exact GoBatches.Accounted.acquire inv found active writer announced next granted
        | ret found active complete => exact GoBatches.Accounted.ret inv found active complete

theorem GoReachable.inv (positive : 0 < s.bucketsSize) {b : GoBatches}
    (reachable : GoReachable s hashKey b) : b.Inv := by
  induction reachable with
  | init => exact GoBatches.Inv.init
  | step _ moved inductionHypothesis => exact inductionHypothesis.step s hashKey positive moved

/-! ## Progress -/

theorem GoBatches.exists_top {b : GoBatches} (running : ∃ c ∈ b.calls, c.call.returned = false) :
    ∃ g ∈ b.calls, g.call.returned = false ∧
      ∀ h ∈ b.calls, h.call.returned = false → h.call.nextBucket ≤ g.call.nextBucket := by
  obtain ⟨c, member, active⟩ := running
  obtain ⟨g, top, highest⟩ := (b.calls.filter (·.call.returned = false)).toFinset.exists_max_image
    (·.call.nextBucket) ⟨c, by simp [member, active]⟩
  simp only [List.mem_toFinset, List.mem_filter, decide_eq_true_eq] at top highest
  exact ⟨g, top.1, top.2, fun h member active => highest h ⟨member, active⟩⟩

namespace GoBatches.Inv

variable {b : GoBatches} {i : Nat} {c : GoBatchCall} {bucket : Nat}

theorem accounts_top (inv : b.Inv)
    (locking : ∀ c ∈ b.calls, c.call.returned = false → c.call.taken < c.call.buckets.length)
    {g : GoBatchCall}
    (highest : ∀ h ∈ b.calls, h.call.returned = false → h.call.nextBucket ≤ g.call.nextBucket) :
    GoRWMutex.Accounts (b.mus g.call.nextBucket) 0
      (b.calls.countP (·.announcesBucket g.call.nextBucket)) 0 := by
  have unheld : ∀ h ∈ b.calls, g.call.nextBucket ∉ h.call.held := fun h holder holds => by
    have active := BatchCall.active_of_mem_held holds
    have below := BatchCall.lt_of_mem_held (inv.sorted holder).1
      (BatchCall.getElem?_taken (locking h holder active)) holds
    have above := highest h holder active
    omega
  have noReads : b.calls.countP (·.call.readsBucket g.call.nextBucket) = 0 :=
    List.countP_eq_zero.mpr fun h holder => by
      simp [BatchCall.readsBucket_of_not_mem (unheld h holder)]
  have noWrites : b.calls.countP (·.call.writesBucket g.call.nextBucket) = 0 :=
    List.countP_eq_zero.mpr fun h holder => by
      simp [BatchCall.writesBucket_of_not_mem (unheld h holder)]
  simpa only [noReads, noWrites] using inv.accounted.accounts g.call.nextBucket

theorem exists_move_of_free (inv : b.Inv) (found : b.calls[i]? = some c)
    (active : c.call.returned = false) (next : c.call.buckets[c.call.taken]? = some bucket)
    (free : (b.mus bucket).writer = .free) : ∃ b', GoCallStep b b' := by
  cases write : c.call.write
  · exact ⟨_, .rLock found active write next (by rw [GoRWMutex.rLock, if_pos free])⟩
  · have quiet : c.announced = false := by
      cases announced : c.announced
      · rfl
      · have onNext : c.announcesBucket bucket = true := by
          simp [GoBatchCall.announcesBucket_of_announced announced, BatchCall.nextBucket, next]
        have : 0 < b.calls.countP (·.announcesBucket bucket) :=
          List.countP_pos_iff.mpr ⟨c, List.getElem?_mem found, onNext⟩
        rw [(inv.accounted.accounts bucket).writer, GoRWMutex.writerOf_eq_free] at free
        omega
    exact ⟨_, .announce found active write quiet next (by rw [GoRWMutex.announce, if_pos free])⟩

theorem exists_acquire (inv : b.Inv) (waiting : (b.mus bucket).writer = .waiting)
    (idle : (b.mus bucket).readers = 0) : ∃ b', GoCallStep b b' := by
  have announcedOn := waiting
  rw [(inv.accounted.accounts bucket).writer, GoRWMutex.writerOf_eq_waiting] at announcedOn
  obtain ⟨a, announcer, announces⟩ := List.countP_pos_iff.mp announcedOn.1
  have announced : a.announced = true := by
    simp only [GoBatchCall.announcesBucket, Bool.and_eq_true] at announces
    exact announces.1
  have onBucket : a.call.nextBucket = bucket := by
    simpa [GoBatchCall.announcesBucket_of_announced announced] using announces
  obtain ⟨writer, active, locking⟩ := inv.accounted.announcing a announcer announced
  obtain ⟨j, found⟩ := List.mem_iff_getElem?.mp announcer
  have next := BatchCall.getElem?_taken locking
  rw [onBucket] at next
  exact ⟨_, .acquire found active writer announced next
    (by rw [GoRWMutex.acquire, if_pos ⟨waiting, idle⟩])⟩

theorem some_call_moves (inv : b.Inv) (running : ∃ c ∈ b.calls, c.call.returned = false) :
    ∃ b', GoCallStep b b' := by
  by_cases complete : ∃ (i : Nat) (c : GoBatchCall), b.calls[i]? = some c ∧
      c.call.returned = false ∧ c.call.taken = c.call.buckets.length
  · obtain ⟨i, c, found, active, complete⟩ := complete
    exact ⟨_, .ret found active complete⟩
  have locking : ∀ c ∈ b.calls, c.call.returned = false →
      c.call.taken < c.call.buckets.length := fun c member active => by
    obtain ⟨i, found⟩ := List.mem_iff_getElem?.mp member
    have := (inv.sorted member).2
    have : c.call.taken ≠ c.call.buckets.length := fun same => complete ⟨i, c, found, active, same⟩
    omega
  obtain ⟨g, member, active, highest⟩ := GoBatches.exists_top running
  obtain ⟨i, found⟩ := List.mem_iff_getElem?.mp member
  have accounts := inv.accounts_top locking highest
  cases writer : (b.mus g.call.nextBucket).writer with
  | free =>
      exact inv.exists_move_of_free found active
        (BatchCall.getElem?_taken (locking g member active)) writer
  | waiting => exact inv.exists_acquire writer accounts.readers
  | holding =>
      rw [accounts.writer, GoRWMutex.writerOf_eq_holding] at writer
      omega

end GoBatches.Inv

/-- Batched calls on Go's mutexes never deadlock: in every reachable state where a call has not
returned, some call can move, although an `RLock` waits behind an announced `Lock`. -/
theorem GoReachable.never_deadlocks (positive : 0 < s.bucketsSize) {b : GoBatches}
    (reachable : GoReachable s hashKey b) (running : ∃ c ∈ b.calls, c.call.returned = false) :
    ∃ b', GoCallStep b b' :=
  (reachable.inv s hashKey positive).some_call_moves running

theorem readerBehindWriter_moves :
    0 < twoBuckets.bucketsSize ∧ GoReachable twoBuckets id readerBehindWriter ∧
      (∃ c ∈ readerBehindWriter.calls, c.call.returned = false) ∧
      ∃ b', GoCallStep readerBehindWriter b' :=
  have running : ∃ c ∈ readerBehindWriter.calls, c.call.returned = false :=
    ⟨_, List.mem_cons_self _ _, rfl⟩
  ⟨by decide, reachable_readerBehindWriter, running,
    GoReachable.never_deadlocks twoBuckets id (by decide) reachable_readerBehindWriter running⟩

end LoadingCache.MemStorage
