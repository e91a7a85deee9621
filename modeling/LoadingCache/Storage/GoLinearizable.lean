import LoadingCache.Storage.GoLockOrder
import LoadingCache.Storage.Linearizable

/-!
# Batched calls on Go's mutexes answer as the TTL map does

`Linearizable` proves the storage's calls linearizable on mutexes that grant `RLock` whenever
no writer holds the bucket.  Here the same calls run on Go's `sync.RWMutex`, as in
`GoLockOrder`: a `SetMulti`'s `Lock` on a bucket announces itself, then acquires the bucket
once its readers are gone, and an `RLock` waits behind an announced writer (`GoRWMutex`).  A
`Set` runs when its `Lock` would announce itself and acquire the bucket at once.

Seen through `GoRWMutex.toRWMutex`, with each call without its announcement, each move is a
move of `Linearizable`'s system, or none for an announcement (`GoStorageCalls.toStep`).  So
every state reached is one `Linearizable` reaches (`GoStorageReachable.toStorageReachable`),
whose invariant says what its calls answer: a `GetMulti` that has read its keys, and a `Get`
whose `RLock` is granted, answer as `ttlMap` does after the writes that have returned.

Progress does not carry over, since Go's mutex makes a reader wait where `Linearizable` lets
it through.  `GoLockOrder`'s invariant of the locks gives it back: some call can take a lock
move or holds all its buckets, and then reads, writes or returns; each move lowers the moves
left, a `SetMulti` counting two per bucket, so the calls that have started can all return.
-/

namespace LoadingCache.MemStorage

variable {K V : Type}

/-- A batched call on Go's mutexes: its lock loop, with its announcement, and its work. -/
structure GoDataCall (K V : Type) where
  lock : GoBatchCall
  work : Work K V

/-- The call as `Linearizable` sees it, without its announcement. -/
def GoDataCall.toDataCall (c : GoDataCall K V) : DataCall K V := ⟨c.lock.call, c.work⟩

/-- The storage's buckets and Go's mutexes, the batched calls that have started, and the
entries of the writes that have returned, in the order they returned. -/
structure GoStorageCalls (K V : Type) where
  store : DistributedStorage K V
  mus : Nat → GoRWMutex
  calls : List (GoDataCall K V)
  written : List (CacheEntry K V)

/-- The lock moves a call has still to make: a `GetMulti` one per bucket, a `SetMulti` two, its
announcement and its acquisition, less the announcement it has made. -/
def GoBatchCall.lockMovesLeft (c : GoBatchCall) : Nat :=
  if c.call.write then 2 * (c.call.buckets.length - c.call.taken) - (if c.announced then 1 else 0)
  else c.call.buckets.length - c.call.taken

/-- The moves a call has still to make: its lock moves, the turns of its loop and its return. -/
def GoDataCall.pending (c : GoDataCall K V) : Nat :=
  if c.lock.call.returned then 0 else c.lock.lockMovesLeft + c.work.remaining + 1

/-- The moves left to all calls. -/
def GoStorageCalls.pending (t : GoStorageCalls K V) : Nat :=
  t.calls.foldr (fun c n => c.pending + n) 0

variable [DecidableEq K] [Inhabited V] (hashKey : K → Int) (cloner : V → V)

/-- A move of a call that has started, on Go's mutexes: a `GetMulti` read-locks its next
bucket, a `SetMulti` announces itself on it and, announced, acquires it, a call holding its
whole list reads its next key or writes its next entry, or returns, its deferred unlocks
releasing each bucket of its list. -/
inductive GoDataCallStep : GoStorageCalls K V → GoStorageCalls K V → Prop
  | rLock {t : GoStorageCalls K V} {i : Nat} {c : GoDataCall K V} {bucket : Nat}
      {mu : GoRWMutex} :
      t.calls[i]? = some c → c.lock.call.returned = false → c.lock.call.write = false →
      c.lock.call.buckets[c.lock.call.taken]? = some bucket → (t.mus bucket).rLock = some mu →
      GoDataCallStep t { t with
        mus := Function.update t.mus bucket mu
        calls := t.calls.set i ⟨⟨c.lock.call.advance, false⟩, c.work⟩ }
  | announce {t : GoStorageCalls K V} {i : Nat} {c : GoDataCall K V} {bucket : Nat}
      {mu : GoRWMutex} :
      t.calls[i]? = some c → c.lock.call.returned = false → c.lock.call.write = true →
      c.lock.announced = false → c.lock.call.buckets[c.lock.call.taken]? = some bucket →
      (t.mus bucket).announce = some mu →
      GoDataCallStep t { t with
        mus := Function.update t.mus bucket mu
        calls := t.calls.set i ⟨⟨c.lock.call, true⟩, c.work⟩ }
  | acquire {t : GoStorageCalls K V} {i : Nat} {c : GoDataCall K V} {bucket : Nat}
      {mu : GoRWMutex} :
      t.calls[i]? = some c → c.lock.call.returned = false → c.lock.call.write = true →
      c.lock.announced = true → c.lock.call.buckets[c.lock.call.taken]? = some bucket →
      (t.mus bucket).acquire = some mu →
      GoDataCallStep t { t with
        mus := Function.update t.mus bucket mu
        calls := t.calls.set i ⟨⟨c.lock.call.advance, false⟩, c.work⟩ }
  | read {t : GoStorageCalls K V} {i : Nat} {c : GoDataCall K V} {now : Instant}
      {keys : List K} {read : List (Option (CacheEntry K V))} {key : K} :
      t.calls[i]? = some c → c.lock.call.returned = false →
      c.lock.call.taken = c.lock.call.buckets.length → c.work = .getMulti now keys read →
      keys[read.length]? = some key →
      GoDataCallStep t { t with calls := t.calls.set i ⟨c.lock, .getMulti now keys (read ++
        [(t.store.buckets (((t.store.resolveBuckets hashKey keys).1 key).getD 0).toNat).lookup
          cloner now key])⟩ }
  | write {t : GoStorageCalls K V} {i : Nat} {c : GoDataCall K V}
      {entries : List (Option (CacheEntry K V))} {written : Nat}
      {entry : Option (CacheEntry K V)} :
      t.calls[i]? = some c → c.lock.call.returned = false →
      c.lock.call.taken = c.lock.call.buckets.length → c.work = .setMulti entries written →
      entries[written]? = some entry →
      GoDataCallStep t { t with
        store := t.store.writeEntry cloner (t.store.resolveBuckets hashKey (entryKeys entries)).1
          entry
        calls := t.calls.set i ⟨c.lock, .setMulti entries (written + 1)⟩ }
  | ret {t : GoStorageCalls K V} {i : Nat} {c : GoDataCall K V} :
      t.calls[i]? = some c → c.lock.call.returned = false →
      c.lock.call.taken = c.lock.call.buckets.length → c.work.done = true →
      GoDataCallStep t { t with
        mus := fun n => if n ∈ c.lock.call.buckets then goUnlockOf c.lock.call.write (t.mus n)
          else t.mus n
        calls := t.calls.set i ⟨⟨c.lock.call.finish, false⟩, c.work⟩
        written := t.written ++ c.work.writtenSoFar.filterMap id }

/-- A move of the system on Go's mutexes: a `GetMulti` (at clock reading `now`) or a
`SetMulti` starts, a `Set` runs, its `Lock` announcing itself and acquiring the bucket at
once, or a call moves. -/
inductive GoStorageStep : GoStorageCalls K V → GoStorageCalls K V → Prop
  | getMulti {t : GoStorageCalls K V} (now : Instant) (keys : List K) :
      GoStorageStep t { t with calls := t.calls ++
        [⟨⟨⟨false, (t.store.sortedBuckets hashKey keys).map Int.toNat, 0, false⟩, false⟩,
          .getMulti now keys []⟩] }
  | setMulti {t : GoStorageCalls K V} (entries : List (Option (CacheEntry K V))) :
      GoStorageStep t { t with calls := t.calls ++
        [⟨⟨⟨true, (t.store.sortedBuckets hashKey (entryKeys entries)).map Int.toNat, 0, false⟩,
          false⟩, .setMulti entries 0⟩] }
  | set {t : GoStorageCalls K V} (entry : CacheEntry K V) {mu mu' : GoRWMutex} :
      (t.mus (bucketIndex hashKey t.store.bucketsSize entry.entry.key).toNat).announce =
        some mu → mu.acquire = some mu' →
      GoStorageStep t { t with
        store := t.store.set hashKey cloner entry
        written := t.written ++ [entry] }
  | call {t t' : GoStorageCalls K V} : GoDataCallStep hashKey cloner t t' → GoStorageStep t t'

/-- What `NewInMemoryStorage` builds with `bucketsSize` buckets: every bucket empty, every
mutex free, no call, and nothing written. -/
def GoStorageCalls.init (bucketsSize : Nat) : GoStorageCalls K V :=
  ⟨⟨bucketsSize, fun _ _ => none⟩, fun _ => GoRWMutex.unlocked, [], []⟩

/-- The states reachable from a storage with `bucketsSize` buckets. -/
inductive GoStorageReachable (bucketsSize : Nat) : GoStorageCalls K V → Prop
  | init : GoStorageReachable bucketsSize (GoStorageCalls.init bucketsSize)
  | step {t t' : GoStorageCalls K V} : GoStorageReachable bucketsSize t →
      GoStorageStep hashKey cloner t t' → GoStorageReachable bucketsSize t'

/-! ## The state `Linearizable` sees -/

/-- The state as `Linearizable` sees it: each mutex through `toRWMutex`, each call without its
announcement. -/
def GoStorageCalls.toStorageCalls (t : GoStorageCalls K V) : StorageCalls K V :=
  ⟨t.store, GoRWMutex.toRWMutex ∘ t.mus, t.calls.map GoDataCall.toDataCall, t.written⟩

namespace GoStorageCalls

variable {t t' : GoStorageCalls K V} {i : Nat} {c : GoDataCall K V}

omit [DecidableEq K] [Inhabited V] in
theorem toStorageCalls_getElem? (found : t.calls[i]? = some c) :
    t.toStorageCalls.calls[i]? = some c.toDataCall := by
  simp [toStorageCalls, found]

omit [DecidableEq K] [Inhabited V] in
theorem toStorageCalls_update (bucket : Nat) (mu : GoRWMutex) (calls : List (GoDataCall K V)) :
    (GoStorageCalls.mk t.store (Function.update t.mus bucket mu) calls t.written).toStorageCalls =
      ⟨t.store, Function.update t.toStorageCalls.mus bucket mu.toRWMutex,
        calls.map GoDataCall.toDataCall, t.written⟩ := by
  simp [toStorageCalls, Function.comp_update]

/-- The locks and calls as `GoLockOrder` sees them. -/
def toGoBatches (t : GoStorageCalls K V) : GoBatches := ⟨t.mus, t.calls.map GoDataCall.lock⟩

omit [DecidableEq K] [Inhabited V] in
theorem toGoBatches_getElem? (found : t.calls[i]? = some c) :
    t.toGoBatches.calls[i]? = some c.lock := by
  simp [toGoBatches, found]

omit [DecidableEq K] [Inhabited V] in
theorem getElem?_toGoBatches {b : GoBatchCall} (found : t.toGoBatches.calls[i]? = some b) :
    ∃ d, t.calls[i]? = some d ∧ d.lock = b := by
  simpa [toGoBatches] using found

theorem toStep (seen : t.toStorageCalls.toBatches.Inv)
    (moved : GoStorageStep hashKey cloner t t') :
    StorageStep hashKey cloner t.toStorageCalls t'.toStorageCalls ∨
      t'.toStorageCalls = t.toStorageCalls := by
  cases moved with
  | getMulti now keys =>
      exact .inl (by simpa [toStorageCalls, GoDataCall.toDataCall] using
        (StorageStep.getMulti now keys : StorageStep hashKey cloner t.toStorageCalls _))
  | setMulti entries =>
      exact .inl (by simpa [toStorageCalls, GoDataCall.toDataCall] using
        (StorageStep.setMulti entries : StorageStep hashKey cloner t.toStorageCalls _))
  | set entry announced acquired =>
      have granted := GoRWMutex.toRWMutex_acquire acquired
      rw [GoRWMutex.toRWMutex_announce announced] at granted
      exact .inl (.set entry granted)
  | call moved =>
      cases moved with
      | rLock found active reader next granted =>
          refine .inl (.call ?_)
          rw [toStorageCalls_update, List.map_set]
          exact .lock (toStorageCalls_getElem? found) active next
            (by simpa [reader, toStorageCalls, GoDataCall.toDataCall] using
              GoRWMutex.toRWMutex_rLock granted)
      | announce found _ _ _ _ granted =>
          have kept := set_of_getElem? (toStorageCalls_getElem? found)
          rw [toStorageCalls_update, List.map_set, GoRWMutex.toRWMutex_announce granted]
          exact .inr (by simpa [toStorageCalls, GoDataCall.toDataCall] using kept)
      | acquire found active writer _ next granted =>
          refine .inl (.call ?_)
          rw [toStorageCalls_update, List.map_set]
          exact .lock (toStorageCalls_getElem? found) active next
            (by simpa [writer, toStorageCalls, GoDataCall.toDataCall] using
              GoRWMutex.toRWMutex_acquire granted)
      | read found active holding work next =>
          exact .inl (.call (by simpa [toStorageCalls, List.map_set, GoDataCall.toDataCall] using
            (DataCallStep.read (toStorageCalls_getElem? found) active holding work next :
              DataCallStep hashKey cloner t.toStorageCalls _)))
      | write found active holding work next =>
          exact .inl (.call (by simpa [toStorageCalls, List.map_set, GoDataCall.toDataCall] using
            (DataCallStep.write (toStorageCalls_getElem? found) active holding work next :
              DataCallStep hashKey cloner t.toStorageCalls _)))
      | @ret i c found active complete done =>
          have sorted := (seen.sorted c.lock.call
            (StorageCalls.lock_mem_toBatches (List.getElem?_mem (toStorageCalls_getElem? found)))).1
          exact .inl (.call (by
            simpa [toStorageCalls, List.map_set, GoDataCall.toDataCall,
              toRWMutex_comp_goUnlock sorted.nodup] using
            (DataCallStep.ret (toStorageCalls_getElem? found) active complete done :
              DataCallStep hashKey cloner t.toStorageCalls _)))

theorem toGoStep (moved : GoStorageStep hashKey cloner t t') :
    GoStep t.store hashKey t.toGoBatches t'.toGoBatches ∨ t'.toGoBatches = t.toGoBatches := by
  cases moved with
  | getMulti now keys =>
      exact .inl (by simpa [toGoBatches] using
        (GoStep.start false keys : GoStep t.store hashKey t.toGoBatches _))
  | setMulti entries =>
      exact .inl (by simpa [toGoBatches] using
        (GoStep.start true (entryKeys entries) : GoStep t.store hashKey t.toGoBatches _))
  | set => exact .inr rfl
  | call moved =>
      cases moved with
      | rLock found active reader next granted =>
          exact .inl (.call (by simpa [toGoBatches, List.map_set] using
            (GoCallStep.rLock (toGoBatches_getElem? found) active reader next granted)))
      | announce found active writer quiet next granted =>
          exact .inl (.call (by simpa [toGoBatches, List.map_set] using
            (GoCallStep.announce (toGoBatches_getElem? found) active writer quiet next granted)))
      | acquire found active writer announced next granted =>
          exact .inl (.call (by simpa [toGoBatches, List.map_set] using
            (GoCallStep.acquire (toGoBatches_getElem? found) active writer announced next
              granted)))
      | read found | write found =>
          exact .inr (by simpa [toGoBatches, List.map_set] using
            set_of_getElem? (toGoBatches_getElem? found))
      | ret found active complete _ =>
          exact .inl (.call (by simpa [toGoBatches, List.map_set] using
            (GoCallStep.ret (toGoBatches_getElem? found) active complete)))

/-- `Linearizable`'s invariant of the state it sees, and `GoLockOrder`'s of the locks. -/
structure Inv (t : GoStorageCalls K V) : Prop where
  seen : t.toStorageCalls.Inv hashKey cloner
  locks : t.toGoBatches.Inv

variable {hashKey cloner}

theorem Inv.step (inv : t.Inv hashKey cloner) (moved : GoStorageStep hashKey cloner t t') :
    t'.Inv hashKey cloner where
  seen := (toStep hashKey cloner inv.seen.seen moved).elim inv.seen.step (· ▸ inv.seen)
  locks := (toGoStep hashKey cloner moved).elim
    (inv.locks.step t.store hashKey inv.seen.positive) (· ▸ inv.locks)

theorem Inv.exists_goDataCallStep (inv : t.Inv hashKey cloner)
    (running : ∃ c ∈ t.calls, c.lock.call.returned = false) :
    ∃ t', GoDataCallStep hashKey cloner t t' := by
  obtain ⟨c, member, active⟩ := running
  obtain ⟨_, moved⟩ := inv.locks.some_call_moves ⟨c.lock, List.mem_map_of_mem _ member, active⟩
  cases moved with
  | rLock found active reader next granted =>
      obtain ⟨d, located, rfl⟩ := getElem?_toGoBatches found
      exact ⟨_, .rLock located active reader next granted⟩
  | announce found active writer quiet next granted =>
      obtain ⟨d, located, rfl⟩ := getElem?_toGoBatches found
      exact ⟨_, .announce located active writer quiet next granted⟩
  | acquire found active writer announced next granted =>
      obtain ⟨d, located, rfl⟩ := getElem?_toGoBatches found
      exact ⟨_, .acquire located active writer announced next granted⟩
  | ret found active holding =>
      obtain ⟨d, located, rfl⟩ := getElem?_toGoBatches found
      rcases inv.seen.next_work (List.getElem?_mem (toStorageCalls_getElem? located)) active with
        done | ⟨_, _, _, _, work, next⟩ | ⟨_, _, _, work, next⟩
      · exact ⟨_, .ret located active holding done⟩
      · exact ⟨_, .read located active holding work next⟩
      · exact ⟨_, .write located active holding work next⟩

end GoStorageCalls

theorem GoDataCallStep.pending_lt {t t' : GoStorageCalls K V}
    (moved : GoDataCallStep hashKey cloner t t') : t'.pending < t.pending := by
  cases moved with
  | rLock found active reader next _ =>
      have := (List.getElem?_eq_some_iff.mp next).1
      refine foldr_lt_of_set GoDataCall.pending found ?_
      simp only [GoDataCall.pending, GoBatchCall.lockMovesLeft, BatchCall.advance, active, reader,
        Bool.false_eq_true, if_false]
      omega
  | announce found active writer quiet next _ =>
      have := (List.getElem?_eq_some_iff.mp next).1
      refine foldr_lt_of_set GoDataCall.pending found ?_
      simp only [GoDataCall.pending, GoBatchCall.lockMovesLeft, active, writer, quiet,
        Bool.false_eq_true, if_false, if_true]
      omega
  | acquire found active writer announced next _ =>
      have := (List.getElem?_eq_some_iff.mp next).1
      refine foldr_lt_of_set GoDataCall.pending found ?_
      simp only [GoDataCall.pending, GoBatchCall.lockMovesLeft, BatchCall.advance, active, writer,
        announced, Bool.false_eq_true, if_false, if_true]
      omega
  | read found active _ work next | write found active _ work next =>
      have := (List.getElem?_eq_some_iff.mp next).1
      refine foldr_lt_of_set GoDataCall.pending found ?_
      simp only [GoDataCall.pending, active, work, Work.remaining, Bool.false_eq_true, if_false,
        List.length_append, List.length_singleton]
      omega
  | ret found active _ _ =>
      exact foldr_lt_of_set GoDataCall.pending found
        (by simp [GoDataCall.pending, BatchCall.finish, active])

theorem GoDataCallStep.length_calls {t t' : GoStorageCalls K V}
    (moved : GoDataCallStep hashKey cloner t t') : t'.calls.length = t.calls.length := by
  cases moved <;> exact List.length_set ..

theorem GoStorageCalls.Inv.all_return {t : GoStorageCalls K V} (inv : t.Inv hashKey cloner) :
    ∃ t', Relation.ReflTransGen (GoDataCallStep hashKey cloner) t t' ∧
      t'.calls.length = t.calls.length ∧ ∀ c ∈ t'.calls, c.lock.call.returned = true := by
  have step (t' t'' : GoStorageCalls K V)
      (holds : t'.Inv hashKey cloner ∧ t'.calls.length = t.calls.length)
      (moved : GoDataCallStep hashKey cloner t' t'') :
      (t''.Inv hashKey cloner ∧ t''.calls.length = t.calls.length) ∧
        t''.pending < t'.pending :=
    ⟨⟨holds.1.step (.call moved), (GoDataCallStep.length_calls hashKey cloner moved).trans
      holds.2⟩, moved.pending_lt⟩
  obtain ⟨t', run, ⟨-, same⟩, returned⟩ := exists_run_to_finished GoStorageCalls.pending _
    (fun t' => ∀ c ∈ t'.calls, c.lock.call.returned = true) step
    (fun _ holds running => holds.1.exists_goDataCallStep (by simpa using running)) ⟨inv, rfl⟩
  exact ⟨t', run, same, returned⟩

theorem GoStorageReachable.inv {bucketsSize : Nat} (positive : 0 < bucketsSize)
    {t : GoStorageCalls K V} (reachable : GoStorageReachable hashKey cloner bucketsSize t) :
    t.Inv hashKey cloner := by
  induction reachable with
  | init => exact ⟨StorageCalls.Inv.init hashKey cloner positive, GoBatches.Inv.init⟩
  | step _ moved inv => exact inv.step moved

theorem GoStorageReachable.toStorageReachable {bucketsSize : Nat} (positive : 0 < bucketsSize)
    {t : GoStorageCalls K V} (reachable : GoStorageReachable hashKey cloner bucketsSize t) :
    StorageReachable hashKey cloner bucketsSize t.toStorageCalls := by
  induction reachable with
  | init => exact .init
  | step _ moved seen =>
      rcases GoStorageCalls.toStep hashKey cloner
        (StorageReachable.inv hashKey cloner positive seen).seen moved with moved | same
      · exact seen.step moved
      · exact same ▸ seen

/-! ## Linearizability on Go's mutexes -/

section Reachable

variable {bucketsSize : Nat} (positive : 0 < bucketsSize) {t : GoStorageCalls K V}
  (reachable : GoStorageReachable hashKey cloner bucketsSize t)
include positive reachable

/-- On Go's mutexes, a `GetMulti` that has read all its keys and not yet returned has read
what `ttlMap`'s `GetMulti` answers after the writes that have returned. -/
theorem GoStorageReachable.goGetMulti_linearizable {i : Nat} {c : GoDataCall K V}
    (found : t.calls[i]? = some c) (active : c.lock.call.returned = false) {now : Instant}
    {keys : List K} {read : List (Option (CacheEntry K V))}
    (work : c.work = .getMulti now keys read) (finished : read.length = keys.length) :
    (ttlMap cloner).getMulti t.written now keys = .ok read :=
  (StorageReachable.inv hashKey cloner positive
    (reachable.toStorageReachable hashKey cloner positive)).getMulti_of_finished
      (List.getElem?_mem (GoStorageCalls.toStorageCalls_getElem? found)) active work finished

omit positive reachable in
theorem goGetMulti_reads_returned_setMulti :
    ∃ t : GoStorageCalls Int Nat, GoStorageReachable id id 2 t ∧ t.written = [sevenAtZero] ∧
      (∃ c, t.calls[1]? = some c ∧ c.lock.call.returned = false ∧
        c.work = .getMulti 5 [0] [some sevenAtZero]) ∧
      (ttlMap id).getMulti t.written 5 [0] = .ok [some sevenAtZero] := by
  have started : GoStorageReachable (id : Int → Int) (id : Nat → Nat) 2 _ :=
    .step .init (.setMulti [some sevenAtZero])
  have announced :=
    GoStorageReachable.step started (.call (.announce (i := 0) rfl rfl rfl rfl rfl rfl))
  have acquired :=
    GoStorageReachable.step announced (.call (.acquire (i := 0) rfl rfl rfl rfl rfl rfl))
  have wrote := GoStorageReachable.step acquired (.call (.write (i := 0) rfl rfl rfl rfl rfl))
  have returned := GoStorageReachable.step wrote (.call (.ret (i := 0) rfl rfl rfl rfl))
  have reading := GoStorageReachable.step returned (.getMulti 5 [0])
  have readLocked :=
    GoStorageReachable.step reading (.call (.rLock (i := 1) rfl rfl rfl rfl rfl))
  have done := GoStorageReachable.step readLocked (.call (.read (i := 1) rfl rfl rfl rfl rfl))
  exact ⟨_, done, rfl, ⟨_, rfl, rfl, rfl⟩,
    GoStorageReachable.goGetMulti_linearizable id id (by decide) done (i := 1) rfl rfl rfl rfl⟩

/-- On Go's mutexes, a `Get`, which reads once its bucket's mutex grants `RLock`, answers what
`ttlMap`'s `Get` answers after the writes that have returned. -/
theorem GoStorageReachable.goGet_linearizable (now : Instant) (key : K) {mu : GoRWMutex}
    (granted : (t.mus (bucketIndex hashKey t.store.bucketsSize key).toNat).rLock = some mu) :
    (ttlMap cloner).get t.written now key = .ok (t.store.get hashKey cloner now key) :=
  (StorageReachable.inv hashKey cloner positive
    (reachable.toStorageReachable hashKey cloner positive)).get_of_rLock now key
      (GoRWMutex.toRWMutex_rLock granted)

omit positive reachable in
theorem goGet_reads_returned_setMulti :
    ∃ t : GoStorageCalls Int Nat, GoStorageReachable id id 2 t ∧ t.written = [sevenAtZero] ∧
      (t.mus 0).rLock = some ⟨1, .free⟩ ∧
      (ttlMap id).get t.written 5 0 = .ok (t.store.get id id 5 0) ∧
      t.store.get id id 5 0 = some sevenAtZero := by
  have started : GoStorageReachable (id : Int → Int) (id : Nat → Nat) 2 _ :=
    .step .init (.setMulti [some sevenAtZero])
  have announced :=
    GoStorageReachable.step started (.call (.announce (i := 0) rfl rfl rfl rfl rfl rfl))
  have acquired :=
    GoStorageReachable.step announced (.call (.acquire (i := 0) rfl rfl rfl rfl rfl rfl))
  have wrote := GoStorageReachable.step acquired (.call (.write (i := 0) rfl rfl rfl rfl rfl))
  have returned := GoStorageReachable.step wrote (.call (.ret (i := 0) rfl rfl rfl rfl))
  exact ⟨_, returned, rfl, rfl,
    GoStorageReachable.goGet_linearizable id id (by decide) returned 5 0 rfl, rfl⟩

/-- On Go's mutexes too, no call waits forever on another: from every reachable state the calls
that have started can all return by their own moves, none starting meanwhile, although an
`RLock` waits behind an announced `Lock`. -/
theorem GoStorageReachable.goCalls_return :
    ∃ t', Relation.ReflTransGen (GoDataCallStep hashKey cloner) t t' ∧
      t'.calls.length = t.calls.length ∧ ∀ c ∈ t'.calls, c.lock.call.returned = true :=
  (GoStorageReachable.inv hashKey cloner positive reachable).all_return

omit positive reachable in
theorem goGetMulti_behind_announced_return :
    ∃ t : GoStorageCalls Int Nat, GoStorageReachable id id 2 t ∧ t.calls.length = 2 ∧
      (∀ c ∈ t.calls, c.lock.call.returned = false) ∧ (t.mus 0).rLock = none ∧
      ∃ t', Relation.ReflTransGen (GoDataCallStep id id) t t' ∧ t'.calls.length = 2 ∧
        ∀ c ∈ t'.calls, c.lock.call.returned = true := by
  have started : GoStorageReachable (id : Int → Int) (id : Nat → Nat) 2 _ :=
    .step .init (.setMulti [some sevenAtZero])
  have announced :=
    GoStorageReachable.step started (.call (.announce (i := 0) rfl rfl rfl rfl rfl rfl))
  have waiting := GoStorageReachable.step announced (.getMulti 5 [0])
  exact ⟨_, waiting, rfl, by decide, rfl,
    GoStorageReachable.goCalls_return id id (by decide) waiting⟩

end Reachable

end LoadingCache.MemStorage
