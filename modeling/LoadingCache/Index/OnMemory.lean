import LoadingCache.Basic

/-!
# The on-memory index

`omcindex.OnMemoryIndex` keeps the map `m` its source's `GetAll` last answered, `nil` until a
first `Refresh` stores one, and the flag `goexit` that a `GetAll` calling `runtime.Goexit`
sets.  A reader that holds the read lock waits on the condition variable while `m` is `nil`,
or calls `runtime.Goexit` if the flag is set; otherwise it copies lists out of `m`.  `get` and
`getMulti` see a reader at the moment it holds the read lock; `getCall` and `getMultiCall`
follow a whole call with the `sync.RWMutex` `mu`, and `refreshCall` a `Refresh` with its write
lock.

`Refresh` stores whatever map `GetAll` returned without an error, a `nil` map included, and
a reader then waits again as before the first `Refresh`.
-/

namespace LoadingCache.OnMemory

variable {SK PK : Type}

/-- A Go map `map[SK][]PK` that is not `nil`: a key it lacks is `none`. -/
abbrev Snapshot (SK PK : Type) := SK → Option (List PK)

/-- The state of an `OnMemoryIndex`: `m` is `none` while the map is `nil`. -/
structure OnMemoryIndex (SK PK : Type) where
  goexit : Bool
  m : Option (Snapshot SK PK)

/-- `NewOnMemoryIndex`. -/
def OnMemoryIndex.new : OnMemoryIndex SK PK := ⟨false, none⟩

/-- `Refresh`, with `getAll` how the source's `GetAll` ended.  A panic comes back from
`Invoke` as an error; on `runtime.Goexit`, `OnGoexit` sets the flag and the caller exits. -/
def OnMemoryIndex.refresh (getAll : Exit (Except GoError (Option (Snapshot SK PK))))
    (i : OnMemoryIndex SK PK) : OnMemoryIndex SK PK × Exit (Except GoError Unit) :=
  match DoubleDeferSandwich.invoke getAll with
  | .goexit => ({ i with goexit := true }, .goexit)
  | .returned (.error err) => (i, .normal (.error err))
  | .returned (.ok m) => ({ i with m := m }, .normal (.ok ()))

/-- Where a reader holding the read lock goes: into the wait on the condition variable,
into `runtime.Goexit`, or out with a result. -/
inductive Read (α : Type) where
  | waits
  | goexit
  | returned (result : α)

/-- The wait loop of `Get` and `GetMulti`, entered with the read lock held. -/
def OnMemoryIndex.awaitSnapshot {α : Type} (i : OnMemoryIndex SK PK) (read : Snapshot SK PK → α) :
    Read α :=
  match i.m with
  | none => if i.goexit then .goexit else .waits
  | some m => .returned (read m)

/-- `Get`: a copy of the list of `sk`, `nil` for a key the map lacks. -/
def OnMemoryIndex.get (i : OnMemoryIndex SK PK) (sk : SK) : Read (List PK) :=
  i.awaitSnapshot fun m => (m sk).getD []

/-- `GetMulti`: a copy of the list of every key the map holds. -/
def OnMemoryIndex.getMulti [DecidableEq SK] (i : OnMemoryIndex SK PK) (sks : List SK) :
    Read (Snapshot SK PK) :=
  i.awaitSnapshot fun m => sks.foldl (fun result sk => match m sk with
    | some pks => Function.update result sk (some pks)
    | none => result) fun _ => none

/-- `Refresh` called once for each outcome of `GetAll`, in order. -/
def OnMemoryIndex.refreshAll (getAlls : List (Exit (Except GoError (Option (Snapshot SK PK)))))
    (i : OnMemoryIndex SK PK) : OnMemoryIndex SK PK :=
  getAlls.foldl (fun i getAll => (i.refresh getAll).1) i

theorem OnMemoryIndex.awaitSnapshot_of_goexit {α : Type} {i : OnMemoryIndex SK PK}
    (empty : i.m = none) (flagged : i.goexit = true) (read : Snapshot SK PK → α) :
    i.awaitSnapshot read = .goexit := by
  simp [OnMemoryIndex.awaitSnapshot, empty, flagged]

/-- After a `Refresh` that returned `nil`, a second `Refresh` whose `GetAll` answers a `nil`
map without an error also returns `nil`, and puts the index back in its uninitialised state:
`Get` and `GetMulti` wait on the condition variable again. -/
theorem refresh_nil_map_blocks_readers :
    let first : OnMemoryIndex Nat Nat × Exit (Except GoError Unit) :=
      OnMemoryIndex.new.refresh (.normal (.ok (some fun _ => some [1])))
    let second := first.1.refresh (.normal (.ok none))
    first.2 = .normal (.ok ()) ∧ second.2 = .normal (.ok ()) ∧ second.1.m = none ∧
      second.1.get 0 = .waits ∧ second.1.getMulti [0] = .waits :=
  ⟨rfl, rfl, rfl, rfl, rfl⟩

/-! ## Locks

`Get` and `GetMulti` take the read lock of `mu` through `rl.LockCtx`, which races the lock
against the caller's context, and wait while `m` is `nil` on `sc`, a condition variable over the
same read lock.  `defer i.rl.Unlock()` is registered only once the wait loop is left with a
map.  A call is followed to its end, helpers included, with the mutex as the other goroutines
leave it: they release what they take. -/

/-- How a race against the caller's context ends: the awaited event comes first, or the
context ends first. -/
inductive Race where
  | granted
  | canceled
  deriving DecidableEq, Repr

/-- How one wait on the condition variable ends: the context ends first, or a `Refresh` (or
its `OnGoexit`) broadcasts and leaves the index as `i`. -/
inductive Wake (SK PK : Type) where
  | canceled
  | broadcast (i : OnMemoryIndex SK PK)

/-- `CtxLocker.LockCtx` on `rl`, whose `Locker` is `mu.RLocker()`.  That locker has no
`TryLock`, so a helper goroutine takes the lock; when the context ends first, the helper takes
the lock once it is granted and releases it at once.  `none` while the lock is not granted. -/
def CtxLocker.lockCtx (race : Race) (mu : RWMutex) : Option (Except GoError Unit × RWMutex) :=
  match race with
  | .granted => mu.rLock.map fun mu => (.ok (), mu)
  | .canceled => some (.error .canceled, mu)

/-- `CtxSyncCond.WaitCtx` on `sc`: `Cond.Wait`, in a helper goroutine, releases the read lock,
waits for a broadcast and takes the lock again.  When the context ends first, the helper
releases the lock once its wait ends. -/
def CtxSyncCond.waitCtx (wake : Wake SK PK) (mu : RWMutex) :
    Except GoError (OnMemoryIndex SK PK) × RWMutex :=
  match wake with
  | .broadcast i => (.ok i, mu)
  | .canceled => (.error .canceled, mu.rUnlock)

/-- The wait loop of `Get` and `GetMulti`, entered holding the read lock; `view` is the call
seen holding it, and `wakes` how each wait ends.  The call's end and the mutex after it;
`none` while it waits for a broadcast that does not come. -/
def OnMemoryIndex.readLoop {α : Type} (view : OnMemoryIndex SK PK → Read α) :
    OnMemoryIndex SK PK → RWMutex → List (Wake SK PK) →
      Option (Exit (Except GoError α) × RWMutex)
  | i, mu, wakes =>
      match view i, wakes with
      | .returned result, _ => some (.normal (.ok result), mu.rUnlock)
      | .goexit, _ => some (.goexit, mu)
      | .waits, [] => none
      | .waits, wake :: wakes =>
          match CtxSyncCond.waitCtx wake mu with
          | (.error err, mu) => some (.normal (.error err), mu)
          | (.ok i, mu) => readLoop view i mu wakes

/-- `Get` or `GetMulti` as a whole call: `LockCtx`, then the wait loop. -/
def OnMemoryIndex.readCall {α : Type} (view : OnMemoryIndex SK PK → Read α) (race : Race)
    (wakes : List (Wake SK PK)) (i : OnMemoryIndex SK PK) (mu : RWMutex) :
    Option (Exit (Except GoError α) × RWMutex) :=
  (CtxLocker.lockCtx race mu).bind fun
    | (.error err, mu) => some (.normal (.error err), mu)
    | (.ok (), mu) => i.readLoop view mu wakes

/-- `Get(ctx, sk)` as a whole call. -/
def OnMemoryIndex.getCall (race : Race) (wakes : List (Wake SK PK)) (sk : SK)
    (i : OnMemoryIndex SK PK) (mu : RWMutex) : Option (Exit (Except GoError (List PK)) × RWMutex) :=
  i.readCall (fun i => i.get sk) race wakes mu

/-- `GetMulti(ctx, sks)` as a whole call. -/
def OnMemoryIndex.getMultiCall [DecidableEq SK] (race : Race) (wakes : List (Wake SK PK))
    (sks : List SK) (i : OnMemoryIndex SK PK) (mu : RWMutex) :
    Option (Exit (Except GoError (Snapshot SK PK)) × RWMutex) :=
  i.readCall (fun i => i.getMulti sks) race wakes mu

/-- `Refresh` with its lock: `OnGoexit` and the store of the map each run under
`i.mu.Lock()`; a `GetAll` that fails returns before either.  `none` while `Lock` waits. -/
def OnMemoryIndex.refreshCall (getAll : Exit (Except GoError (Option (Snapshot SK PK))))
    (i : OnMemoryIndex SK PK) (mu : RWMutex) :
    Option ((OnMemoryIndex SK PK × Exit (Except GoError Unit)) × RWMutex) :=
  match DoubleDeferSandwich.invoke getAll with
  | .returned (.error err) => some ((i, .normal (.error err)), mu)
  | _ => mu.lock.map fun mu => (i.refresh getAll, mu.unlock)

section Locks

variable {α : Type} (view : OnMemoryIndex SK PK → Read α)

theorem OnMemoryIndex.readLoop_mutex :
    ∀ (wakes : List (Wake SK PK)) (i : OnMemoryIndex SK PK) (mu : RWMutex) exit mu',
      i.readLoop view mu wakes = some (exit, mu') →
        (exit = .goexit ∧ mu' = mu) ∨ (exit ≠ .goexit ∧ mu' = mu.rUnlock)
  | wakes, i, mu, exit, mu', ended => by
      unfold OnMemoryIndex.readLoop at ended
      split at ended
      · cases ended
        exact .inr ⟨nofun, rfl⟩
      · cases ended
        exact .inl ⟨rfl, rfl⟩
      · cases ended
      · rename_i wake wakes _
        cases wake with
        | canceled =>
            cases ended
            exact .inr ⟨nofun, rfl⟩
        | broadcast i => exact readLoop_mutex wakes i mu exit mu' ended

theorem OnMemoryIndex.readCall_mutex {race : Race} {wakes : List (Wake SK PK)}
    {i : OnMemoryIndex SK PK} {mu : RWMutex} (free : mu.writer = false) {exit mu'}
    (ended : i.readCall view race wakes mu = some (exit, mu')) :
    (exit = .goexit ∧ mu' = { mu with readers := mu.readers + 1 }) ∨
      (exit ≠ .goexit ∧ mu' = mu) := by
  cases race with
  | canceled =>
      cases ended
      exact .inr ⟨nofun, rfl⟩
  | granted =>
      simp only [OnMemoryIndex.readCall, CtxLocker.lockCtx, RWMutex.rLock_of_free free,
        Option.map_some', Option.some_bind] at ended
      simpa using i.readLoop_mutex view wakes _ exit mu' ended

theorem OnMemoryIndex.readCall_of_goexit {i : OnMemoryIndex SK PK} (exits : view i = .goexit)
    {mu : RWMutex} (free : mu.writer = false) (wakes : List (Wake SK PK)) :
    i.readCall view .granted wakes mu = some (.goexit, { mu with readers := mu.readers + 1 }) := by
  simp only [OnMemoryIndex.readCall, CtxLocker.lockCtx, RWMutex.rLock_of_free free,
    Option.map_some', Option.some_bind]
  unfold OnMemoryIndex.readLoop
  rw [exits]

theorem OnMemoryIndex.refreshCall_of_readers_pos (i : OnMemoryIndex SK PK) {mu : RWMutex}
    (held : 0 < mu.readers) {getAll : Exit (Except GoError (Option (Snapshot SK PK)))}
    (locks : getAll = .goexit ∨ ∃ m, getAll = .normal (.ok m)) : i.refreshCall getAll mu = none := by
  rcases locks with rfl | ⟨m, rfl⟩ <;>
    simp [OnMemoryIndex.refreshCall, DoubleDeferSandwich.invoke, RWMutex.lock_of_readers_pos held]

end Locks

/-- `Get` and `GetMulti` release the read lock on every path but one: with `m` `nil` and the
`goexit` flag set they call `runtime.Goexit` before `defer i.rl.Unlock()` is registered, and
end holding a read lock that nothing releases.  Every later `Refresh` whose `GetAll` returns a
map, or calls `runtime.Goexit`, then waits for good in `i.mu.Lock()`. -/
theorem getCall_goexit_keeps_read_lock [DecidableEq SK] (i : OnMemoryIndex SK PK) (mu : RWMutex)
    (free : mu.writer = false) (race : Race) (wakes : List (Wake SK PK)) (sk : SK)
    (sks : List SK) :
    let leaked : RWMutex := { mu with readers := mu.readers + 1 }
    (∀ exit mu', i.getCall race wakes sk mu = some (exit, mu') →
      (exit = .goexit ∧ mu' = leaked) ∨ (exit ≠ .goexit ∧ mu' = mu)) ∧
    (∀ exit mu', i.getMultiCall race wakes sks mu = some (exit, mu') →
      (exit = .goexit ∧ mu' = leaked) ∨ (exit ≠ .goexit ∧ mu' = mu)) ∧
    (i.m = none → i.goexit = true →
      i.getCall .granted wakes sk mu = some (.goexit, leaked) ∧
        i.getMultiCall .granted wakes sks mu = some (.goexit, leaked)) ∧
    ∀ (later : OnMemoryIndex SK PK) getAll, (getAll = .goexit ∨ ∃ m, getAll = .normal (.ok m)) →
      later.refreshCall getAll leaked = none := by
  intro leaked
  refine ⟨fun _ _ => i.readCall_mutex _ free, fun _ _ => i.readCall_mutex _ free,
    fun empty flagged => ⟨?_, ?_⟩, fun later _ locks =>
      later.refreshCall_of_readers_pos (Nat.succ_pos _) locks⟩
  · exact i.readCall_of_goexit _ (i.awaitSnapshot_of_goexit empty flagged _) free wakes
  · exact i.readCall_of_goexit _ (i.awaitSnapshot_of_goexit empty flagged _) free wakes

theorem getCall_keeps_read_lock_after_goexit_refresh :
    let i : OnMemoryIndex Nat Nat := (OnMemoryIndex.new.refresh .goexit).1
    RWMutex.unlocked.writer = false ∧
      i.getCall .granted [] 0 RWMutex.unlocked = some (.goexit, ⟨1, false⟩) ∧
      i.refreshCall (.normal (.ok (some fun _ => some [1]))) ⟨1, false⟩ = none := by
  intro i
  have leak := getCall_goexit_keeps_read_lock i RWMutex.unlocked rfl .granted [] 0 [0]
  exact ⟨rfl, (leak.2.2.1 rfl rfl).1, leak.2.2.2 i _ (.inr ⟨_, rfl⟩)⟩

end LoadingCache.OnMemory
