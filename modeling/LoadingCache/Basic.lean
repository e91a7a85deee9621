import Mathlib.Logic.Function.Basic
import Mathlib.Data.List.Forall2

/-!
# Entries, errors and the interfaces of the loading cache

The data model of the root package: `Entry`, `CacheEntry`, the Go errors the code tells
apart, and how a call into user code ends (`Exit`).  `DoubleDeferSandwich.invoke` is what
`panicutil` makes of such an end.  The interfaces `LoadingSource`, `CacheStorage` and
`SourceLoader` are records of functions over the state they read and write; a call that
reads the clock receives the clock's reading as an argument.

`sync.RWMutex` is modelled twice: `RWMutex` grants `RLock` whenever no writer holds the lock,
and `GoRWMutex` is the mutex Go implements, where a `Lock` announces itself before it waits and
an `RLock` after the announcement waits too.  Every lock Go's grants, `RWMutex` grants as well
(`GoRWMutex.toRWMutex_rLock`, `GoRWMutex.toRWMutex_acquire`), so what holds of every run on
`RWMutex` holds on Go's; progress is proved on `GoRWMutex`.
-/

namespace LoadingCache

/-- `time.Time`, as an instant on one clock: `t.Before(u)` is `t < u`. -/
abbrev Instant := Int

/-- `Entry`: a key and its value. -/
structure Entry (K V : Type) where
  key : K
  value : V
  deriving DecidableEq, Repr

/-- `CacheEntry`: an `Entry` with its expiration time and the negative-cache flag. -/
structure CacheEntry (K V : Type) where
  entry : Entry K V
  expiresAt : Instant
  negativeCache : Bool
  deriving DecidableEq, Repr

/-- The value of a panic: one a callback raises, or the runtime's index-out-of-range error. -/
inductive PanicValue where
  | value (id : Nat)
  | indexOutOfRange
  deriving DecidableEq, Repr

/-- The Go `error` values the code tells apart. -/
inductive GoError where
  /-- `singleflightloader.errGoexit`, sent to waiters when a load called `runtime.Goexit`. -/
  | errGoexit
  /-- A recovered panic value, as `panics.Recovered.AsError` wraps it. -/
  | recovered (value : PanicValue)
  /-- `ctx.Err()` of a cancelled context. -/
  | canceled
  /-- Any other error a callback returns, told apart by identity. -/
  | other (id : Nat)
  deriving DecidableEq, Repr

/-- How a call into user code ends: it returns, panics with a value, or calls
`runtime.Goexit`. -/
inductive Exit (α : Type) where
  | normal (result : α)
  | panic (value : PanicValue)
  | goexit
  deriving DecidableEq, Repr

/-- What `DoubleDeferSandwich.Invoke` hands back to the goroutine that called it. -/
inductive Invoked (α : Type) where
  /-- `Invoke` returned: the wrapped call's own result, or its panic as an error. -/
  | returned (result : Except GoError α)
  /-- The wrapped call called `runtime.Goexit`: `OnGoexit` ran and the goroutine exits. -/
  | goexit

/-- `DoubleDeferSandwich.Invoke` on a call that ended as `call` did. -/
def DoubleDeferSandwich.invoke {α : Type} : Exit (Except GoError α) → Invoked α
  | .normal result => .returned result
  | .panic value => .returned (.error (.recovered value))
  | .goexit => .goexit

/-- `LoadingSource`: `Get` answers one key, `GetMulti` a list of keys in order; `none` is a
key the source does not have. -/
structure LoadingSource (K V : Type) where
  get : K → Except GoError (Option (CacheEntry K V))
  getMulti : List K → Except GoError (List (Option (CacheEntry K V)))

/-- A source that answers every key on its own: `GetMulti` succeeds with a list exactly when
`Get` succeeds on every key and the list is their answers in order. -/
def LoadingSource.PerKey {K V : Type} (source : LoadingSource K V) : Prop :=
  ∀ keys entries, source.getMulti keys = .ok entries ↔ keys.mapM source.get = .ok entries

/-- The `LoadingSource` contract that `LintSource` checks: an entry answered for a key has
that key. -/
def LoadingSource.Keyed {K V : Type} (source : LoadingSource K V) : Prop :=
  ∀ key cacheEntry, source.get key = .ok (some cacheEntry) → cacheEntry.entry.key = key

/-- The entry the source answers for a key, `nil` where it fails. -/
def LoadingSource.entryOf {K V : Type} (source : LoadingSource K V) (key : K) :
    Option (CacheEntry K V) :=
  match source.get key with
  | .ok cacheEntry => cacheEntry
  | .error _ => none

/-- A source outside `singleflightloader`: Go keeps it from returning that package's
unexported `errGoexit`. -/
structure LoadingSource.Foreign {K V : Type} (source : LoadingSource K V) : Prop where
  get_ne : ∀ key, source.get key ≠ .error .errGoexit
  getMulti_ne : ∀ keys, source.getMulti keys ≠ .error .errGoexit

/-- `CacheStorage` over a state `σ`; `Get` and `GetMulti` receive the clock reading. -/
structure CacheStorage (σ K V : Type) where
  get : σ → Instant → K → Except GoError (Option (CacheEntry K V))
  getMulti : σ → Instant → List K → Except GoError (List (Option (CacheEntry K V)))
  set : σ → CacheEntry K V → Except GoError σ
  setMulti : σ → List (Option (CacheEntry K V)) → Except GoError σ

/-- How a Go call ends, or that it never does: it returns a result or an error, panics, or
calls `runtime.Goexit`; `none` is a caller that waits for good. -/
abbrev Outcome (α : Type) := Option (Exit (Except GoError α))

/-- Go's `if err != nil { return nil, err }` before using a result: the call's result mapped
by `f`, any other end passed on. -/
def Outcome.map {α β : Type} (f : α → β) : Outcome α → Outcome β
  | some (.normal (.ok a)) => some (.normal (.ok (f a)))
  | some (.normal (.error err)) => some (.normal (.error err))
  | some (.panic p) => some (.panic p)
  | some .goexit => some .goexit
  | none => none

/-- What a caller gets of a cache entry: `nil` for a negative one, its `Entry` otherwise. -/
def CacheEntry.result {K V : Type} (e : CacheEntry K V) : Option (Entry K V) :=
  if e.negativeCache then none else some e.entry

/-- `SourceLoader` over a state `σ` holding what a load writes (the storage, and the
loader's own state). -/
structure SourceLoader (σ K V : Type) where
  loadAndStore : σ → K → Outcome (Option (Entry K V)) × σ
  loadAndStoreMulti : σ → List K → Outcome (List (Option (Entry K V))) × σ

/-- A call a caller makes on a `SourceLoader`. -/
inductive LoaderCall (K : Type) where
  | loadAndStore (key : K)
  | loadAndStoreMulti (keys : List K)

/-- The state after a caller's calls, made one at a time. -/
def SourceLoader.run {σ K V : Type} (loader : SourceLoader σ K V) : σ → List (LoaderCall K) → σ
  | s, [] => s
  | s, .loadAndStore key :: calls => loader.run (loader.loadAndStore s key).2 calls
  | s, .loadAndStoreMulti keys :: calls => loader.run (loader.loadAndStoreMulti s keys).2 calls

/-- What a read of the storage gives a caller: a hit's result, `nil` for a miss. -/
def hitResult {K V : Type} : Option (CacheEntry K V) → Option (Entry K V)
  | some cacheEntry => cacheEntry.result
  | none => none

theorem mapM_eq_ok_iff {ε α β : Type} (f : α → Except ε β) (xs : List α) (ys : List β) :
    xs.mapM f = .ok ys ↔ List.Forall₂ (fun x y => f x = .ok y) xs ys := by
  induction xs generalizing ys with
  | nil =>
      rw [List.mapM_nil]
      cases ys <;> simp [pure, Except.pure]
  | cons x xs inductionHypothesis =>
      cases ys with
      | nil =>
          simp only [List.mapM_cons, List.forall₂_nil_right_iff, reduceCtorEq, iff_false]
          cases f x <;> cases xs.mapM f <;> simp [bind, Except.bind, pure, Except.pure]
      | cons y ys =>
          rw [List.forall₂_cons, ← inductionHypothesis, List.mapM_cons]
          cases f x <;> cases xs.mapM f <;> simp [bind, Except.bind, pure, Except.pure]

theorem mapM_ok {ε α β : Type} (f : α → β) (xs : List α) :
    xs.mapM (fun x => (.ok (f x) : Except ε β)) = .ok (xs.map f) :=
  (mapM_eq_ok_iff _ _ _).mpr (List.forall₂_map_right_iff.mpr (List.forall₂_same.mpr fun _ _ => rfl))

theorem countP_set_add {α : Type} {l : List α} {i : Nat} {a : α} (found : l[i]? = some a)
    (p : α → Bool) (b : α) :
    (l.set i b).countP p + (if p a then 1 else 0) = l.countP p + (if p b then 1 else 0) := by
  obtain ⟨inside, rfl⟩ := List.getElem?_eq_some_iff.mp found
  have := List.boole_getElem_le_countP p l i inside
  rw [List.countP_set p l i b inside]
  omega

theorem set_of_getElem? {α : Type} {l : List α} {i : Nat} {a : α}
    (found : l[i]? = some a) : l.set i a = l :=
  List.ext_getElem? fun j => by
    rw [List.getElem?_set']
    split
    · next same => subst same; simp [found]
    · rfl

theorem foldr_add_set {α : Type} (f : α → Nat) {l : List α} {i : Nat} {a : α}
    (found : l[i]? = some a) (b : α) :
    (l.set i b).foldr (fun x n => f x + n) 0 + f a = l.foldr (fun x n => f x + n) 0 + f b := by
  induction l generalizing i with
  | nil => simp at found
  | cons x l inductionHypothesis =>
      cases i with
      | zero =>
          obtain rfl : x = a := by simpa using found
          simp only [List.set_cons_zero, List.foldr_cons]
          omega
      | succ i =>
          simp only [List.getElem?_cons_succ] at found
          have := inductionHypothesis found
          simp only [List.set_cons_succ, List.foldr_cons]
          omega

theorem foldr_lt_of_set {α : Type} (f : α → Nat) {l : List α} {i : Nat} {a b : α}
    (found : l[i]? = some a) (smaller : f b < f a) :
    (l.set i b).foldr (fun x n => f x + n) 0 < l.foldr (fun x n => f x + n) 0 := by
  have := foldr_add_set f found b
  omega

/-! ## Go maps and key equality

A Go map finds a key by the key type's `==`, here a `BEq` instance.  A map is read as the
function its lookups compute.  `==` is symmetric and transitive on every comparable Go type,
so after `m[key] = value` exactly the keys `==` to `key` read `value`.  It need not be
reflexive: a NaN is `==` to nothing, and a NaN key written to a map is never read back. -/

/-- The map assignment `m[key] = value`. -/
def mapAssign {K β : Type} [BEq K] (m : K → β) (key : K) (value : β) : K → β :=
  fun k => if k == key then value else m k

@[simp] theorem mapAssign_eq_update {K β : Type} [DecidableEq K] (m : K → β) (key : K)
    (value : β) : mapAssign m key value = Function.update m key value := by
  funext k
  simp [mapAssign, Function.update_apply]

/-- A Go `float64` by its IEEE 754 word, `math.Float64bits`.  Lean's `=` is identity of the
word; Go's `==` is the `BEq` instance below. -/
structure GoFloat64 where
  bits : UInt64
  deriving DecidableEq

namespace GoFloat64

def isNaN (x : GoFloat64) : Bool :=
  (x.bits >>> 52) &&& 0x7FF == 0x7FF && x.bits &&& 0xFFFFFFFFFFFFF != 0

def isZero (x : GoFloat64) : Bool := x.bits &&& 0x7FFFFFFFFFFFFFFF == 0

/-- Go's `==` on `float64`, IEEE equality: a NaN equals nothing, and `+0.0 == -0.0`. -/
instance (priority := high) : BEq GoFloat64 :=
  ⟨fun x y => !x.isNaN && !y.isNaN && (x.bits == y.bits || x.isZero && y.isZero)⟩

def posZero : GoFloat64 := ⟨0⟩

def negZero : GoFloat64 := ⟨0x8000000000000000⟩

/-- `math.NaN()`. -/
def nan : GoFloat64 := ⟨0x7FF8000000000001⟩

end GoFloat64

section Source

variable {K V : Type} {source : LoadingSource K V}

theorem LoadingSource.map_entryOf_of_mapM {keys : List K} {entries : List (Option (CacheEntry K V))}
    (h : keys.mapM source.get = .ok entries) : keys.map source.entryOf = entries := by
  rw [← List.forall₂_eq_eq_eq, List.forall₂_map_left_iff]
  exact ((mapM_eq_ok_iff _ _ _).mp h).imp fun key e answered => by
    simp [LoadingSource.entryOf, answered]

theorem LoadingSource.mapM_get_eq_ok_iff (keys : List K) :
    keys.mapM source.get = .ok (keys.map source.entryOf) ↔
      ∀ key ∈ keys, ∃ cacheEntry, source.get key = .ok cacheEntry := by
  rw [mapM_eq_ok_iff, List.forall₂_map_right_iff, List.forall₂_same]
  refine forall₂_congr fun key _ => ⟨fun answered => ⟨_, answered⟩, fun ⟨e, answered⟩ => ?_⟩
  simp [LoadingSource.entryOf, answered]

theorem LoadingSource.PerKey.getMulti_eq_ok_iff (perKey : source.PerKey) (keys : List K) :
    source.getMulti keys = .ok (keys.map source.entryOf) ↔
      ∀ key ∈ keys, ∃ cacheEntry, source.get key = .ok cacheEntry :=
  (perKey _ _).trans (LoadingSource.mapM_get_eq_ok_iff keys)

theorem LoadingSource.PerKey.getMulti_error (perKey : source.PerKey) {keys : List K}
    (refused : ¬ ∀ key ∈ keys, ∃ cacheEntry, source.get key = .ok cacheEntry) :
    ∃ err, source.getMulti keys = .error err := by
  cases answered : source.getMulti keys with
  | error err => exact ⟨err, rfl⟩
  | ok entries =>
      obtain rfl := LoadingSource.map_entryOf_of_mapM ((perKey _ _).mp answered)
      exact absurd ((perKey.getMulti_eq_ok_iff keys).mp answered) refused

theorem LoadingSource.Keyed.entryOf (keyed : source.Keyed) (key : K) (cacheEntry : CacheEntry K V)
    (h : source.entryOf key = some cacheEntry) : cacheEntry.entry.key = key := by
  rcases answered : source.get key with err | found
  · simp [LoadingSource.entryOf, answered] at h
  · simp only [LoadingSource.entryOf, answered] at h
    exact keyed key cacheEntry (h ▸ answered)

end Source

/-- `Index`: the primary keys of a secondary key.  `GetMulti` answers a Go map, read here as
a function where a key the map does not hold is `none`. -/
structure Index (SK PK : Type) where
  get : SK → Except GoError (List PK)
  getMulti : List SK → Except GoError (SK → Option (List PK))

/-- `sync.RWMutex` as far as safety needs it: how many read locks are held, and whether the write
lock is.  It grants `RLock` behind an announced `Lock`, which Go's does not (`GoRWMutex`), so it
over-approximates Go's runs and serves for invariants only. -/
structure RWMutex where
  readers : Nat
  writer : Bool
  deriving DecidableEq, Repr

namespace RWMutex

/-- The zero value: no lock held. -/
def unlocked : RWMutex := ⟨0, false⟩

/-- `RLock`: granted while the write lock is free, `none` while it waits. -/
def rLock (mu : RWMutex) : Option RWMutex :=
  if mu.writer then none else some { mu with readers := mu.readers + 1 }

def rUnlock (mu : RWMutex) : RWMutex := { mu with readers := mu.readers - 1 }

/-- `Lock`: granted once no lock of either kind is held, `none` while it waits. -/
def lock (mu : RWMutex) : Option RWMutex :=
  if mu.readers = 0 ∧ mu.writer = false then some { mu with writer := true } else none

def unlock (mu : RWMutex) : RWMutex := { mu with writer := false }

theorem rLock_of_free {mu : RWMutex} (free : mu.writer = false) :
    mu.rLock = some { mu with readers := mu.readers + 1 } := by
  simp [rLock, free]

theorem writer_eq_false_of_rLock {mu mu' : RWMutex} (granted : mu.rLock = some mu') :
    mu.writer = false := by
  cases free : mu.writer
  · rfl
  · simp [rLock, free] at granted

theorem lock_of_free {mu : RWMutex} (free : mu.readers = 0 ∧ mu.writer = false) :
    mu.lock = some { mu with writer := true } := by
  simp [lock, free]

theorem lock_of_readers_pos {mu : RWMutex} (held : 0 < mu.readers) : mu.lock = none := by
  simp [lock, Nat.pos_iff_ne_zero.mp held]

/-- What a protocol's invariant asks of a mutex held by `reads` read lockers and `writes`
write lockers: it counts the readers, is write-locked exactly when there is a writer, and a
writer holds it alone. -/
structure Accounts (mu : RWMutex) (reads writes : Nat) : Prop where
  readers : mu.readers = reads
  writer : mu.writer = decide (0 < writes)
  alone : 0 < writes → writes = 1 ∧ reads = 0

namespace Accounts

variable {mu mu' : RWMutex} {reads writes : Nat}

theorem unlocked : Accounts unlocked 0 0 := ⟨rfl, rfl, by simp⟩

theorem of_eq (accounts : Accounts mu reads writes) {reads' writes' : Nat}
    (sameReads : reads = reads') (sameWrites : writes = writes') : Accounts mu reads' writes' :=
  sameReads ▸ sameWrites ▸ accounts

theorem rLock (accounts : Accounts mu reads writes) (granted : mu.rLock = some mu') :
    Accounts mu' (reads + 1) writes := by
  obtain ⟨readers, writer, alone⟩ := accounts
  unfold RWMutex.rLock at granted
  split at granted
  · cases granted
  · next free =>
      cases granted
      have noWriter : writes = 0 := by simpa [free] using writer
      exact ⟨by simp [readers], by simp [free, noWriter], by omega⟩

theorem lock (accounts : Accounts mu reads writes) (granted : mu.lock = some mu') :
    Accounts mu' reads (writes + 1) := by
  obtain ⟨readers, writer, alone⟩ := accounts
  unfold RWMutex.lock at granted
  split at granted
  · next free =>
      cases granted
      have noWriter : writes = 0 := by simpa [free.2] using writer
      have noReader : reads = 0 := readers ▸ free.1
      exact ⟨readers, by simp, fun _ => ⟨by omega, noReader⟩⟩
  · cases granted

theorem rUnlock (accounts : Accounts mu (reads + 1) writes) :
    Accounts mu.rUnlock reads writes := by
  obtain ⟨readers, writer, alone⟩ := accounts
  exact ⟨by simp [RWMutex.rUnlock, readers], writer, fun held => by have := alone held; omega⟩

theorem unlock (accounts : Accounts mu reads (writes + 1)) :
    Accounts mu.unlock reads writes := by
  obtain ⟨readers, writer, alone⟩ := accounts
  have single := alone (Nat.succ_pos _)
  exact ⟨readers, by simp [RWMutex.unlock]; omega, by omega⟩

theorem writer_of_rLock_eq_none (accounts : Accounts mu reads writes)
    (blocked : mu.rLock = none) : 0 < writes := by
  unfold RWMutex.rLock at blocked
  split at blocked
  · next held => rw [accounts.writer] at held; exact of_decide_eq_true held
  · cases blocked

end Accounts

end RWMutex

/-! ## Go's `sync.RWMutex` -/

/-- The writer of a `sync.RWMutex`: none, one that has announced itself in `Lock` and waits for
the read locks to be given back, or one that holds the lock. -/
inductive WriterState where
  | free
  | waiting
  | holding
  deriving DecidableEq, Repr

/-- `sync.RWMutex` as Go implements it: the read locks held, and the writer.  `Lock` takes the
writers' mutex and announces itself before it waits for the readers, and an `RLock` after the
announcement waits for that writer's `Unlock`. -/
structure GoRWMutex where
  readers : Nat
  writer : WriterState
  deriving DecidableEq, Repr

namespace GoRWMutex

/-- The zero value. -/
def unlocked : GoRWMutex := ⟨0, .free⟩

/-- `RLock`: granted while no writer has announced itself, `none` while it waits. -/
def rLock (mu : GoRWMutex) : Option GoRWMutex :=
  if mu.writer = .free then some { mu with readers := mu.readers + 1 } else none

def rUnlock (mu : GoRWMutex) : GoRWMutex := { mu with readers := mu.readers - 1 }

/-- `Lock` up to its announcement: past the writers' mutex, which a writer keeps until its
`Unlock`. -/
def announce (mu : GoRWMutex) : Option GoRWMutex :=
  if mu.writer = .free then some { mu with writer := .waiting } else none

/-- The rest of `Lock`: the announced writer takes the lock once no read lock is held. -/
def acquire (mu : GoRWMutex) : Option GoRWMutex :=
  if mu.writer = .waiting ∧ mu.readers = 0 then some { mu with writer := .holding } else none

def unlock (mu : GoRWMutex) : GoRWMutex := { mu with writer := .free }

/-- The mutex as `RWMutex` sees it: a writer that has only announced itself holds nothing. -/
def toRWMutex (mu : GoRWMutex) : RWMutex := ⟨mu.readers, decide (mu.writer = .holding)⟩

section ToRWMutex

variable {mu mu' : GoRWMutex}

theorem toRWMutex_rLock (granted : mu.rLock = some mu') :
    mu.toRWMutex.rLock = some mu'.toRWMutex := by
  unfold rLock at granted
  split at granted
  · next free =>
      cases granted
      simp [toRWMutex, RWMutex.rLock, free]
  · cases granted

theorem toRWMutex_announce (granted : mu.announce = some mu') : mu'.toRWMutex = mu.toRWMutex := by
  unfold announce at granted
  split at granted
  · next free =>
      cases granted
      simp [toRWMutex, free]
  · cases granted

theorem toRWMutex_acquire (granted : mu.acquire = some mu') :
    mu.toRWMutex.lock = some mu'.toRWMutex := by
  unfold acquire at granted
  split at granted
  · next waiting =>
      cases granted
      simp [toRWMutex, RWMutex.lock, waiting]
  · cases granted

end ToRWMutex

/-- The writer state of `announced` announced writers and `writes` holding ones. -/
def writerOf (announced writes : Nat) : WriterState :=
  if 0 < writes then .holding else if 0 < announced then .waiting else .free

@[simp] theorem writerOf_eq_free {announced writes : Nat} :
    writerOf announced writes = .free ↔ announced = 0 ∧ writes = 0 := by
  unfold writerOf
  split_ifs <;> simp <;> omega

@[simp] theorem writerOf_eq_waiting {announced writes : Nat} :
    writerOf announced writes = .waiting ↔ 0 < announced ∧ writes = 0 := by
  unfold writerOf
  split_ifs <;> simp <;> omega

@[simp] theorem writerOf_eq_holding {announced writes : Nat} :
    writerOf announced writes = .holding ↔ 0 < writes := by
  unfold writerOf
  split_ifs <;> simp <;> omega

/-- What the index's invariant asks of its mutex with `reads` read locks held, `announced`
writers announced and `writes` holding it: it counts the read locks, its writer is theirs,
there is one writer at most, and a holding writer holds the lock alone. -/
structure Accounts (mu : GoRWMutex) (reads announced writes : Nat) : Prop where
  readers : mu.readers = reads
  writer : mu.writer = writerOf announced writes
  single : announced + writes ≤ 1
  alone : 0 < writes → reads = 0

namespace Accounts

variable {mu mu' : GoRWMutex} {reads announced writes : Nat}

theorem unlocked : Accounts GoRWMutex.unlocked 0 0 0 :=
  ⟨rfl, (writerOf_eq_free.mpr ⟨rfl, rfl⟩).symm, Nat.zero_le _, by simp⟩

theorem of_eq (accounts : Accounts mu reads announced writes) {reads' announced' writes' : Nat}
    (sameReads : reads = reads') (sameAnnounced : announced = announced')
    (sameWrites : writes = writes') : Accounts mu reads' announced' writes' :=
  sameReads ▸ sameAnnounced ▸ sameWrites ▸ accounts

theorem rLock (accounts : Accounts mu reads announced writes) (granted : mu.rLock = some mu')
    {reads' : Nat} (counted : reads' = reads + 1) : Accounts mu' reads' announced writes := by
  obtain ⟨readers, writer, single, alone⟩ := accounts
  unfold GoRWMutex.rLock at granted
  split at granted
  · next free =>
      cases granted
      have idle := writerOf_eq_free.mp (writer ▸ free)
      exact ⟨by simp [readers, counted], writer, single, by omega⟩
  · cases granted

theorem rUnlock (accounts : Accounts mu reads announced writes) {reads' : Nat}
    (counted : reads = reads' + 1) : Accounts mu.rUnlock reads' announced writes := by
  obtain ⟨readers, writer, single, alone⟩ := accounts
  exact ⟨by simp [GoRWMutex.rUnlock, readers, counted], writer, single, fun held => by
    have := alone held; omega⟩

theorem announce (accounts : Accounts mu reads announced writes)
    (granted : mu.announce = some mu') {announced' writes' : Nat}
    (counted : announced' = announced + 1) (same : writes' = writes) :
    Accounts mu' reads announced' writes' := by
  obtain ⟨readers, writer, single, alone⟩ := accounts
  unfold GoRWMutex.announce at granted
  split at granted
  · next free =>
      cases granted
      have idle := writerOf_eq_free.mp (writer ▸ free)
      exact ⟨readers, by rw [eq_comm, writerOf_eq_waiting]; omega, by omega, by omega⟩
  · cases granted

theorem acquire (accounts : Accounts mu reads announced writes)
    (granted : mu.acquire = some mu') {announced' writes' : Nat}
    (counted : announced = announced' + 1) (counted' : writes' = writes + 1) :
    Accounts mu' reads announced' writes' := by
  obtain ⟨readers, writer, single, alone⟩ := accounts
  unfold GoRWMutex.acquire at granted
  split at granted
  · next free =>
      cases granted
      exact ⟨readers, by rw [eq_comm, writerOf_eq_holding]; omega, by omega,
        fun _ => readers ▸ free.2⟩
  · cases granted

theorem unlock (accounts : Accounts mu reads announced writes) {announced' writes' : Nat}
    (counted : writes = writes' + 1) (same : announced' = announced) :
    Accounts mu.unlock reads announced' writes' := by
  obtain ⟨readers, writer, single, alone⟩ := accounts
  exact ⟨readers, (writerOf_eq_free.mpr ⟨by omega, by omega⟩).symm, by omega, by omega⟩

theorem writer_of_rLock_eq_none (accounts : Accounts mu reads announced writes)
    (blocked : mu.rLock = none) : 0 < announced + writes := by
  unfold GoRWMutex.rLock at blocked
  split at blocked
  · cases blocked
  · next busy =>
      rw [accounts.writer, writerOf_eq_free] at busy
      omega

end Accounts

theorem acquire_of_readers_pos {mu : GoRWMutex} (held : 0 < mu.readers) : mu.acquire = none := by
  simp [acquire, Nat.pos_iff_ne_zero.mp held]

theorem rLock_of_waiting {mu : GoRWMutex} (announced : mu.writer = .waiting) : mu.rLock = none := by
  simp [rLock, announced]

end GoRWMutex

end LoadingCache
