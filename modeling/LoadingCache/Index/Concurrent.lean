import Mathlib.Logic.Relation
import LoadingCache.Index.IntervalUpdater

/-!
# The on-memory index under concurrent calls

`Get`, `GetMulti` and `Refresh` calls on one `OnMemoryIndex` run in any interleaving, each with
the goroutines it starts.  The index's `sync.RWMutex` is the one Go implements: `Lock`
announces itself before it waits for the read locks to be given back, and an `RLock` after the
announcement waits for that writer.  `rl` is `mu.RLocker()`, which has no `TryLock`, so
`LockCtx` always starts a goroutine to take the read lock; `WaitCtx` starts one that waits in
`sc.Wait()`, on the same read lock, with the tickets of `sync.Cond`.  A caller's context may
end at any moment: its `select` then returns `ctx.Err()`, and the helpers go on, a second one
giving back the read lock the first takes.

Every move keeps one invariant (`Calls.Inv`): the mutex counts the read locks the calls'
goroutines hold and the writer among the `Refresh` calls, and a wait that no `Broadcast` has
reached sees a `nil` map and no flag, since both change only under the write lock, with a
`Broadcast`.  Hence no wakeup is lost, a writer holds the lock alone, and the locks never
deadlock, short of a read call that called `runtime.Goexit` holding the read lock: that lock
is never given back, the index never changes again, no `Refresh` takes the write lock, and once
one has announced itself no `RLock` is granted either.
-/

namespace LoadingCache.OnMemory

/-! ## The goroutines of a call -/

variable {SK PK α : Type}

/-- Where the goroutine that `WaitCtx` starts is in `c.Cond.Wait()`: `runtime_notifyListAdd`
takes a ticket, `c.L.Unlock()` gives back the read lock, `runtime_notifyListWait` returns once
a `Broadcast` has covered the ticket (`notified`), and `c.L.Lock()` takes the read lock again,
after which the deferred `close(lock)` runs. -/
inductive WaitPhase where
  | started
  | added (notified : Bool)
  | parked (notified : Bool)
  | relocked
  deriving DecidableEq, Repr

namespace WaitPhase

/-- Whether the read lock is held for this wait. -/
def holds : WaitPhase → Bool
  | .parked _ => false
  | _ => true

/-- `Broadcast`: every ticket taken is notified. -/
def notify : WaitPhase → WaitPhase
  | .added _ => .added true
  | .parked _ => .parked true
  | w => w

/-- Whether the wait has still to be reached by a `Broadcast`. -/
def unnotified : WaitPhase → Bool
  | .started | .added false | .parked false => true
  | _ => false

@[simp] theorem holds_notify (w : WaitPhase) : w.notify.holds = w.holds := by
  cases w <;> rfl

end WaitPhase

/-- Where a `Get` or `GetMulti` call is, with the goroutines it started. -/
inductive ReaderPhase (α : Type) where
  /-- In `rl.LockCtx(ctx)`: `canceled` once its `select` took `<-ctx.Done()` and returned
  `ctx.Err()`; `granted` once the helper's `Lock()` returned and closed `lock`. -/
  | locking (canceled granted : Bool)
  /-- Holding the read lock, at the check of `for i.m == nil`. -/
  | holding
  /-- In `i.sc.WaitCtx(ctx)`: `canceled` as above, with the helper at `wait`. -/
  | waiting (canceled : Bool) (wait : WaitPhase)
  /-- The call returned `result`, and every goroutine it started has ended. -/
  | returned (result : Except GoError α)
  /-- In `runtime.Goexit()`, the read lock held. -/
  | goexited

namespace ReaderPhase

/-- Whether the call's goroutines hold a read lock. -/
def holds : ReaderPhase α → Bool
  | .locking _ granted => granted
  | .holding | .goexited => true
  | .waiting _ wait => wait.holds
  | .returned _ => false

/-- `Broadcast`, as the call sees it. -/
def notify : ReaderPhase α → ReaderPhase α
  | .waiting canceled wait => .waiting canceled wait.notify
  | p => p

/-- Whether the call waits on the condition variable and no `Broadcast` has reached it. -/
def unnotified : ReaderPhase α → Bool
  | .waiting _ wait => wait.unnotified
  | _ => false

def isGoexited : ReaderPhase α → Bool
  | .goexited => true
  | _ => false

/-- The caller's context ends and its `select` takes `<-ctx.Done()`: `LockCtx` or `WaitCtx`
returns `ctx.Err()`, and so does the call. -/
def cancel : ReaderPhase α → Option (ReaderPhase α)
  | .locking false granted => some (.locking true granted)
  | .waiting false wait => some (.waiting true wait)
  | _ => none

@[simp] theorem holds_notify (p : ReaderPhase α) : p.notify.holds = p.holds := by
  cases p <;> simp [notify, holds]

@[simp] theorem isGoexited_notify (p : ReaderPhase α) : p.notify.isGoexited = p.isGoexited := by
  cases p <;> rfl

theorem unnotified_notify_holds {p : ReaderPhase α} (waits : p.notify.unnotified = true) :
    p.holds = true := by
  rcases p with _ | _ | ⟨_, _ | _ | _ | _⟩ | _ | _ <;>
    simp_all [notify, unnotified, holds, WaitPhase.notify, WaitPhase.unnotified, WaitPhase.holds]

theorem holds_of_isGoexited {p : ReaderPhase α} (goexited : p.isGoexited = true) :
    p.holds = true := by
  cases p <;> simp_all [isGoexited, holds]

theorem cancel_spec {p p' : ReaderPhase α} (canceled : p.cancel = some p') :
    p'.holds = p.holds ∧ p'.unnotified = p.unnotified ∧ p.isGoexited = false := by
  rcases p with ⟨_ | _, _⟩ | _ | ⟨_ | _, _⟩ | _ | _ <;> simp [cancel] at canceled <;>
    subst canceled <;> simp [holds, unnotified, isGoexited]

end ReaderPhase

/-- Where a `Refresh` call is. -/
inductive RefresherPhase (SK PK : Type) where
  /-- `GetAll`, inside `dds.Invoke`, has not ended. -/
  | fetching
  /-- In `i.mu.Lock()`, to store what `GetAll` ended with: its map, or, from `OnGoexit`, the
  flag.  `announced` once past the writers' mutex. -/
  | locking (getAll : GetAllExit SK PK) (announced : Bool)
  /-- Holding the write lock. -/
  | writing (getAll : GetAllExit SK PK)
  /-- The call returned, or its goroutine ended in `runtime.Goexit`. -/
  | ended (exit : Exit (Except GoError Unit))

namespace RefresherPhase

/-- Where `Refresh` goes once `GetAll` ended as `getAll`: `Invoke` returns its error, or its
panic as one, and `Refresh` returns it; otherwise `Refresh`, or `OnGoexit`, takes the lock. -/
def fetched (getAll : GetAllExit SK PK) : RefresherPhase SK PK :=
  match DoubleDeferSandwich.invoke getAll with
  | .returned (.error err) => .ended (.normal (.error err))
  | _ => .locking getAll false

def isAnnounced : RefresherPhase SK PK → Bool
  | .locking _ true => true
  | _ => false

def isWriting : RefresherPhase SK PK → Bool
  | .writing _ => true
  | _ => false

/-- Whether the call is in `Lock` or holds the write lock. -/
def inLock : RefresherPhase SK PK → Bool
  | .locking _ _ | .writing _ => true
  | _ => false

@[simp] theorem isAnnounced_fetching : (fetching : RefresherPhase SK PK).isAnnounced = false := rfl

@[simp] theorem isAnnounced_locking (getAll : GetAllExit SK PK) (announced : Bool) :
    (locking getAll announced).isAnnounced = announced := by
  cases announced <;> rfl

@[simp] theorem isAnnounced_writing (getAll : GetAllExit SK PK) :
    (writing getAll).isAnnounced = false := rfl

@[simp] theorem isAnnounced_ended (exit : Exit (Except GoError Unit)) :
    (ended exit : RefresherPhase SK PK).isAnnounced = false := rfl

@[simp] theorem isWriting_fetching : (fetching : RefresherPhase SK PK).isWriting = false := rfl

@[simp] theorem isWriting_locking (getAll : GetAllExit SK PK) (announced : Bool) :
    (locking getAll announced).isWriting = false := rfl

@[simp] theorem isWriting_writing (getAll : GetAllExit SK PK) :
    (writing getAll).isWriting = true := rfl

@[simp] theorem isWriting_ended (exit : Exit (Except GoError Unit)) :
    (ended exit : RefresherPhase SK PK).isWriting = false := rfl

@[simp] theorem fetched_isAnnounced (getAll : GetAllExit SK PK) :
    (fetched getAll).isAnnounced = false := by
  unfold fetched
  split <;> rfl

@[simp] theorem fetched_isWriting (getAll : GetAllExit SK PK) :
    (fetched getAll).isWriting = false := by
  unfold fetched
  split <;> rfl

end RefresherPhase

/-- A read call: how it reads the map (`Get`'s copy of one list, `GetMulti`'s of several), and
where its goroutines are. -/
structure Reader (SK PK α : Type) where
  read : Snapshot SK PK → α
  phase : ReaderPhase α

/-- The read call as a `Broadcast` leaves it. -/
def Reader.notify (r : Reader SK PK α) : Reader SK PK α := { r with phase := r.phase.notify }

@[simp] theorem countP_holds_notify (readers : List (Reader SK PK α)) :
    (readers.map Reader.notify).countP (·.phase.holds) = readers.countP (·.phase.holds) := by
  simp [List.countP_map, Function.comp_def, Reader.notify]

@[simp] theorem countP_isGoexited_notify (readers : List (Reader SK PK α)) :
    (readers.map Reader.notify).countP (·.phase.isGoexited) =
      readers.countP (·.phase.isGoexited) := by
  simp [List.countP_map, Function.comp_def, Reader.notify]

/-- An `OnMemoryIndex`, its mutex, and the calls on it. -/
structure Calls (SK PK α : Type) where
  index : OnMemoryIndex SK PK
  mu : GoRWMutex
  readers : List (Reader SK PK α)
  refreshers : List (RefresherPhase SK PK)

/-- `NewOnMemoryIndex`, with no call on it yet. -/
def Calls.init : Calls SK PK α := ⟨.new, .unlocked, [], []⟩

/-! ## Moves -/

/-- A move of one goroutine of a read call that reads the map with `read`, on the index `i`:
the call's phase and the mutex, before and after. -/
inductive ReaderMove (read : Snapshot SK PK → α) (i : OnMemoryIndex SK PK) :
    ReaderPhase α → GoRWMutex → ReaderPhase α → GoRWMutex → Prop where
  /-- `LockCtx`'s helper: `l.Locker.Lock()` returns, and the deferred `close(lock)` runs. -/
  | lockHelper {canceled : Bool} {mu mu' : GoRWMutex} : mu.rLock = some mu' →
      ReaderMove read i (.locking canceled false) mu (.locking canceled true) mu'
  /-- `LockCtx`'s `select` takes `<-lock` and returns `nil`. -/
  | locked {mu : GoRWMutex} : ReaderMove read i (.locking false true) mu .holding mu
  /-- The goroutine `LockCtx` started when the context ended first: `<-lock`, then
  `l.Unlock()`. -/
  | lockReleased {mu : GoRWMutex} :
      ReaderMove read i (.locking true true) mu (.returned (.error .canceled)) mu.rUnlock
  /-- The check finds a map: copy out of it and return, running `defer i.rl.Unlock()`. -/
  | readMap {result : α} {mu : GoRWMutex} : i.awaitSnapshot read = .returned result →
      ReaderMove read i .holding mu (.returned (.ok result)) mu.rUnlock
  /-- The check finds no map and the flag: `runtime.Goexit()`, the read lock held. -/
  | goexit {mu : GoRWMutex} : i.awaitSnapshot read = .goexit →
      ReaderMove read i .holding mu .goexited mu
  /-- The check finds no map and no flag: `WaitCtx` starts its helper. -/
  | wait {mu : GoRWMutex} : i.awaitSnapshot read = .waits →
      ReaderMove read i .holding mu (.waiting false .started) mu
  /-- `runtime_notifyListAdd`. -/
  | add {canceled : Bool} {mu : GoRWMutex} :
      ReaderMove read i (.waiting canceled .started) mu (.waiting canceled (.added false)) mu
  /-- `c.L.Unlock()`. -/
  | park {canceled notified : Bool} {mu : GoRWMutex} :
      ReaderMove read i (.waiting canceled (.added notified)) mu
        (.waiting canceled (.parked notified)) mu.rUnlock
  /-- Notified, `runtime_notifyListWait` returns, `c.L.Lock()` takes the read lock again, and
  the deferred `close(lock)` runs. -/
  | relock {canceled : Bool} {mu mu' : GoRWMutex} : mu.rLock = some mu' →
      ReaderMove read i (.waiting canceled (.parked true)) mu (.waiting canceled .relocked) mu'
  /-- `WaitCtx`'s `select` takes `<-lock` and returns `nil`: back at the check. -/
  | waited {mu : GoRWMutex} : ReaderMove read i (.waiting false .relocked) mu .holding mu
  /-- The goroutine `WaitCtx` started when the context ended first: `<-lock`, then the
  deferred `c.Cond.L.Unlock()`. -/
  | waitReleased {mu : GoRWMutex} :
      ReaderMove read i (.waiting true .relocked) mu (.returned (.error .canceled)) mu.rUnlock

/-- A move of a `Refresh` in `Lock` or holding the write lock. -/
inductive WriterMove : Calls SK PK α → Calls SK PK α → Prop
  /-- Refresh `n` announces itself in `i.mu.Lock()`. -/
  | announce {s : Calls SK PK α} {n : Nat} {getAll : GetAllExit SK PK} {mu : GoRWMutex} :
      s.refreshers[n]? = some (.locking getAll false) → s.mu.announce = some mu →
      WriterMove s { s with mu := mu, refreshers := s.refreshers.set n (.locking getAll true) }
  /-- Refresh `n` takes the write lock. -/
  | acquire {s : Calls SK PK α} {n : Nat} {getAll : GetAllExit SK PK} {mu : GoRWMutex} :
      s.refreshers[n]? = some (.locking getAll true) → s.mu.acquire = some mu →
      WriterMove s { s with mu := mu, refreshers := s.refreshers.set n (.writing getAll) }
  /-- Holding the write lock, refresh `n` stores the map, or `OnGoexit` sets the flag; then
  `i.sc.Broadcast()` and the deferred `i.mu.Unlock()`, and the call ends. -/
  | write {s : Calls SK PK α} {n : Nat} {getAll : GetAllExit SK PK} :
      s.refreshers[n]? = some (.writing getAll) →
      WriterMove s ⟨(s.index.refresh getAll).1, s.mu.unlock, s.readers.map Reader.notify,
        s.refreshers.set n (.ended (s.index.refresh getAll).2)⟩

/-- A move of the system. -/
inductive Step : Calls SK PK α → Calls SK PK α → Prop
  /-- A goroutine calls `Get` or `GetMulti`, which reads the map with `read`. -/
  | read {s : Calls SK PK α} (read : Snapshot SK PK → α) :
      Step s { s with readers := s.readers ++ [⟨read, .locking false false⟩] }
  /-- A goroutine calls `Refresh`. -/
  | refresh {s : Calls SK PK α} : Step s { s with refreshers := s.refreshers ++ [.fetching] }
  /-- A goroutine of read call `n` moves. -/
  | reader {s : Calls SK PK α} {n : Nat} {r : Reader SK PK α} {phase : ReaderPhase α}
      {mu : GoRWMutex} : s.readers[n]? = some r →
      ReaderMove r.read s.index r.phase s.mu phase mu →
      Step s { s with mu := mu, readers := s.readers.set n { r with phase := phase } }
  /-- The context of read call `n` ends first. -/
  | cancel {s : Calls SK PK α} {n : Nat} {r : Reader SK PK α} {phase : ReaderPhase α} :
      s.readers[n]? = some r → r.phase.cancel = some phase →
      Step s { s with readers := s.readers.set n { r with phase := phase } }
  /-- The `GetAll` of refresh `n` ends as `getAll`. -/
  | fetch {s : Calls SK PK α} {n : Nat} (getAll : GetAllExit SK PK) :
      s.refreshers[n]? = some .fetching →
      Step s { s with refreshers := s.refreshers.set n (.fetched getAll) }
  /-- A `Refresh` in `Lock`, or holding the write lock, moves. -/
  | writer {s s' : Calls SK PK α} : WriterMove s s' → Step s s'

/-- A move the mutex waits for: one of a goroutine holding the read lock, or of a `Refresh` in
`Lock` or holding the write lock. -/
inductive LockMove : Calls SK PK α → Calls SK PK α → Prop
  | reader {s : Calls SK PK α} {n : Nat} {r : Reader SK PK α} {phase : ReaderPhase α}
      {mu : GoRWMutex} : s.readers[n]? = some r → r.phase.holds = true →
      ReaderMove r.read s.index r.phase s.mu phase mu →
      LockMove s { s with mu := mu, readers := s.readers.set n { r with phase := phase } }
  | writer {s s' : Calls SK PK α} : WriterMove s s' → LockMove s s'

theorem LockMove.step {s s' : Calls SK PK α} : LockMove s s' → Step s s'
  | .reader found _ move => .reader found move
  | .writer move => .writer move

/-- The states reachable from a new index. -/
def Reachable (s : Calls SK PK α) : Prop := Relation.ReflTransGen Step Calls.init s

/-! ## The invariant -/

/-- The mutex accounts for the read locks the calls hold and for the writer among the
`Refresh` calls, and a wait no `Broadcast` has reached sees a `nil` map and no flag. -/
structure Calls.Inv (s : Calls SK PK α) : Prop where
  accounts : GoRWMutex.Accounts s.mu (s.readers.countP (·.phase.holds))
    (s.refreshers.countP (·.isAnnounced)) (s.refreshers.countP (·.isWriting))
  unnotified : ∀ r ∈ s.readers, r.phase.unnotified = true →
    s.index.m = none ∧ s.index.goexit = false

namespace ReaderMove

variable {read : Snapshot SK PK → α} {i : OnMemoryIndex SK PK} {p p' : ReaderPhase α}
  {mu mu' : GoRWMutex}

theorem kinds (move : ReaderMove read i p mu p' mu') :
    (p'.holds = p.holds ∧ mu' = mu) ∨ (p.holds = false ∧ p'.holds = true ∧ mu.rLock = some mu') ∨
      (p.holds = true ∧ p'.holds = false ∧ mu' = mu.rUnlock) := by
  cases move <;> simp_all [ReaderPhase.holds, WaitPhase.holds]

theorem unnotified_of (move : ReaderMove read i p mu p' mu') (unnotified : p'.unnotified = true) :
    p.unnotified = true ∨ (i.m = none ∧ i.goexit = false) := by
  cases move with
  | wait waits =>
      right
      unfold OnMemoryIndex.awaitSnapshot at waits
      split at waits
      · next empty => split at waits <;> simp_all
      · cases waits
  | @park _ notified => cases notified <;> simp_all [ReaderPhase.unnotified, WaitPhase.unnotified]
  | _ => simp_all [ReaderPhase.unnotified, WaitPhase.unnotified]

theorem not_goexited (move : ReaderMove read i p mu p' mu') : p.isGoexited = false := by
  cases move <;> rfl

theorem exists_of_holds (holds : p.holds = true) (running : p.isGoexited = false) :
    ∃ p' mu', ReaderMove read i p mu p' mu' := by
  rcases p with ⟨_ | _, _ | _⟩ | _ | ⟨_ | _, _ | _ | _ | _⟩ | _ | _ <;>
    simp [ReaderPhase.holds, ReaderPhase.isGoexited, WaitPhase.holds] at holds running
  · exact ⟨_, _, .locked⟩
  · exact ⟨_, _, .lockReleased⟩
  · cases checked : i.awaitSnapshot read with
    | returned result => exact ⟨_, _, .readMap checked⟩
    | goexit => exact ⟨_, _, .goexit checked⟩
    | waits => exact ⟨_, _, .wait checked⟩
  all_goals first
    | exact ⟨_, _, .add⟩
    | exact ⟨_, _, .park⟩
    | exact ⟨_, _, .waited⟩
    | exact ⟨_, _, .waitReleased⟩

end ReaderMove

namespace Calls

variable {s s' : Calls SK PK α}

/-- The read calls in `runtime.Goexit`. -/
def leaked (s : Calls SK PK α) : Nat := s.readers.countP (·.phase.isGoexited)

theorem leaked_le_holds (s : Calls SK PK α) :
    s.leaked ≤ s.readers.countP (·.phase.holds) :=
  List.countP_mono_left fun _ _ goexited => ReaderPhase.holds_of_isGoexited goexited

theorem accounts_set {n : Nat} {r : Reader SK PK α} (found : s.readers[n]? = some r)
    {phase : ReaderPhase α} {mu : GoRWMutex}
    (move : ReaderMove r.read s.index r.phase s.mu phase mu) {announced writes : Nat}
    (accounts : GoRWMutex.Accounts s.mu (s.readers.countP (·.phase.holds)) announced writes) :
    GoRWMutex.Accounts mu ((s.readers.set n { r with phase := phase }).countP (·.phase.holds))
      announced writes := by
  have counted := countP_set_add found (·.phase.holds) { r with phase := phase }
  rcases move.kinds with ⟨same, rfl⟩ | ⟨before, after, granted⟩ | ⟨before, after, rfl⟩
  · exact accounts.of_eq (by simp_all) rfl rfl
  · exact accounts.rLock granted (by simp_all)
  · exact accounts.rUnlock (by simp_all)

theorem refresherCounts_set {n : Nat} {p : RefresherPhase SK PK}
    (found : s.refreshers[n]? = some p) (phase : RefresherPhase SK PK) :
    (s.refreshers.set n phase).countP (·.isAnnounced) + (if p.isAnnounced then 1 else 0) =
        s.refreshers.countP (·.isAnnounced) + (if phase.isAnnounced then 1 else 0) ∧
      (s.refreshers.set n phase).countP (·.isWriting) + (if p.isWriting then 1 else 0) =
        s.refreshers.countP (·.isWriting) + (if phase.isWriting then 1 else 0) :=
  ⟨countP_set_add found _ phase, countP_set_add found _ phase⟩

end Calls

namespace Calls.Inv

variable {s s' : Calls SK PK α}

theorem init : (Calls.init : Calls SK PK α).Inv where
  accounts := GoRWMutex.Accounts.unlocked
  unnotified _ member := by cases member

theorem unnotified_set (inv : s.Inv) {n : Nat} {r : Reader SK PK α} {phase : ReaderPhase α}
    (moved : phase.unnotified = true → r.phase.unnotified = true ∨
      (s.index.m = none ∧ s.index.goexit = false)) (found : s.readers[n]? = some r) :
    ∀ r' ∈ s.readers.set n { r with phase := phase }, r'.phase.unnotified = true →
      s.index.m = none ∧ s.index.goexit = false := by
  intro r' member unnotified
  rcases List.mem_or_eq_of_mem_set member with old | rfl
  · exact inv.unnotified r' old unnotified
  · rcases moved unnotified with before | seen
    · exact inv.unnotified r (List.mem_iff_getElem?.mpr ⟨n, found⟩) before
    · exact seen

theorem writerMove (inv : s.Inv) (move : WriterMove s s') : s'.Inv := by
  cases move with
  | @announce n getAll mu found granted =>
      obtain ⟨announced, writes⟩ := Calls.refresherCounts_set found (.locking getAll true)
      simp [found] at announced writes
      exact ⟨inv.accounts.announce granted (by dsimp only; omega) (by dsimp only; omega),
        inv.unnotified⟩
  | @acquire n getAll mu found granted =>
      obtain ⟨announced, writes⟩ := Calls.refresherCounts_set found (.writing getAll)
      simp at announced writes
      exact ⟨inv.accounts.acquire granted (by dsimp only; omega) (by dsimp only; omega),
        inv.unnotified⟩
  | @write n getAll found =>
      obtain ⟨announced, writes⟩ :=
        Calls.refresherCounts_set found (.ended (s.index.refresh getAll).2)
      simp at announced writes
      have idle := inv.accounts.alone (by omega)
      refine ⟨?_, fun r member waits => ?_⟩
      · dsimp only
        rw [countP_holds_notify]
        exact inv.accounts.unlock (by omega) (by omega)
      · obtain ⟨r, old, rfl⟩ := List.mem_map.mp member
        have : 0 < s.readers.countP (·.phase.holds) :=
          List.countP_pos_iff.mpr ⟨r, old, ReaderPhase.unnotified_notify_holds waits⟩
        omega

theorem step (inv : s.Inv) (stepped : Step s s') : s'.Inv := by
  cases stepped with
  | read read =>
      refine ⟨?_, fun r member unnotified => ?_⟩
      · simpa [List.countP_append, ReaderPhase.holds] using inv.accounts
      · rcases List.mem_append.mp member with old | new
        · exact inv.unnotified r old unnotified
        · obtain rfl := List.mem_singleton.mp new
          cases unnotified
  | refresh => exact ⟨by simpa [List.countP_append] using inv.accounts, inv.unnotified⟩
  | reader found move =>
      exact ⟨Calls.accounts_set found move inv.accounts,
        inv.unnotified_set (move.unnotified_of ·) found⟩
  | @cancel n r phase found canceled =>
      obtain ⟨holds, unnotified, -⟩ := ReaderPhase.cancel_spec canceled
      have counted := countP_set_add found (·.phase.holds) { r with phase := phase }
      refine ⟨inv.accounts.of_eq (by simp_all) rfl rfl, inv.unnotified_set ?_ found⟩
      exact fun waits => .inl (unnotified ▸ waits)
  | @fetch n getAll found =>
      obtain ⟨announced, writes⟩ := Calls.refresherCounts_set found (.fetched getAll)
      simp at announced writes
      exact ⟨inv.accounts.of_eq rfl announced.symm writes.symm, inv.unnotified⟩
  | writer move => exact inv.writerMove move

end Calls.Inv

theorem Reachable.inv {s : Calls SK PK α} (reachable : Reachable s) : s.Inv := by
  induction reachable with
  | refl => exact .init
  | tail _ stepped inductionHypothesis => exact inductionHypothesis.step stepped

/-! ## Runs -/

/-- What `Get(ctx, 0)` copies out of the map. -/
def readZero : Snapshot Nat Nat → List Nat := fun m => (m 0).getD []

/-- A map with the list `[1]` for every key. -/
def mapOfOne : Snapshot Nat Nat := fun _ => some [1]

/-- A `Get(ctx, 0)` on a new index, parked in `sc.Wait()` with no `Broadcast` yet. -/
def getParked : Calls Nat Nat (List Nat) :=
  ⟨.new, ⟨0, .free⟩, [⟨readZero, .waiting false (.parked false)⟩], []⟩

theorem reachable_getParked : Reachable getParked :=
  .tail (.tail (.tail (.tail (.tail (.single (.read readZero))
    (.reader (n := 0) (r := ⟨readZero, .locking false false⟩) rfl (.lockHelper rfl)))
    (.reader (n := 0) (r := ⟨readZero, .locking false true⟩) rfl .locked))
    (.reader (n := 0) (r := ⟨readZero, .holding⟩) rfl (.wait rfl)))
    (.reader (n := 0) (r := ⟨readZero, .waiting false .started⟩) rfl .add))
    (.reader (n := 0) (r := ⟨readZero, .waiting false (.added false)⟩) rfl .park)

/-- Then a `Refresh` whose `GetAll` returned `mapOfOne`, holding the write lock. -/
def refreshWriting : Calls Nat Nat (List Nat) :=
  ⟨.new, ⟨0, .holding⟩, [⟨readZero, .waiting false (.parked false)⟩],
    [.writing (.normal (.ok (some mapOfOne)))]⟩

theorem reachable_refreshWriting : Reachable refreshWriting :=
  .tail (.tail (.tail (.tail reachable_getParked .refresh)
    (.fetch (n := 0) (.normal (.ok (some mapOfOne))) rfl))
    (.writer (.announce (n := 0) rfl rfl)))
    (.writer (.acquire (n := 0) rfl rfl))

/-- A `Get(ctx, 0)` holding the read lock at the check, and a `Refresh` announced in `Lock`. -/
def refreshAnnounced : Calls Nat Nat (List Nat) :=
  ⟨.new, ⟨1, .waiting⟩, [⟨readZero, .holding⟩], [.locking (.normal (.ok (some mapOfOne))) true]⟩

theorem reachable_refreshAnnounced : Reachable refreshAnnounced :=
  .tail (.tail (.tail (.tail (.tail (.single (.read readZero))
    (.reader (n := 0) (r := ⟨readZero, .locking false false⟩) rfl (.lockHelper rfl)))
    (.reader (n := 0) (r := ⟨readZero, .locking false true⟩) rfl .locked))
    .refresh)
    (.fetch (n := 0) (.normal (.ok (some mapOfOne))) rfl))
    (.writer (.announce (n := 0) rfl rfl))

/-- A `Refresh` whose `GetAll` called `runtime.Goexit` set the flag; a `Get(ctx, 0)` then
called `runtime.Goexit` holding the read lock, and a second `Refresh` announced itself. -/
def goexitLeaked : Calls Nat Nat (List Nat) :=
  ⟨⟨true, none⟩, ⟨1, .waiting⟩, [⟨readZero, .goexited⟩],
    [.ended .goexit, .locking (.normal (.ok (some mapOfOne))) true]⟩

theorem reachable_goexitLeaked : Reachable goexitLeaked :=
  .tail (.tail (.tail (.tail (.tail (.tail (.tail (.tail (.tail (.tail (.tail
    (.single .refresh)
    (.fetch (n := 0) .goexit rfl))
    (.writer (.announce (n := 0) rfl rfl)))
    (.writer (.acquire (n := 0) rfl rfl)))
    (.writer (.write (n := 0) rfl)))
    (.read readZero))
    (.reader (n := 0) (r := ⟨readZero, .locking false false⟩) rfl (.lockHelper rfl)))
    (.reader (n := 0) (r := ⟨readZero, .locking false true⟩) rfl .locked))
    (.reader (n := 0) (r := ⟨readZero, .holding⟩) rfl (.goexit rfl)))
    .refresh)
    (.fetch (n := 1) (.normal (.ok (some mapOfOne))) rfl))
    (.writer (.announce (n := 1) rfl rfl))

/-! ## A read lock that is never given back -/

theorem ReaderMove.writer_eq {read : Snapshot SK PK → α} {i : OnMemoryIndex SK PK}
    {p p' : ReaderPhase α} {mu mu' : GoRWMutex} (move : ReaderMove read i p mu p' mu') :
    mu'.writer = mu.writer := by
  rcases move.kinds with ⟨-, rfl⟩ | ⟨-, -, granted⟩ | ⟨-, -, rfl⟩
  · rfl
  · unfold GoRWMutex.rLock at granted
    split at granted <;> cases granted
    rfl
  · rfl

namespace Step

variable {s s' : Calls SK PK α}

theorem leaked_le (stepped : Step s s') : s.leaked ≤ s'.leaked := by
  unfold Calls.leaked
  cases stepped with
  | read => simp [List.countP_append]
  | refresh | fetch => exact le_refl _
  | @reader n r phase mu found move =>
      have := countP_set_add found (·.phase.isGoexited) { r with phase := phase }
      simp only [move.not_goexited] at this
      simp at this ⊢
      omega
  | @cancel n r phase found canceled =>
      have := countP_set_add found (·.phase.isGoexited) { r with phase := phase }
      simp only [(ReaderPhase.cancel_spec canceled).2.2] at this
      simp at this ⊢
      omega
  | writer move =>
      cases move with
      | announce | acquire => exact le_refl _
      | write => exact (countP_isGoexited_notify _).ge

theorem frozen (inv : s.Inv) (leak : 0 < s.leaked) (stepped : Step s s') :
    s'.index = s.index ∧ (s.mu.writer = .waiting → s'.mu.writer = .waiting) := by
  have held : 0 < s.mu.readers := by
    rw [inv.accounts.readers]
    exact lt_of_lt_of_le leak s.leaked_le_holds
  cases stepped with
  | read | refresh | cancel | fetch => exact ⟨rfl, id⟩
  | reader _ move => exact ⟨rfl, fun waiting => move.writer_eq.trans waiting⟩
  | writer move =>
      cases move with
      | announce _ granted =>
          refine ⟨rfl, fun waiting => ?_⟩
          simp [GoRWMutex.announce, waiting] at granted
      | acquire _ granted => simp [GoRWMutex.acquire_of_readers_pos held] at granted
      | @write n getAll found =>
          have writing : 0 < s.refreshers.countP (·.isWriting) :=
            List.countP_pos_iff.mpr ⟨_, List.mem_iff_getElem?.mpr ⟨n, found⟩, rfl⟩
          have := inv.accounts.alone writing
          have := inv.accounts.readers
          omega

end Step

theorem Reachable.frozen_after {s s' : Calls SK PK α} (reachable : Reachable s)
    (leak : 0 < s.leaked) (later : Relation.ReflTransGen Step s s') :
    0 < s'.leaked ∧ s'.index = s.index ∧ (s.mu.writer = .waiting → s'.mu.writer = .waiting) := by
  induction later with
  | refl => exact ⟨leak, rfl, id⟩
  | tail before stepped inductionHypothesis =>
      obtain ⟨leak', sameIndex, stillWaiting⟩ := inductionHypothesis
      have inv : Calls.Inv _ := Reachable.inv (reachable.trans before)
      obtain ⟨index, writer⟩ := stepped.frozen inv leak'
      exact ⟨lt_of_lt_of_le leak' stepped.leaked_le, index.trans sameIndex,
        fun waiting => writer (stillWaiting waiting)⟩

/-- `Get` and `GetMulti` call `runtime.Goexit` holding the read lock when the map is `nil` and
the flag set, and nothing gives that lock back.  From then on, in every run, the index never
changes, no `Refresh` is granted the write lock (the one that stores a map, or `OnGoexit`'s),
and once a `Refresh` has announced itself in `Lock`, no `RLock` is granted either: every later
`Get` and `GetMulti` waits in `LockCtx` until its context ends. -/
theorem Reachable.goexit_starves_index {s s' : Calls SK PK α} (reachable : Reachable s)
    (leaked : ∃ r ∈ s.readers, r.phase = .goexited) (later : Relation.ReflTransGen Step s s') :
    s'.index = s.index ∧ s'.mu.acquire = none ∧ (s.mu.writer = .waiting → s'.mu.rLock = none) := by
  obtain ⟨r, member, goexited⟩ := leaked
  have leak : 0 < s.leaked :=
    List.countP_pos_iff.mpr ⟨r, member, by simp [goexited, ReaderPhase.isGoexited]⟩
  obtain ⟨leak', sameIndex, stillWaiting⟩ := reachable.frozen_after leak later
  have inv : s'.Inv := Reachable.inv (reachable.trans later)
  have held : 0 < s'.mu.readers := by
    rw [inv.accounts.readers]
    exact lt_of_lt_of_le leak' s'.leaked_le_holds
  exact ⟨sameIndex, GoRWMutex.acquire_of_readers_pos held,
    fun waiting => GoRWMutex.rLock_of_waiting (stillWaiting waiting)⟩

theorem goexitLeaked_starves :
    Reachable goexitLeaked ∧ (∃ r ∈ goexitLeaked.readers, r.phase = .goexited) ∧
      goexitLeaked.mu.acquire = none ∧ goexitLeaked.mu.rLock = none :=
  have leaked : ∃ r ∈ goexitLeaked.readers, r.phase = .goexited :=
    ⟨_, List.mem_singleton_self _, rfl⟩
  have starved := reachable_goexitLeaked.goexit_starves_index leaked .refl
  ⟨reachable_goexitLeaked, leaked, starved.2.1, starved.2.2 rfl⟩

/-! ## Safety and progress -/

/-- No wakeup is lost: in every interleaving, a read call waiting on `sc` that no `Broadcast`
has reached, its helper before or after taking its ticket, sees a `nil` map and no flag.  The
map and the flag are set only under the write lock, which the check and the ticket are taken
without giving up, and are followed by a `Broadcast` that covers every ticket taken. -/
theorem Reachable.wait_unnotified_sees_nil {s : Calls SK PK α} (reachable : Reachable s)
    {r : Reader SK PK α} (member : r ∈ s.readers) (waits : r.phase.unnotified = true) :
    s.index.m = none ∧ s.index.goexit = false :=
  reachable.inv.unnotified r member waits

theorem getParked_sees_nil :
    Reachable getParked ∧ getParked.index.m = none ∧ getParked.index.goexit = false :=
  ⟨reachable_getParked,
    reachable_getParked.wait_unnotified_sees_nil (List.mem_singleton_self _) rfl⟩

/-- In every interleaving, the mutex counts exactly the read locks the read calls' goroutines
hold, the helpers of a cancelled call included, and a `Refresh` holding the write lock, the only
place the index is written, holds it alone: no read call holds the read lock, at the check or
copying out of the map, and no other `Refresh` is announced or holds it. -/
theorem Reachable.refresh_writes_alone {s : Calls SK PK α} (reachable : Reachable s) :
    s.mu.readers = s.readers.countP (·.phase.holds) ∧
      ∀ p ∈ s.refreshers, p.isWriting = true →
        (∀ r ∈ s.readers, r.phase.holds = false) ∧
          s.refreshers.countP (·.isWriting) = 1 ∧ s.refreshers.countP (·.isAnnounced) = 0 := by
  obtain ⟨readers, -, single, alone⟩ := reachable.inv.accounts
  refine ⟨readers, fun p member writing => ?_⟩
  have writes : 0 < s.refreshers.countP (·.isWriting) :=
    List.countP_pos_iff.mpr ⟨p, member, writing⟩
  exact ⟨fun r member => by simpa using List.countP_eq_zero.mp (alone writes) r member,
    by omega, by omega⟩

theorem refreshWriting_writes_alone :
    Reachable refreshWriting ∧ ∀ r ∈ refreshWriting.readers, r.phase.holds = false :=
  ⟨reachable_refreshWriting,
    (reachable_refreshWriting.refresh_writes_alone.2 _ (List.mem_singleton_self _) rfl).1⟩

theorem Calls.exists_lockMove_of_holds {s : Calls SK PK α}
    (noLeak : ∀ r ∈ s.readers, r.phase ≠ .goexited)
    (held : 0 < s.readers.countP (·.phase.holds)) : ∃ s', LockMove s s' := by
  obtain ⟨r, member, holds⟩ := List.countP_pos_iff.mp held
  obtain ⟨n, found⟩ := List.mem_iff_getElem?.mp member
  have running : r.phase.isGoexited = false := by
    cases phase : r.phase <;> simp_all [ReaderPhase.isGoexited]
  obtain ⟨phase, mu, move⟩ := ReaderMove.exists_of_holds holds running
  exact ⟨_, .reader found holds move⟩

/-- The locks never deadlock short of a read lock held by a call in `runtime.Goexit`: in every
interleaving where no read call is in `runtime.Goexit`, while a `Refresh` is in `Lock` or holds
the write lock, a `Refresh` in `Lock` or holding it, or a goroutine holding the read lock, can
move, none of them waiting for a context to end. -/
theorem Reachable.exists_lockMove {s : Calls SK PK α} (reachable : Reachable s)
    (noLeak : ∀ r ∈ s.readers, r.phase ≠ .goexited)
    (waiting : ∃ p ∈ s.refreshers, p.inLock = true) : ∃ s', LockMove s s' := by
  obtain ⟨readers, writer, -, -⟩ := reachable.inv.accounts
  obtain ⟨p, member, inLock⟩ := waiting
  obtain ⟨n, found⟩ := List.mem_iff_getElem?.mp member
  cases state : s.mu.writer with
  | holding =>
      rw [state, eq_comm, GoRWMutex.writerOf_eq_holding] at writer
      obtain ⟨q, member', writing⟩ := List.countP_pos_iff.mp writer
      obtain ⟨m, found'⟩ := List.mem_iff_getElem?.mp member'
      cases q <;> simp at writing
      exact ⟨_, .writer (.write found')⟩
  | waiting =>
      rw [state, eq_comm, GoRWMutex.writerOf_eq_waiting] at writer
      obtain ⟨q, member', announced⟩ := List.countP_pos_iff.mp writer.1
      obtain ⟨m, found'⟩ := List.mem_iff_getElem?.mp member'
      rcases q with _ | ⟨getAll, _ | _⟩ | _ | _ <;> simp at announced
      by_cases idle : s.mu.readers = 0
      · have granted : s.mu.acquire = some { s.mu with writer := .holding } := by
          simp [GoRWMutex.acquire, state, idle]
        exact ⟨_, .writer (.acquire found' granted)⟩
      · exact Calls.exists_lockMove_of_holds noLeak (by omega)
  | free =>
      rw [state, eq_comm, GoRWMutex.writerOf_eq_free] at writer
      rcases p with _ | ⟨getAll, _ | _⟩ | getAll | _ <;> simp [RefresherPhase.inLock] at inLock
      · have granted : s.mu.announce = some { s.mu with writer := .waiting } := by
          simp [GoRWMutex.announce, state]
        exact ⟨_, .writer (.announce found granted)⟩
      · have : 0 < s.refreshers.countP (·.isAnnounced) := List.countP_pos_iff.mpr ⟨_, member, rfl⟩
        omega
      · have : 0 < s.refreshers.countP (·.isWriting) := List.countP_pos_iff.mpr ⟨_, member, rfl⟩
        omega

theorem refreshAnnounced_lock_moves :
    Reachable refreshAnnounced ∧ (∀ r ∈ refreshAnnounced.readers, r.phase ≠ .goexited) ∧
      (∃ p ∈ refreshAnnounced.refreshers, p.inLock = true) ∧ ∃ s', LockMove refreshAnnounced s' :=
  have noLeak : ∀ r ∈ refreshAnnounced.readers, r.phase ≠ .goexited := fun r member => by
    rw [List.mem_singleton.mp member]
    nofun
  have waiting : ∃ p ∈ refreshAnnounced.refreshers, p.inLock = true :=
    ⟨_, List.mem_singleton_self _, rfl⟩
  ⟨reachable_refreshAnnounced, noLeak, waiting,
    reachable_refreshAnnounced.exists_lockMove noLeak waiting⟩

end LoadingCache.OnMemory
