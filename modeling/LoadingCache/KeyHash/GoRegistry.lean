import LoadingCache.KeyHash.Registry

/-!
# The key-hash registry on Go's mutex

`defaultKeyHashMapMutex` is a `sync.RWMutex`: a `Lock` announces itself before it waits for the
read locks, and an `RLock` after the announcement waits for that writer's `Unlock`.  Here the
callers of `Registry` run on `GoRWMutex`, and a caller that missed announces, then acquires.

Seen through `GoRegistry.toRegistry`, each move is a move of `Registry`, or no move at all for
an announcement, so every reachable state is one of `Registry`'s and keeps its invariant.
Progress is proved on Go's mutex itself: while a caller has not ended some caller can move, and
every move lowers the moves left.
-/

namespace LoadingCache.KeyHash

/-- A goroutine in `GetOrCreateKeyHash`, with whether its `Lock` has announced itself. -/
structure GoCaller where
  caller : Caller
  announced : Bool

/-- The most moves a caller has still to make; a `Lock` takes two. -/
def GoCaller.pending (c : GoCaller) : Nat :=
  match c.caller.phase with
  | .start => 5
  | .reading => 4
  | .missed => if c.announced then 2 else 3
  | .writing => 1
  | _ => 0

/-- The map, Go's mutex, the callers, and the names given a closure. -/
structure GoRegistry where
  map : KeyHashMap
  mu : GoRWMutex
  callers : List GoCaller
  created : List String

namespace GoRegistry

def init : GoRegistry := ⟨fun _ => none, .unlocked, [], []⟩

def moveTo (r : GoRegistry) (i : Nat) (c : GoCaller) (phase : Phase) (announced : Bool) :
    List GoCaller :=
  r.callers.set i ⟨{ c.caller with phase := phase }, announced⟩

def pending (r : GoRegistry) : Nat := r.callers.foldr (fun c n => c.pending + n) 0

/-- The registry as `Registry` sees it: the mutex through `toRWMutex`, the callers without
their announcements. -/
def toRegistry (r : GoRegistry) : Registry :=
  ⟨r.map, r.mu.toRWMutex, r.callers.map (·.caller), r.created⟩

/-- A move of one caller `i`, found as `c`. -/
inductive Move : GoRegistry → GoRegistry → Prop
  | rLock {r : GoRegistry} {i : Nat} {c : GoCaller} {mu : GoRWMutex} :
      r.callers[i]? = some c → c.caller.phase = .start → r.mu.rLock = some mu →
      Move r { r with mu := mu, callers := r.moveTo i c .reading false }
  | readHit {r : GoRegistry} {i : Nat} {c : GoCaller} {f : Kind} :
      r.callers[i]? = some c → c.caller.phase = .reading → r.map c.caller.type.name = some f →
      Move r { r with mu := r.mu.rUnlock, callers := r.moveTo i c (.returned f) false }
  | readMiss {r : GoRegistry} {i : Nat} {c : GoCaller} :
      r.callers[i]? = some c → c.caller.phase = .reading → r.map c.caller.type.name = none →
      Move r { r with mu := r.mu.rUnlock, callers := r.moveTo i c .missed false }
  | announce {r : GoRegistry} {i : Nat} {c : GoCaller} {mu : GoRWMutex} :
      r.callers[i]? = some c → c.caller.phase = .missed → c.announced = false →
      r.mu.announce = some mu → Move r { r with mu := mu, callers := r.moveTo i c .missed true }
  | acquire {r : GoRegistry} {i : Nat} {c : GoCaller} {mu : GoRWMutex} :
      r.callers[i]? = some c → c.caller.phase = .missed → c.announced = true →
      r.mu.acquire = some mu → Move r { r with mu := mu, callers := r.moveTo i c .writing false }
  | writeHit {r : GoRegistry} {i : Nat} {c : GoCaller} {f : Kind} :
      r.callers[i]? = some c → c.caller.phase = .writing → r.map c.caller.type.name = some f →
      Move r { r with mu := r.mu.unlock, callers := r.moveTo i c (.returned f) false }
  | create {r : GoRegistry} {i : Nat} {c : GoCaller} {f : Kind} :
      r.callers[i]? = some c → c.caller.phase = .writing → r.map c.caller.type.name = none →
      createKeyHashAny c.caller.type = .ok f →
      Move r ⟨Function.update r.map c.caller.type.name (some f), r.mu.unlock,
        r.moveTo i c (.returned f) false, r.created ++ [c.caller.type.name]⟩
  | panic {r : GoRegistry} {i : Nat} {c : GoCaller} {message : String} :
      r.callers[i]? = some c → c.caller.phase = .writing → r.map c.caller.type.name = none →
      createKeyHashAny c.caller.type = .error message →
      Move r { r with mu := r.mu.unlock, callers := r.moveTo i c (.panicked message) false }

/-- A goroutine calls `GetOrCreateKeyHash` for a type, or a caller moves. -/
inductive Step : GoRegistry → GoRegistry → Prop
  | call {r : GoRegistry} (type : KeyType) :
      Step r { r with callers := r.callers ++ [⟨⟨type, .start⟩, false⟩] }
  | move {r r' : GoRegistry} : Move r r' → Step r r'

inductive Reachable : GoRegistry → Prop
  | init : Reachable .init
  | step {r r' : GoRegistry} : Reachable r → Step r r' → Reachable r'

/-! ## What `Registry` sees -/

section Simulation

variable {r : GoRegistry} {i : Nat} {c : GoCaller}

theorem map_moveTo (phase : Phase) (announced : Bool) :
    (r.moveTo i c phase announced).map (·.caller) = r.toRegistry.moveTo i c.caller phase :=
  List.map_set

theorem getElem?_toRegistry (found : r.callers[i]? = some c) :
    r.toRegistry.callers[i]? = some c.caller := by
  simp [toRegistry, found]

theorem Move.toMove {r' : GoRegistry} (moved : Move r r') :
    KeyHash.Move r.toRegistry r'.toRegistry ∨ r'.toRegistry = r.toRegistry := by
  cases moved with
  | rLock found start granted =>
      exact .inl (by simpa [toRegistry, map_moveTo] using
        KeyHash.Move.rLock (getElem?_toRegistry found) start (GoRWMutex.toRWMutex_rLock granted))
  | readHit found reading hit =>
      exact .inl (by simpa [toRegistry, map_moveTo] using
        KeyHash.Move.readHit (getElem?_toRegistry found) reading hit)
  | readMiss found reading miss =>
      exact .inl (by simpa [toRegistry, map_moveTo] using
        KeyHash.Move.readMiss (getElem?_toRegistry found) reading miss)
  | @announce i c mu found missed _ granted =>
      have unchanged : r.toRegistry.moveTo i c.caller .missed = r.toRegistry.callers := by
        rw [Registry.moveTo, ← missed]
        exact set_of_getElem? (getElem?_toRegistry found)
      refine .inr ?_
      show (⟨r.map, mu.toRWMutex, (r.moveTo i c .missed true).map (·.caller), r.created⟩ :
        Registry) = r.toRegistry
      rw [map_moveTo, unchanged, GoRWMutex.toRWMutex_announce granted]
      rfl
  | acquire found missed _ granted =>
      exact .inl (by simpa [toRegistry, map_moveTo] using
        KeyHash.Move.lock (getElem?_toRegistry found) missed (GoRWMutex.toRWMutex_acquire granted))
  | writeHit found writing hit =>
      exact .inl (by simpa [toRegistry, map_moveTo] using
        KeyHash.Move.writeHit (getElem?_toRegistry found) writing hit)
  | create found writing miss made =>
      exact .inl (by simpa [toRegistry, map_moveTo] using
        KeyHash.Move.create (getElem?_toRegistry found) writing miss made)
  | panic found writing miss failed =>
      exact .inl (by simpa [toRegistry, map_moveTo] using
        KeyHash.Move.panic (getElem?_toRegistry found) writing miss failed)

/-- Every state `GetOrCreateKeyHash` callers reach on Go's mutex is, without the announcements,
a state `Registry` reaches: what holds of every run of `Registry` holds of Go's. -/
theorem Reachable.toRegistry_reachable (reachable : Reachable r) :
    KeyHash.Reachable r.toRegistry := by
  induction reachable with
  | init => exact .init
  | step _ stepped inductionHypothesis =>
      cases stepped with
      | call type =>
          simpa [toRegistry] using inductionHypothesis.step (.call type)
      | move moved =>
          rcases moved.toMove with moved | same
          · exact inductionHypothesis.step (.move moved)
          · exact same ▸ inductionHypothesis

end Simulation

/-! ## Progress -/

/-- The mutex counts the readers, the announced writer and the holding writer among the
callers, and only a caller that missed has announced itself. -/
structure Inv (r : GoRegistry) : Prop where
  accounts : GoRWMutex.Accounts r.mu (r.callers.countP (·.caller.phase.isReading))
    (r.callers.countP (·.announced)) (r.callers.countP (·.caller.phase.isWriting))
  missed : ∀ c ∈ r.callers, c.announced = true → c.caller.phase = .missed

namespace Inv

variable {r : GoRegistry} {i : Nat} {c : GoCaller}

theorem init : GoRegistry.init.Inv := ⟨GoRWMutex.Accounts.unlocked, fun _ member => by cases member⟩

theorem call (inv : r.Inv) (type : KeyType) :
    Inv { r with callers := r.callers ++ [⟨⟨type, .start⟩, false⟩] } := by
  refine ⟨?_, fun c member announced => ?_⟩
  · simpa [List.countP_append, Phase.isReading, Phase.isWriting] using inv.accounts
  · rcases List.mem_append.mp member with old | new
    · exact inv.missed c old announced
    · obtain rfl := List.mem_singleton.mp new
      cases announced

theorem missed_moveTo (inv : r.Inv) {phase : Phase} {announced : Bool}
    (moved : announced = true → phase = .missed) :
    ∀ c' ∈ r.moveTo i c phase announced, c'.announced = true → c'.caller.phase = .missed := by
  intro c' member
  rcases List.mem_or_eq_of_mem_set member with old | rfl
  · exact inv.missed c' old
  · exact moved

section Accounts

variable (found : r.callers[i]? = some c)
include found

theorem counts_moveTo (phase : Phase) (announced : Bool) :
    (r.moveTo i c phase announced).countP (·.caller.phase.isReading) +
        (if c.caller.phase.isReading then 1 else 0) =
      r.callers.countP (·.caller.phase.isReading) + (if phase.isReading then 1 else 0) ∧
    (r.moveTo i c phase announced).countP (·.announced) + (if c.announced then 1 else 0) =
      r.callers.countP (·.announced) + (if announced then 1 else 0) ∧
    (r.moveTo i c phase announced).countP (·.caller.phase.isWriting) +
        (if c.caller.phase.isWriting then 1 else 0) =
      r.callers.countP (·.caller.phase.isWriting) + (if phase.isWriting then 1 else 0) :=
  ⟨countP_set_add found _ _, countP_set_add found _ _, countP_set_add found _ _⟩

variable (inv : r.Inv) {phase : Phase}
  (idle : phase.isReading = false ∧ phase.isWriting = false)
include inv

theorem fresh (other : c.caller.phase ≠ .missed) : c.announced = false := by
  cases announced : c.announced
  · rfl
  · exact absurd (inv.missed c (List.getElem?_mem found) announced) other

theorem accounts_rLock (start : c.caller.phase = .start) {mu : GoRWMutex}
    (granted : r.mu.rLock = some mu) :
    GoRWMutex.Accounts mu ((r.moveTo i c .reading false).countP (·.caller.phase.isReading))
      ((r.moveTo i c .reading false).countP (·.announced))
      ((r.moveTo i c .reading false).countP (·.caller.phase.isWriting)) := by
  obtain ⟨reads, ann, writes⟩ := counts_moveTo found .reading false
  simp only [start, inv.fresh found (by simp [start]), Phase.isReading_eq_true,
    Phase.isWriting_eq_true, reduceCtorEq, ↓reduceIte] at reads ann writes
  exact inv.accounts.rLock granted (by omega) |>.of_eq rfl (by omega) (by omega)

theorem accounts_announce (missed : c.caller.phase = .missed) (fresh : c.announced = false)
    {mu : GoRWMutex} (granted : r.mu.announce = some mu) :
    GoRWMutex.Accounts mu ((r.moveTo i c .missed true).countP (·.caller.phase.isReading))
      ((r.moveTo i c .missed true).countP (·.announced))
      ((r.moveTo i c .missed true).countP (·.caller.phase.isWriting)) := by
  obtain ⟨reads, ann, writes⟩ := counts_moveTo found .missed true
  simp only [missed, fresh, Phase.isReading_eq_true, Phase.isWriting_eq_true, reduceCtorEq,
    ↓reduceIte] at reads ann writes
  exact inv.accounts.announce granted (by omega) rfl |>.of_eq (by omega) rfl (by omega)

theorem accounts_acquire (missed : c.caller.phase = .missed) (announced : c.announced = true)
    {mu : GoRWMutex} (granted : r.mu.acquire = some mu) :
    GoRWMutex.Accounts mu ((r.moveTo i c .writing false).countP (·.caller.phase.isReading))
      ((r.moveTo i c .writing false).countP (·.announced))
      ((r.moveTo i c .writing false).countP (·.caller.phase.isWriting)) := by
  obtain ⟨reads, ann, writes⟩ := counts_moveTo found .writing false
  simp only [missed, announced, Phase.isReading_eq_true, Phase.isWriting_eq_true, reduceCtorEq,
    ↓reduceIte] at reads ann writes
  exact inv.accounts.acquire granted (by omega) (by omega) |>.of_eq (by omega) rfl rfl

include idle

theorem accounts_rUnlock (reading : c.caller.phase = .reading) :
    GoRWMutex.Accounts r.mu.rUnlock ((r.moveTo i c phase false).countP (·.caller.phase.isReading))
      ((r.moveTo i c phase false).countP (·.announced))
      ((r.moveTo i c phase false).countP (·.caller.phase.isWriting)) := by
  obtain ⟨reads, ann, writes⟩ := counts_moveTo found phase false
  simp only [reading, idle, inv.fresh found (by simp [reading]), Phase.isReading_eq_true,
    Phase.isWriting_eq_true, reduceCtorEq, ↓reduceIte] at reads ann writes
  exact inv.accounts.rUnlock (by omega) |>.of_eq rfl (by omega) (by omega)

theorem accounts_unlock (writing : c.caller.phase = .writing) :
    GoRWMutex.Accounts r.mu.unlock ((r.moveTo i c phase false).countP (·.caller.phase.isReading))
      ((r.moveTo i c phase false).countP (·.announced))
      ((r.moveTo i c phase false).countP (·.caller.phase.isWriting)) := by
  obtain ⟨reads, ann, writes⟩ := counts_moveTo found phase false
  simp only [writing, idle, inv.fresh found (by simp [writing]), Phase.isReading_eq_true,
    Phase.isWriting_eq_true, reduceCtorEq, ↓reduceIte] at reads ann writes
  exact inv.accounts.unlock (by omega) (by omega) |>.of_eq (by omega) rfl rfl

end Accounts

theorem move (inv : r.Inv) {r' : GoRegistry} (moved : Move r r') : r'.Inv := by
  cases moved with
  | rLock found start granted =>
      exact ⟨inv.accounts_rLock found start granted, inv.missed_moveTo nofun⟩
  | readHit found reading _ | readMiss found reading _ =>
      exact ⟨inv.accounts_rUnlock found ⟨rfl, rfl⟩ reading, inv.missed_moveTo nofun⟩
  | announce found missed fresh granted =>
      exact ⟨inv.accounts_announce found missed fresh granted, inv.missed_moveTo fun _ => rfl⟩
  | acquire found missed announced granted =>
      exact ⟨inv.accounts_acquire found missed announced granted, inv.missed_moveTo nofun⟩
  | writeHit found writing _ | create found writing _ _ | panic found writing _ _ =>
      exact ⟨inv.accounts_unlock found ⟨rfl, rfl⟩ writing, inv.missed_moveTo nofun⟩

theorem step (inv : r.Inv) {r' : GoRegistry} (stepped : Step r r') : r'.Inv := by
  cases stepped with
  | call type => exact inv.call type
  | move moved => exact inv.move moved

theorem exists_move_of_holding (member : c ∈ r.callers)
    (holding : c.caller.phase = .reading ∨ c.caller.phase = .writing) : ∃ r', Move r r' := by
  obtain ⟨i, found⟩ := List.mem_iff_getElem?.mp member
  rcases holding with reading | writing
  · cases hit : r.map c.caller.type.name with
    | some f => exact ⟨_, .readHit found reading hit⟩
    | none => exact ⟨_, .readMiss found reading hit⟩
  · cases hit : r.map c.caller.type.name with
    | some f => exact ⟨_, .writeHit found writing hit⟩
    | none =>
        cases made : createKeyHashAny c.caller.type with
        | ok f => exact ⟨_, .create found writing hit made⟩
        | error message => exact ⟨_, .panic found writing hit made⟩

theorem exists_move (inv : r.Inv) (running : ∃ c ∈ r.callers, c.caller.phase.result = none) :
    ∃ r', Move r r' := by
  by_cases held : ∃ c ∈ r.callers, c.caller.phase = .reading ∨ c.caller.phase = .writing
  · obtain ⟨c, member, holding⟩ := held
    exact exists_move_of_holding member holding
  have noReads : r.callers.countP (·.caller.phase.isReading) = 0 :=
    List.countP_eq_zero.mpr fun c member reading =>
      held ⟨c, member, .inl (by simpa using reading)⟩
  have noWrites : r.callers.countP (·.caller.phase.isWriting) = 0 :=
    List.countP_eq_zero.mpr fun c member writing =>
      held ⟨c, member, .inr (by simpa using writing)⟩
  have accounts := inv.accounts
  rw [noReads, noWrites] at accounts
  by_cases waiting : ∃ c ∈ r.callers, c.announced = true
  · obtain ⟨c, member, announced⟩ := waiting
    obtain ⟨i, found⟩ := List.mem_iff_getElem?.mp member
    have waiter : 0 < r.callers.countP (·.announced) := List.countP_pos_iff.mpr ⟨c, member, announced⟩
    have ready : r.mu.writer = .waiting ∧ r.mu.readers = 0 :=
      ⟨by simp [accounts.writer, waiter], accounts.readers⟩
    exact ⟨_, .acquire found (inv.missed c member announced) announced (if_pos ready)⟩
  · have noAnnounced : r.callers.countP (·.announced) = 0 :=
      List.countP_eq_zero.mpr fun c member announced => waiting ⟨c, member, by simpa using announced⟩
    have free : r.mu.writer = .free := by rw [accounts.writer, noAnnounced]; rfl
    obtain ⟨c, member, unended⟩ := running
    obtain ⟨i, found⟩ := List.mem_iff_getElem?.mp member
    cases phase : c.caller.phase with
    | start => exact ⟨_, .rLock found phase (if_pos free)⟩
    | missed =>
        exact ⟨_, .announce found phase (by simpa using fun h => waiting ⟨c, member, h⟩)
          (if_pos free)⟩
    | reading => exact absurd ⟨c, member, .inl phase⟩ held
    | writing => exact absurd ⟨c, member, .inr phase⟩ held
    | returned f => simp [phase, Phase.result] at unended
    | panicked message => simp [phase, Phase.result] at unended

end Inv

theorem pending_lt_of_moveTo {r : GoRegistry} {i : Nat} {c : GoCaller}
    (found : r.callers[i]? = some c) {phase : Phase} {announced : Bool}
    (closer : GoCaller.pending ⟨{ c.caller with phase := phase }, announced⟩ < c.pending) :
    (r.moveTo i c phase announced).foldr (fun c n => c.pending + n) 0 < r.pending :=
  foldr_lt_of_set GoCaller.pending found closer

theorem Move.pending_lt {r r' : GoRegistry} (moved : Move r r') : r'.pending < r.pending := by
  cases moved with
  | rLock found start _ =>
      exact pending_lt_of_moveTo found (by simp [start, GoCaller.pending])
  | readHit found reading _ | readMiss found reading _ =>
      exact pending_lt_of_moveTo found (by simp [reading, GoCaller.pending])
  | announce found missed fresh _ =>
      exact pending_lt_of_moveTo found (by simp [missed, fresh, GoCaller.pending])
  | acquire found missed announced _ =>
      exact pending_lt_of_moveTo found (by simp [missed, announced, GoCaller.pending])
  | writeHit found writing _ | create found writing _ _ | panic found writing _ _ =>
      exact pending_lt_of_moveTo found (by simp [writing, GoCaller.pending])

theorem Reachable.inv {r : GoRegistry} (reachable : Reachable r) : r.Inv := by
  induction reachable with
  | init => exact .init
  | step _ stepped inductionHypothesis => exact inductionHypothesis.step stepped

/-- Two `GetOrCreateKeyHash[string]()` calls: the first missed and announced its `Lock`, which
keeps the second from its `RLock`. -/
def stringAnnounced : GoRegistry :=
  ⟨fun _ => none, ⟨0, .waiting⟩,
    [⟨⟨.kind .string, .missed⟩, true⟩, ⟨⟨.kind .string, .start⟩, false⟩], []⟩

theorem reachable_stringAnnounced : Reachable stringAnnounced :=
  .step (.step (.step (.step (.step .init (.call (.kind .string))) (.call (.kind .string)))
    (.move (.rLock (i := 0) (c := ⟨⟨.kind .string, .start⟩, false⟩) rfl rfl rfl)))
    (.move (.readMiss (i := 0) (c := ⟨⟨.kind .string, .reading⟩, false⟩) rfl rfl rfl)))
    (.move (.announce (i := 0) (c := ⟨⟨.kind .string, .missed⟩, false⟩) rfl rfl rfl rfl))

theorem stringAnnounced_toRegistry_reachable : KeyHash.Reachable stringAnnounced.toRegistry :=
  reachable_stringAnnounced.toRegistry_reachable

/-- `GetOrCreateKeyHash` on Go's mutex never deadlocks and always ends: in every reachable
state where a caller has not ended some caller can move, and every move lowers the moves
left. -/
theorem Reachable.callers_progress {r : GoRegistry} (reachable : Reachable r)
    (running : ∃ c ∈ r.callers, c.caller.phase.result = none) :
    (∃ r', Move r r') ∧ ∀ r', Move r r' → r'.pending < r.pending :=
  ⟨reachable.inv.exists_move running, fun _ moved => moved.pending_lt⟩

theorem stringAnnounced_progress : Reachable stringAnnounced ∧ ∃ r', Move stringAnnounced r' :=
  ⟨reachable_stringAnnounced,
    (reachable_stringAnnounced.callers_progress ⟨_, List.mem_cons_self _ _, rfl⟩).1⟩

end GoRegistry

end LoadingCache.KeyHash
