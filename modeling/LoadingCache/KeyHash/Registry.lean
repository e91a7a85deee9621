import Mathlib.Data.List.Nodup
import Mathlib.Logic.Relation
import LoadingCache.Basic

/-!
# The registry of default key hashes

`keyhash.GetOrCreateKeyHash[K]()` looks the hash of `K` up in `defaultKeyHashMap`, keyed by
`reflect.TypeOf(zero).String()`, and on a miss makes one with `createKeyHashAny`, under the
double-checked locking of `getOrCreateKeyHashAny`: a lookup under the read lock, then a second
lookup under the write lock before creating.  `createKeyHashAny` switches on the dynamic type;
each case returns a closure fixed by the case (FNV-1a over the value's big-endian bytes, or
over a string's bytes, on a 64-bit platform), so a closure is known here by its case, a `Kind`.
Its panics are `.error` with the panic's message.

Any number of callers run at once, and a new one may start at any time (`Step`); `Move` is a
move of one caller.  `Registry.Inv` ties the mutex to the callers holding it and the map to
`createKeyHashAny`.  From it: every caller that ends, in any interleaving, ends as
`createKeyHashAny` on its own type says; a name gets a closure at most once; and a caller that
writes the map holds the mutex alone.  As in `RWMutex`, `RLock` waits only while the write lock
is held, so these hold on Go's mutex too (`GoRegistry`), where progress is proved.  A caller
running alone does what the sequential `getOrCreateKeyHashAny` says.
-/

namespace LoadingCache.KeyHash

/-- The dynamic types `createKeyHashAny`'s type switch has a case for. -/
inductive Kind where
  | int | int8 | int16 | int32 | int64
  | uint | uint8 | uint16 | uint32 | uint64 | uintptr
  | float32 | float64 | string
  deriving DecidableEq, Repr

/-- `reflect.Type.String()` of a kind. -/
def Kind.name : Kind → String
  | .int => "int" | .int8 => "int8" | .int16 => "int16" | .int32 => "int32"
  | .int64 => "int64" | .uint => "uint" | .uint8 => "uint8" | .uint16 => "uint16"
  | .uint32 => "uint32" | .uint64 => "uint64" | .uintptr => "uintptr"
  | .float32 => "float32" | .float64 => "float64" | .string => "string"

theorem Kind.name_injective : Function.Injective Kind.name := by
  intro a b same
  cases a <;> cases b <;> simp_all [Kind.name]

/-- The dynamic type of a key type's zero value: a case of the switch, or any other type
(`bool`, a named type such as `type ID string`, a struct …), known by its `reflect` name,
which no case's type has. -/
inductive KeyType where
  | kind (k : Kind)
  | other (name : String) (unsupported : ∀ k : Kind, k.name ≠ name)

/-- `reflect.TypeOf(t).String()`. -/
def KeyType.name : KeyType → String
  | .kind k => k.name
  | .other name _ => name

/-- `createKeyHashAny`: the closure of the type's case, or the message it panics with (`%T`
prints the type's name). -/
def createKeyHashAny : KeyType → Except String Kind
  | .kind .uintptr => .error "uintptr cannot be hash key"
  | .kind k => .ok k
  | .other name _ => .error ("unknown type: " ++ name)

theorem createKeyHashAny_eq_ok {t : KeyType} {f : Kind} :
    createKeyHashAny t = .ok f ↔ t = .kind f ∧ f ≠ .uintptr := by
  cases t with
  | kind k => cases k <;> cases f <;> simp [createKeyHashAny]
  | other name _ => simp [createKeyHashAny]

theorem createKeyHashAny_of_name_eq {t t' : KeyType} {f : Kind}
    (created : createKeyHashAny t = .ok f) (same : t'.name = t.name) :
    createKeyHashAny t' = .ok f := by
  obtain ⟨rfl, supported⟩ := createKeyHashAny_eq_ok.mp created
  cases t' with
  | kind k => rw [Kind.name_injective same]; exact created
  | other name unsupported => exact absurd same.symm (unsupported f)

/-- `defaultKeyHashMap`. -/
abbrev KeyHashMap := String → Option Kind

/-- Every closure the map holds is the one `createKeyHashAny` makes for each type of its
name. -/
def KeyHashMap.Stored (m : KeyHashMap) : Prop :=
  ∀ t f, m t.name = some f → createKeyHashAny t = .ok f

/-- `getOrCreateKeyHashAny` called alone: the closure or the panic's message, and the map
after the call. -/
def getOrCreateKeyHashAny (m : KeyHashMap) (t : KeyType) : Except String Kind × KeyHashMap :=
  match m t.name with
  | some f => (.ok f, m)
  | none =>
      match createKeyHashAny t with
      | .ok f => (.ok f, Function.update m t.name (some f))
      | .error message => (.error message, m)

theorem stored_update {m : KeyHashMap} (stored : m.Stored) {t : KeyType} {f : Kind}
    (made : createKeyHashAny t = .ok f) :
    KeyHashMap.Stored (Function.update m t.name (some f)) := by
  intro t' f' hit
  by_cases same : t'.name = t.name
  · rw [same, Function.update_same] at hit
    cases hit
    exact createKeyHashAny_of_name_eq made same
  · rw [Function.update_noteq same] at hit
    exact stored t' f' hit

/-- Where a caller of `getOrCreateKeyHashAny` is. -/
inductive Phase where
  /-- Before `RLock`. -/
  | start
  /-- Holding the read lock, before the first lookup. -/
  | reading
  /-- After `RUnlock` on a miss, before `Lock`. -/
  | missed
  /-- Holding the write lock, before the second lookup. -/
  | writing
  /-- Returned the closure. -/
  | returned (f : Kind)
  /-- Panicked with the message, after the deferred `Unlock`. -/
  | panicked (message : String)
  deriving DecidableEq, Repr

namespace Phase

/-- How a caller ended, if it has. -/
def result : Phase → Option (Except String Kind)
  | .returned f => some (.ok f)
  | .panicked message => some (.error message)
  | _ => none

/-- The phase of a caller that ended with `result`. -/
def ofResult : Except String Kind → Phase
  | .ok f => .returned f
  | .error message => .panicked message

/-- Whether the caller holds the read lock. -/
def isReading (p : Phase) : Bool := decide (p = .reading)

/-- Whether the caller holds the write lock. -/
def isWriting (p : Phase) : Bool := decide (p = .writing)

@[simp] theorem isReading_eq_true {p : Phase} : p.isReading = true ↔ p = .reading := by
  simp [isReading]

@[simp] theorem isWriting_eq_true {p : Phase} : p.isWriting = true ↔ p = .writing := by
  simp [isWriting]

end Phase

/-- A goroutine in `GetOrCreateKeyHash`: the type it asks for and where it is. -/
structure Caller where
  type : KeyType
  phase : Phase

/-- The map, its mutex, the callers that have started, and the names given a closure, in
order (a log the code does not keep). -/
structure Registry where
  map : KeyHashMap
  mu : RWMutex
  callers : List Caller
  created : List String

namespace Registry

/-- The program's start: an empty map, a free mutex, no caller. -/
def init : Registry := ⟨fun _ => none, RWMutex.unlocked, [], []⟩

/-- The callers with caller `i`, found as `c`, moved to `phase`. -/
def moveTo (r : Registry) (i : Nat) (c : Caller) (phase : Phase) : List Caller :=
  r.callers.set i { c with phase := phase }

end Registry

/-- A move of one caller `i`, found as `c`. -/
inductive Move : Registry → Registry → Prop
  | rLock {r : Registry} {i : Nat} {c : Caller} {mu : RWMutex} :
      r.callers[i]? = some c → c.phase = .start → r.mu.rLock = some mu →
      Move r { r with mu := mu, callers := r.moveTo i c .reading }
  | readHit {r : Registry} {i : Nat} {c : Caller} {f : Kind} :
      r.callers[i]? = some c → c.phase = .reading → r.map c.type.name = some f →
      Move r { r with mu := r.mu.rUnlock, callers := r.moveTo i c (.returned f) }
  | readMiss {r : Registry} {i : Nat} {c : Caller} :
      r.callers[i]? = some c → c.phase = .reading → r.map c.type.name = none →
      Move r { r with mu := r.mu.rUnlock, callers := r.moveTo i c .missed }
  | lock {r : Registry} {i : Nat} {c : Caller} {mu : RWMutex} :
      r.callers[i]? = some c → c.phase = .missed → r.mu.lock = some mu →
      Move r { r with mu := mu, callers := r.moveTo i c .writing }
  | writeHit {r : Registry} {i : Nat} {c : Caller} {f : Kind} :
      r.callers[i]? = some c → c.phase = .writing → r.map c.type.name = some f →
      Move r { r with mu := r.mu.unlock, callers := r.moveTo i c (.returned f) }
  | create {r : Registry} {i : Nat} {c : Caller} {f : Kind} :
      r.callers[i]? = some c → c.phase = .writing → r.map c.type.name = none →
      createKeyHashAny c.type = .ok f →
      Move r ⟨Function.update r.map c.type.name (some f), r.mu.unlock,
        r.moveTo i c (.returned f), r.created ++ [c.type.name]⟩
  | panic {r : Registry} {i : Nat} {c : Caller} {message : String} :
      r.callers[i]? = some c → c.phase = .writing → r.map c.type.name = none →
      createKeyHashAny c.type = .error message →
      Move r { r with mu := r.mu.unlock, callers := r.moveTo i c (.panicked message) }

/-- A move of the system: a goroutine calls `GetOrCreateKeyHash` for a type, or a caller
moves. -/
inductive Step : Registry → Registry → Prop
  | call {r : Registry} (type : KeyType) :
      Step r { r with callers := r.callers ++ [⟨type, .start⟩] }
  | move {r r' : Registry} : Move r r' → Step r r'

/-- The states reachable from the program's start. -/
inductive Reachable : Registry → Prop
  | init : Reachable .init
  | step {r r' : Registry} : Reachable r → Step r r' → Reachable r'

/-- The mutex counts the readers and the writer among the callers; the map holds closures
`createKeyHashAny` made, and the log lists each name that has one, once; every caller that
ended did as `createKeyHashAny` says for its type. -/
structure Registry.Inv (r : Registry) : Prop where
  accounts : RWMutex.Accounts r.mu (r.callers.countP (·.phase.isReading))
    (r.callers.countP (·.phase.isWriting))
  stored : r.map.Stored
  nodup : r.created.Nodup
  logged : ∀ name, name ∈ r.created ↔ (r.map name).isSome
  ended : ∀ c ∈ r.callers, ∀ result, c.phase.result = some result →
    result = createKeyHashAny c.type

namespace Registry

variable {r : Registry} {i : Nat} {c : Caller}

theorem countP_moveTo (found : r.callers[i]? = some c) (phase : Phase) (p : Phase → Bool) :
    (r.moveTo i c phase).countP (p ·.phase) + (if p c.phase then 1 else 0) =
      r.callers.countP (p ·.phase) + (if p phase then 1 else 0) :=
  countP_set_add found (p ·.phase) _

theorem mem_moveTo {phase : Phase} {c' : Caller} (member : c' ∈ r.moveTo i c phase) :
    c' ∈ r.callers ∨ c' = { c with phase := phase } :=
  List.mem_or_eq_of_mem_set member

end Registry

namespace Registry.Inv

variable {r : Registry} {i : Nat} {c : Caller}

theorem init : Registry.init.Inv where
  accounts := RWMutex.Accounts.unlocked
  stored _ _ hit := by cases hit
  nodup := List.nodup_nil
  logged _ := by simp [Registry.init]
  ended _ member := by cases member

theorem call (inv : r.Inv) (type : KeyType) :
    Registry.Inv { r with callers := r.callers ++ [⟨type, .start⟩] } := by
  refine ⟨?_, inv.stored, inv.nodup, inv.logged, fun c' member result ended => ?_⟩
  · simpa [List.countP_append, Phase.isReading, Phase.isWriting] using inv.accounts
  · rcases List.mem_append.mp member with old | new
    · exact inv.ended c' old result ended
    · obtain rfl := List.mem_singleton.mp new
      cases ended

theorem ended_moveTo (inv : r.Inv) {phase : Phase}
    (moved : ∀ result, phase.result = some result → result = createKeyHashAny c.type) :
    ∀ c' ∈ r.moveTo i c phase, ∀ result, c'.phase.result = some result →
      result = createKeyHashAny c'.type := by
  intro c' member result ended
  rcases Registry.mem_moveTo member with old | rfl
  · exact inv.ended c' old result ended
  · exact moved result ended

section Accounts

variable (inv : r.Inv) (found : r.callers[i]? = some c) {phase : Phase}
  (idle : phase.isReading = false ∧ phase.isWriting = false)
include inv found

theorem accounts_rLock (start : c.phase = .start) {mu : RWMutex}
    (granted : r.mu.rLock = some mu) :
    RWMutex.Accounts mu ((r.moveTo i c .reading).countP (·.phase.isReading))
      ((r.moveTo i c .reading).countP (·.phase.isWriting)) := by
  have reads := r.countP_moveTo found .reading Phase.isReading
  have writes := r.countP_moveTo found .reading Phase.isWriting
  simp only [start, Phase.isReading_eq_true, Phase.isWriting_eq_true, reduceCtorEq] at reads writes
  exact (inv.accounts.rLock granted).of_eq (by simpa using reads.symm)
    (by simpa using writes.symm)

theorem accounts_lock (missed : c.phase = .missed) {mu : RWMutex}
    (granted : r.mu.lock = some mu) :
    RWMutex.Accounts mu ((r.moveTo i c .writing).countP (·.phase.isReading))
      ((r.moveTo i c .writing).countP (·.phase.isWriting)) := by
  have reads := r.countP_moveTo found .writing Phase.isReading
  have writes := r.countP_moveTo found .writing Phase.isWriting
  simp only [missed, Phase.isReading_eq_true, Phase.isWriting_eq_true, reduceCtorEq] at reads writes
  exact (inv.accounts.lock granted).of_eq (by simpa using reads.symm)
    (by simpa using writes.symm)

include idle

theorem accounts_rUnlock (reading : c.phase = .reading) :
    RWMutex.Accounts r.mu.rUnlock ((r.moveTo i c phase).countP (·.phase.isReading))
      ((r.moveTo i c phase).countP (·.phase.isWriting)) := by
  have reads := r.countP_moveTo found phase Phase.isReading
  have writes := r.countP_moveTo found phase Phase.isWriting
  simp only [reading, idle, Phase.isReading_eq_true, Phase.isWriting_eq_true, reduceCtorEq]
    at reads writes
  exact (inv.accounts.of_eq (by simpa using reads.symm) (by simpa using writes.symm)).rUnlock

theorem accounts_unlock (writing : c.phase = .writing) :
    RWMutex.Accounts r.mu.unlock ((r.moveTo i c phase).countP (·.phase.isReading))
      ((r.moveTo i c phase).countP (·.phase.isWriting)) := by
  have reads := r.countP_moveTo found phase Phase.isReading
  have writes := r.countP_moveTo found phase Phase.isWriting
  simp only [writing, idle, Phase.isReading_eq_true, Phase.isWriting_eq_true, reduceCtorEq]
    at reads writes
  exact (inv.accounts.of_eq (by simpa using reads.symm) (by simpa using writes.symm)).unlock

end Accounts

theorem move (inv : r.Inv) {r' : Registry} (moved : Move r r') : r'.Inv := by
  cases moved with
  | rLock found start granted =>
      exact ⟨inv.accounts_rLock found start granted, inv.stored, inv.nodup, inv.logged,
        inv.ended_moveTo fun _ ended => by cases ended⟩
  | readHit found reading hit =>
      exact ⟨inv.accounts_rUnlock found ⟨rfl, rfl⟩ reading, inv.stored, inv.nodup, inv.logged,
        inv.ended_moveTo fun _ ended => by cases ended; exact (inv.stored _ _ hit).symm⟩
  | readMiss found reading _ =>
      exact ⟨inv.accounts_rUnlock found ⟨rfl, rfl⟩ reading, inv.stored, inv.nodup, inv.logged,
        inv.ended_moveTo fun _ ended => by cases ended⟩
  | lock found missed granted =>
      exact ⟨inv.accounts_lock found missed granted, inv.stored, inv.nodup, inv.logged,
        inv.ended_moveTo fun _ ended => by cases ended⟩
  | writeHit found writing hit =>
      exact ⟨inv.accounts_unlock found ⟨rfl, rfl⟩ writing, inv.stored, inv.nodup, inv.logged,
        inv.ended_moveTo fun _ ended => by cases ended; exact (inv.stored _ _ hit).symm⟩
  | @create _ c _ found writing miss made =>
      have fresh : c.type.name ∉ r.created := by simp [inv.logged, miss]
      refine ⟨inv.accounts_unlock found ⟨rfl, rfl⟩ writing, stored_update inv.stored made,
        inv.nodup.append (List.nodup_singleton _) (List.disjoint_singleton.mpr fresh),
        fun name => ?_,
        inv.ended_moveTo fun _ ended => by cases ended; exact made.symm⟩
      by_cases same : name = c.type.name
      · subst same; simp
      · simp [same, Function.update_noteq same, inv.logged]
  | panic found writing _ failed =>
      exact ⟨inv.accounts_unlock found ⟨rfl, rfl⟩ writing, inv.stored, inv.nodup, inv.logged,
        inv.ended_moveTo fun _ ended => by cases ended; exact failed.symm⟩

theorem step (inv : r.Inv) {r' : Registry} (stepped : Step r r') : r'.Inv := by
  cases stepped with
  | call type => exact inv.call type
  | move moved => exact inv.move moved

end Registry.Inv

theorem Reachable.inv {r : Registry} (reachable : Reachable r) : r.Inv := by
  induction reachable with
  | init => exact .init
  | step _ stepped inductionHypothesis => exact inductionHypothesis.step stepped

/-- A `GetOrCreateKeyHash[string]()` call from the program's start, holding the write lock. -/
def stringWriting : Registry :=
  ⟨fun _ => none, ⟨0, true⟩, [⟨.kind .string, .writing⟩], []⟩

/-- The same call once it has stored and returned the `string` closure. -/
def stringReturned : Registry :=
  ⟨Function.update (fun _ => none) "string" (some .string), .unlocked,
    [⟨.kind .string, .returned .string⟩], ["string"]⟩

theorem reachable_stringWriting : Reachable stringWriting :=
  .step (.step (.step (.step .init (.call (.kind .string)))
    (.move (.rLock (i := 0) (c := ⟨.kind .string, .start⟩) rfl rfl rfl)))
    (.move (.readMiss (i := 0) (c := ⟨.kind .string, .reading⟩) rfl rfl rfl)))
    (.move (.lock (i := 0) (c := ⟨.kind .string, .missed⟩) rfl rfl rfl))

theorem reachable_stringReturned : Reachable stringReturned :=
  .step reachable_stringWriting
    (.move (.create (i := 0) (c := ⟨.kind .string, .writing⟩) rfl rfl rfl rfl))

/-- In every interleaving of `GetOrCreateKeyHash` calls, each call that has ended returned the
closure `createKeyHashAny` makes for its own type, or panicked with the message
`createKeyHashAny` panics with for it. -/
theorem Reachable.caller_ends_as_createKeyHashAny {r : Registry} (reachable : Reachable r) :
    ∀ c ∈ r.callers, ∀ result, c.phase.result = some result →
      result = createKeyHashAny c.type :=
  reachable.inv.ended

theorem stringReturned_ends_with_string_closure :
    Reachable stringReturned ∧ Except.ok Kind.string = createKeyHashAny (.kind .string) :=
  ⟨reachable_stringReturned, reachable_stringReturned.caller_ends_as_createKeyHashAny _
    (List.mem_singleton_self _) _ rfl⟩

/-- In every interleaving, a type name is given a closure at most once, and the map holds a
closure for exactly the names given one. -/
theorem Reachable.closure_created_once {r : Registry} (reachable : Reachable r) :
    r.created.Nodup ∧ ∀ name, name ∈ r.created ↔ (r.map name).isSome :=
  ⟨reachable.inv.nodup, reachable.inv.logged⟩

theorem stringReturned_created_once :
    Reachable stringReturned ∧ stringReturned.created.Nodup :=
  ⟨reachable_stringReturned, reachable_stringReturned.closure_created_once.1⟩

/-- In every interleaving, a caller holding the write lock, the only place the map is written,
is the one caller holding the mutex: no caller reads the map meanwhile. -/
theorem Reachable.writer_holds_alone {r : Registry} (reachable : Reachable r) {c : Caller}
    (member : c ∈ r.callers) (writing : c.phase = .writing) :
    r.callers.countP (·.phase.isWriting) = 1 ∧ r.callers.countP (·.phase.isReading) = 0 :=
  reachable.inv.accounts.alone (List.countP_pos_iff.mpr ⟨c, member, by simp [writing]⟩)

theorem stringWriting_holds_alone :
    Reachable stringWriting ∧ stringWriting.callers.countP (·.phase.isWriting) = 1 :=
  ⟨reachable_stringWriting,
    (reachable_stringWriting.writer_holds_alone (List.mem_singleton_self _) rfl).1⟩

/-- A caller running alone does what the sequential `getOrCreateKeyHashAny` says: its moves
from a free mutex reach the map that call leaves, with the mutex free again and the caller
ended with the call's result. -/
theorem Move.alone_runs_as_getOrCreateKeyHashAny (m : KeyHashMap) (t : KeyType)
    (created : List String) :
    ∃ created', Relation.ReflTransGen Move ⟨m, .unlocked, [⟨t, .start⟩], created⟩
      ⟨(getOrCreateKeyHashAny m t).2, .unlocked,
        [⟨t, .ofResult (getOrCreateKeyHashAny m t).1⟩], created'⟩ := by
  have reading : Move ⟨m, .unlocked, [⟨t, .start⟩], created⟩
      ⟨m, ⟨1, false⟩, [⟨t, .reading⟩], created⟩ :=
    .rLock (i := 0) (c := ⟨t, .start⟩) rfl rfl rfl
  cases hit : m t.name with
  | some f =>
      have returned : Move ⟨m, ⟨1, false⟩, [⟨t, .reading⟩], created⟩
          ⟨m, .unlocked, [⟨t, .returned f⟩], created⟩ :=
        .readHit (i := 0) (c := ⟨t, .reading⟩) rfl rfl hit
      simp only [getOrCreateKeyHashAny, hit]
      exact ⟨created, .head reading (.single returned)⟩
  | none =>
      have writing :
          Relation.ReflTransGen Move ⟨m, ⟨1, false⟩, [⟨t, .reading⟩], created⟩
            ⟨m, ⟨0, true⟩, [⟨t, .writing⟩], created⟩ :=
        .head (.readMiss (i := 0) (c := ⟨t, .reading⟩) rfl rfl hit)
          (.single (.lock (i := 0) (c := ⟨t, .missed⟩) rfl rfl rfl))
      cases made : createKeyHashAny t with
      | ok f =>
          simp only [getOrCreateKeyHashAny, hit, made]
          exact ⟨_, .head reading (writing.tail
            (.create (i := 0) (c := ⟨t, .writing⟩) rfl rfl hit made))⟩
      | error message =>
          simp only [getOrCreateKeyHashAny, hit, made]
          exact ⟨_, .head reading (writing.tail
            (.panic (i := 0) (c := ⟨t, .writing⟩) rfl rfl hit made))⟩

end LoadingCache.KeyHash
