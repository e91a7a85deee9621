import LoadingCache.Loader.Protocol
import LoadingCache.Loader.Pure

/-!
# One caller at a time: `SingleFlightLoader` against `PureLoader`

A caller of `SingleFlightLoader` registers its keys, the loads it starts run in goroutines of
their own, and the caller waits on its channels.  With one caller at a time, no other load in
flight and a context that is never cancelled, the loads run to their end before the caller
receives: a call is its registration, the loads, and its receives, in that order, and each of
them is a step of the protocol (`loadAndStore_reachable`, `loadAndStoreMulti_reachable`).

`Simulates` relates such a loader to a `PureLoader`: the loader has no load in flight and the
two in-memory storages hold the same contents.  Over a per-key source that keeps the
`LoadingSource` contract, every call keeps the relation, and both loaders fail together or
succeed together, with results that agree up to the clones `sendEntries` makes for a key's
later waiters, though `SingleFlightLoader` asks the source for each key once.  Over a whole
session of calls the two loaders answer alike (`sessions_agree`).
-/

namespace LoadingCache.SingleFlight

open MemStorage

variable {σ K V : Type}

/-- The fields `NewSingleFlightLoader` fixes: the storage, the source, and the cloner, here one
whose clones return. -/
structure Components (σ K V : Type) where
  storage : CacheStorage σ K V
  source : LoadingSource K V
  cloner : V → V

/-- `l.storage.Set` as the loads call it. -/
def storeWith (storage : CacheStorage σ K V) (s : σ) (cacheEntry : CacheEntry K V) :
    Exit (Except GoError Unit) × σ :=
  match storage.set s cacheEntry with
  | .error err => (.normal (.error err), s)
  | .ok s => (.normal (.ok ()), s)

/-- `l.storage.SetMulti` as the loads call it. -/
def storeAllWith (storage : CacheStorage σ K V) (s : σ)
    (entries : List (Option (CacheEntry K V))) :
    Exit (Except GoError Unit) × σ :=
  match storage.setMulti s entries with
  | .error err => (.normal (.error err), s)
  | .ok s => (.normal (.ok ()), s)

/-- `<-ch`: the message in the channel's buffer, taken; `none` when the buffer is empty and
the receiver waits. -/
def SingleFlightLoader.receive (l : SingleFlightLoader K V) (c : Nat) :
    Option (Message K V) × SingleFlightLoader K V :=
  match (l.chans c).buf with
  | some m => (some m, { l with chans := Function.update l.chans c { l.chans c with buf := none } })
  | none => (none, l)

/-- `awaitChannels` under a context that is never cancelled: `entries` received so far, and
`lastErr` the last error received. -/
def SingleFlightLoader.awaitChannels : SingleFlightLoader K V → List Nat → Option GoError →
    List (Option (Entry K V)) → Outcome (List (Option (Entry K V))) × SingleFlightLoader K V
  | l, [], lastErr, entries =>
      (some (.normal (match lastErr with
        | some err => .error err
        | none => .ok entries)), l)
  | l, c :: channels, lastErr, entries =>
      match l.receive c with
      | (some (.ok entry), l) => awaitChannels l channels lastErr (entries ++ [entry])
      | (some (.error err), l) =>
          if err = .errGoexit then (some .goexit, l)
          else awaitChannels l channels (some err) (entries ++ [none])
      | (none, l) => (none, l)

/-- The error a received message carries, if any. -/
def messageError : Message K V → Option GoError
  | .ok _ => none
  | .error err => some err

/-- What `awaitChannels` appends to its entries for a received message: `nil` for an error. -/
def messageEntry : Message K V → Option (Entry K V)
  | .ok entry => entry
  | .error _ => none

namespace Components

variable [BEq K] [DecidableEq K] (c : Components σ K V)

/-- A background load run to its end: `loadKeyAndStore` or `loadKeysAndStore`, with what the
source answers.  How its goroutine ends is dropped: neither the source's answer, nor
`storeWith`, nor a clone panics. -/
def runTask (ls : SingleFlightLoader K V × σ) : Task K → SingleFlightLoader K V × σ
  | .single key =>
      let ended := ls.1.loadKeyAndStore (.normal (c.source.get key)) (storeWith c.storage)
        (normalCloner c.cloner) ls.2 key
      (ended.1, ended.2.1)
  | .multi keys =>
      let ended := ls.1.loadKeysAndStore (.normal (c.source.getMulti keys))
        (storeAllWith c.storage) (normalCloner c.cloner) ls.2 keys
      (ended.1, ended.2.1)

/-- The loads in flight, run in the order they started. -/
def runTasks (ls : SingleFlightLoader K V × σ) : SingleFlightLoader K V × σ :=
  ls.1.tasks.foldl c.runTask ls

/-- `LoadAndStore`: `registerKey`, the loads, the receive. -/
def loadAndStore (ls : SingleFlightLoader K V × σ) (key : K) :
    Outcome (Option (Entry K V)) × (SingleFlightLoader K V × σ) :=
  let registered := ls.1.registerKey key
  let loaded := c.runTasks (registered.1, ls.2)
  let received := loaded.1.receive registered.2
  (received.1.map receiveResult, (received.2, loaded.2))

/-- `LoadAndStoreMulti`: `registerKeys`, the loads, `awaitChannels`. -/
def loadAndStoreMulti (ls : SingleFlightLoader K V × σ) (keys : List K) :
    Outcome (List (Option (Entry K V))) × (SingleFlightLoader K V × σ) :=
  let registered := ls.1.registerKeys keys
  let loaded := c.runTasks (registered.1, ls.2)
  let awaited := loaded.1.awaitChannels registered.2 none []
  (awaited.1, (awaited.2, loaded.2))

/-- A `SingleFlightLoader` called one call at a time, as a `SourceLoader`. -/
def sourceLoader : SourceLoader (SingleFlightLoader K V × σ) K V :=
  ⟨c.loadAndStore, c.loadAndStoreMulti⟩

end Components

/-- A result of `SingleFlightLoader` against `PureLoader`'s `pure`: both `nil`, or entries of
the same key whose value is `pure`'s or its clone. -/
def ClonedAs (cloner : V → V) : Option (Entry K V) → Option (Entry K V) → Prop
  | none, none => True
  | some pure, some singleFlight =>
      singleFlight.key = pure.key ∧
        (singleFlight.value = pure.value ∨ singleFlight.value = cloner pure.value)
  | _, _ => False

/-- How `LoadAndStoreMulti` of `PureLoader` and of `SingleFlightLoader` end alike: both with an
error, or both with results that agree at every position. -/
def MultiAgrees (cloner : V → V) :
    Outcome (List (Option (Entry K V))) → Outcome (List (Option (Entry K V))) → Prop
  | some (.normal (.error _)), some (.normal (.error _)) => True
  | some (.normal (.ok pure)), some (.normal (.ok singleFlight)) =>
      List.Forall₂ (ClonedAs cloner) pure singleFlight
  | _, _ => False

theorem clonedAs_clonedEntry (cloner : V → V) (cacheEntry : Option (CacheEntry K V)) (j : Nat) :
    ClonedAs cloner (hitResult cacheEntry) (clonedEntry cloner cacheEntry j) := by
  rcases cacheEntry with _ | e
  · trivial
  · simp only [hitResult, CacheEntry.result, clonedEntry]
    split
    · trivial
    · split <;> simp [ClonedAs]

theorem receiveResult_error {err : GoError} (h : err ≠ .errGoexit) :
    receiveResult (K := K) (V := V) (.error err) = .normal (.error err) := by
  cases err <;> first | rfl | exact absurd rfl h

theorem exists_forall₂_of_forall₂_exists {α β γ : Type} {R : α → γ → Prop}
    {S : β → γ → Prop} {as : List α} {bs : List β}
    (h : List.Forall₂ (fun a b => ∃ c, R a c ∧ S b c) as bs) :
    ∃ cs, List.Forall₂ R as cs ∧ List.Forall₂ S bs cs := by
  induction h with
  | nil => exact ⟨[], .nil, .nil⟩
  | cons here _ inductionHypothesis =>
      obtain ⟨c, r, s⟩ := here
      obtain ⟨cs, rs, ss⟩ := inductionHypothesis
      exact ⟨c :: cs, .cons r rs, .cons s ss⟩

theorem exists_of_forall₂_of_mem {α β : Type} {R : α → β → Prop} {as : List α}
    {bs : List β} (h : List.Forall₂ R as bs) {b : β} (member : b ∈ bs) : ∃ a ∈ as, R a b := by
  induction h with
  | nil => exact absurd member (List.not_mem_nil b)
  | cons here _ inductionHypothesis =>
      rcases List.mem_cons.mp member with rfl | member
      · exact ⟨_, List.mem_cons_self _ _, here⟩
      · obtain ⟨a, found, related⟩ := inductionHypothesis member
        exact ⟨a, List.mem_cons_of_mem _ found, related⟩

section Receive

theorem SingleFlightLoader.receive_of_buf (l : SingleFlightLoader K V) {c : Nat}
    {m : Message K V} (full : (l.chans c).buf = some m) :
    l.receive c =
      (some m, { l with chans := Function.update l.chans c { l.chans c with buf := none } }) := by
  simp [SingleFlightLoader.receive, full]

theorem SingleFlightLoader.delivered_after_receive {l : SingleFlightLoader K V} {c : Nat}
    {channels : List Nat} (fresh : c ∉ channels) {results : List (Message K V)}
    (delivered : List.Forall₂ (fun c m => (l.chans c).buf = some m) channels results)
    (emptied : Chan K V) :
    List.Forall₂
      (fun c' m => ({ l with chans := Function.update l.chans c emptied }.chans c').buf = some m)
      channels results :=
  ((List.forall₂_and_left _ _).mpr ⟨fun _ member => ne_of_mem_of_not_mem member fresh,
    delivered⟩).imp fun _ _ ⟨other, held⟩ => by simpa [Function.update_noteq other] using held

theorem SingleFlightLoader.awaitChannels_of_delivered {l : SingleFlightLoader K V}
    {channels : List Nat} (distinct : channels.Nodup) {results : List (Message K V)}
    (delivered : List.Forall₂ (fun c m => (l.chans c).buf = some m) channels results)
    (notGoexit : .error .errGoexit ∉ results) (lastErr : Option GoError)
    (received : List (Option (Entry K V))) :
    (l.awaitChannels channels lastErr received).1 = some (.normal
      (match (lastErr.toList ++ results.filterMap messageError).getLast? with
        | some err => .error err
        | none => .ok (received ++ results.map messageEntry))) := by
  induction channels generalizing l results lastErr received with
  | nil =>
      cases delivered
      cases lastErr <;> simp [SingleFlightLoader.awaitChannels]
  | cons c channels inductionHypothesis =>
      obtain ⟨fresh, distinct⟩ := List.nodup_cons.mp distinct
      cases delivered with
      | @cons _ m _ results here rest =>
          obtain ⟨notHere, notGoexitLater⟩ := not_or.mp (List.mem_cons.not.mp notGoexit)
          have later := delivered_after_receive fresh rest { l.chans c with buf := none }
          cases m with
          | ok entry =>
              simp only [SingleFlightLoader.awaitChannels, l.receive_of_buf here]
              rw [inductionHypothesis distinct later notGoexitLater]
              simp [messageError, messageEntry, List.getLast?_cons]
          | error err =>
              have notErrGoexit : err ≠ .errGoexit := fun same => notHere (same ▸ rfl)
              simp only [SingleFlightLoader.awaitChannels, l.receive_of_buf here,
                if_neg notErrGoexit]
              rw [inductionHypothesis distinct later notGoexitLater]
              simp [messageError, messageEntry, List.getLast?_cons]

theorem SingleFlightLoader.awaitChannels_of_ok {l : SingleFlightLoader K V} {channels : List Nat}
    (distinct : channels.Nodup) {entries : List (Option (Entry K V))}
    (full : List.Forall₂ (fun c entry => (l.chans c).buf = some (.ok entry)) channels entries)
    (received : List (Option (Entry K V))) :
    (l.awaitChannels channels none received).1 = some (.normal (.ok (received ++ entries))) := by
  have noErrors : (entries.map .ok).filterMap (messageError (K := K) (V := V)) = [] := by
    simp [messageError]
  rw [l.awaitChannels_of_delivered distinct (List.forall₂_map_right_iff.mpr full) (by simp),
    noErrors]
  simp [messageEntry, Function.comp_def]

theorem SingleFlightLoader.awaitChannels_of_error {l : SingleFlightLoader K V}
    {channels : List Nat} (distinct : channels.Nodup) {err : GoError}
    (notGoexit : err ≠ .errGoexit)
    (full : ∀ c ∈ channels, (l.chans c).buf = some (.error err)) {lastErr : Option GoError}
    (nonempty : channels ≠ [] ∨ lastErr = some err) (received : List (Option (Entry K V))) :
    (l.awaitChannels channels lastErr received).1 = some (.normal (.error err)) := by
  induction channels generalizing l lastErr received with
  | nil =>
      obtain rfl := nonempty.resolve_left (not_not.mpr rfl)
      rfl
  | cons c channels inductionHypothesis =>
      obtain ⟨fresh, distinct⟩ := List.nodup_cons.mp distinct
      simp only [SingleFlightLoader.awaitChannels,
        l.receive_of_buf (full c (List.mem_cons_self c channels)), if_neg notGoexit]
      exact inductionHypothesis distinct (fun c' member => by
        simpa [Function.update_noteq (ne_of_mem_of_not_mem member fresh)] using
          full c' (List.mem_cons_of_mem c member)) (.inr rfl) _

theorem forall₂_ok_iff {results : List (Message K V)} {entries : List (Option (Entry K V))} :
    List.Forall₂ (fun m entry => m = .ok entry) results entries ↔
      results.filterMap messageError = [] ∧ entries = results.map messageEntry := by
  induction results generalizing entries with
  | nil => simp
  | cons m results inductionHypothesis =>
      cases entries with
      | nil => cases m <;> simp [messageError]
      | cons entry entries =>
          cases m with
          | ok value =>
              simp [messageError, messageEntry, inductionHypothesis, and_left_comm,
                eq_comm (a := value)]
          | error err => simp [messageError]

/-- Under a context that is never cancelled, over distinct channels that have each delivered
a result other than `errGoexit`: `awaitChannels` returns the entries, in channel order, exactly
when no channel delivered an error, and otherwise the error of the last channel that failed,
so not the first channel's error when that one differs. -/
theorem awaitChannels_returns_last_error {l : SingleFlightLoader K V} {channels : List Nat}
    (distinct : channels.Nodup) {results : List (Message K V)}
    (delivered : List.Forall₂ (fun c m => (l.chans c).buf = some m) channels results)
    (notGoexit : .error .errGoexit ∉ results) :
    let errors : List GoError := results.filterMap messageError
    (∀ entries, (l.awaitChannels channels none []).1 = some (.normal (.ok entries)) ↔
      List.Forall₂ (fun m entry => m = .ok entry) results entries) ∧
    (∀ err, errors.getLast? = some err →
      (l.awaitChannels channels none []).1 = some (.normal (.error err))) ∧
    (∀ first, errors.head? = some first → errors.getLast? ≠ some first →
      (l.awaitChannels channels none []).1 ≠ some (.normal (.error first))) := by
  have returned := l.awaitChannels_of_delivered distinct delivered notGoexit none []
  rw [Option.toList_none, List.nil_append, List.nil_append] at returned
  simp only [returned, forall₂_ok_iff]
  generalize results.filterMap messageError = errors
  cases last : errors.getLast? with
  | none => simp [List.getLast?_eq_none_iff.mp last, eq_comm]
  | some err =>
      have nonempty : errors ≠ [] := fun empty => by simp [empty] at last
      simp [nonempty]

/-- Two loads of one `LoadAndStoreMulti` that failed with different errors, delivered on
channels `0` and `1`: `awaitChannels` returns the second error, not the first. -/
theorem awaitChannels_skips_first_error :
    let l : SingleFlightLoader Nat Nat :=
      { (SingleFlightLoader.init : SingleFlightLoader Nat Nat) with
        chans := fun c => ⟨some (.error (.other (c + 1))), true⟩ }
    (l.chans 0).buf = some (.error (.other 1)) ∧ (l.chans 1).buf = some (.error (.other 2)) ∧
      (l.awaitChannels [0, 1] none []).1 = some (.normal (.error (.other 2))) :=
  ⟨rfl, rfl, rfl⟩

theorem awaitChannels_returns_second_of_two_errors :
    let l : SingleFlightLoader Nat Nat :=
      { (SingleFlightLoader.init : SingleFlightLoader Nat Nat) with
        chans := fun c => ⟨some (.error (.other (c + 1))), true⟩ }
    let results : List (Message Nat Nat) := [.error (.other 1), .error (.other 2)]
    [0, 1].Nodup ∧ List.Forall₂ (fun c m => (l.chans c).buf = some m) [0, 1] results ∧
      .error .errGoexit ∉ results ∧
      (l.awaitChannels [0, 1] none []).1 = some (.normal (.error (.other 2))) ∧
      (l.awaitChannels [0, 1] none []).1 ≠ some (.normal (.error (.other 1))) := by
  intro l results
  have distinct : [0, 1].Nodup := by decide
  have delivered : List.Forall₂ (fun c m => (l.chans c).buf = some m) [0, 1] results :=
    .cons rfl (.cons rfl .nil)
  have notGoexit : .error .errGoexit ∉ results := by simp [results]
  have returned := awaitChannels_returns_last_error distinct delivered notGoexit
  exact ⟨distinct, delivered, notGoexit, returned.2.1 (.other 2) rfl,
    returned.2.2 (.other 1) rfl (by decide)⟩

end Receive

section Single

variable [DecidableEq K] (c : Components σ K V)

theorem Components.runTask_single {l : SingleFlightLoader K V} {key : K}
    (pending : Inv [key] (l.finish (.single key))) (s : σ)
    (getForeign : c.source.get key ≠ .error .errGoexit)
    (setForeign : ∀ cacheEntry, c.storage.set s cacheEntry ≠ .error .errGoexit) :
    ∃ msg : Nat → Message K V,
      c.runTask (l, s) (.single key) = ((l.finish (.single key)).deliver key msg,
        (Pure.PureLoader.loadAndStore ⟨c.source, c.storage⟩ s key).2) ∧
      (Pure.PureLoader.loadAndStore ⟨c.source, c.storage⟩ s key).1 =
        some (receiveResult (msg 0)) := by
  simp only [runTask, SingleFlightLoader.loadKeyAndStore, DoubleDeferSandwich.invoke,
    Pure.PureLoader.loadAndStore]
  rcases found : c.source.get key with err | _ | cacheEntry
  · exact ⟨fun _ => .error err, rfl,
      by rw [receiveResult_error fun same => getForeign (by rw [found, same])]⟩
  · rw [pending.sendEntry_eq_deliver]
    exact ⟨fun j => .ok (clonedEntry c.cloner none j), rfl, rfl⟩
  · simp only [storeWith]
    rcases stored : c.storage.set s cacheEntry with err | s'
    · exact ⟨fun _ => .error err, rfl,
        by rw [receiveResult_error fun same => setForeign cacheEntry (by rw [stored, same])]⟩
    · rw [pending.sendEntry_eq_deliver]
      refine ⟨fun j => .ok (clonedEntry c.cloner (some cacheEntry) j), rfl, ?_⟩
      simp [clonedEntry, CacheEntry.result, receiveResult]

theorem Components.loadAndStore_of_idle {l : SingleFlightLoader K V} (inv : Inv [] l)
    (idle : l.tasks = []) (s : σ) (key : K)
    (getForeign : c.source.get key ≠ .error .errGoexit)
    (setForeign : ∀ cacheEntry, c.storage.set s cacheEntry ≠ .error .errGoexit) :
    (c.loadAndStore (l, s) key).1 =
        (Pure.PureLoader.loadAndStore ⟨c.source, c.storage⟩ s key).1 ∧
      (c.loadAndStore (l, s) key).2.2 =
        (Pure.PureLoader.loadAndStore ⟨c.source, c.storage⟩ s key).2 := by
  obtain ⟨channel, waiting, tasks⟩ := l.registerKey_of_empty (inv.waitlists_of_idle idle key)
  have running : Task.single key ∈ (l.registerKey key).1.tasks := by simp [tasks, idle]
  have pending := (inv.registerKey key).finish running
  obtain ⟨msg, ran, answered⟩ := c.runTask_single pending s getForeign setForeign
  have delivered := (((l.registerKey key).1.finish (.single key)).deliver_of_empty key msg
    (pending.waiting_nodup key) (pending.waiting_empty key)).2 0 l.nextChan (by simp [waiting])
  simp only [loadAndStore, runTasks, tasks, idle, List.nil_append, List.foldl_cons,
    List.foldl_nil, ran, channel,
    SingleFlightLoader.receive_of_buf _ (congrArg Chan.buf delivered)]
  exact ⟨answered.symm, trivial⟩

end Single

section Multi

variable [DecidableEq K] (c : Components σ K V)

theorem Components.runTask_multi {l : SingleFlightLoader K V} {keys : List K}
    (pending : Inv keys (l.finish (.multi keys))) (s : σ) (perKey : c.source.PerKey)
    (foreign : c.source.Foreign)
    (setMultiOk : ∀ entries, ∃ s', c.storage.setMulti s entries = .ok s') :
    (∃ err, err ≠ .errGoexit ∧ ¬ (∀ key ∈ keys, ∃ e, c.source.get key = .ok e) ∧
        ∃ l', c.runTask (l, s) (.multi keys) = (l', s) ∧
          ∀ key ∈ keys, ∀ (j : Nat) ch, (l.waitlists key)[j]? = some ch →
            (l'.chans ch).buf = some (.error err)) ∨
      ((∀ key ∈ keys, ∃ e, c.source.get key = .ok e) ∧
        ∃ s', c.storage.setMulti s (keys.map c.source.entryOf) = .ok s' ∧
          ∃ l', c.runTask (l, s) (.multi keys) = (l', s') ∧
            ∀ key ∈ keys, ∀ (j : Nat) ch, (l.waitlists key)[j]? = some ch →
              (l'.chans ch).buf = some (.ok (clonedEntry c.cloner (c.source.entryOf key) j))) := by
  simp only [runTask, SingleFlightLoader.loadKeysAndStore, DoubleDeferSandwich.invoke]
  cases answered : c.source.getMulti keys with
  | error err =>
      refine .inl ⟨err, fun same => foreign.getMulti_ne keys (by rw [answered, same]),
        fun each => ?_, (l.finish (.multi keys)).throwErrors keys err, rfl,
        fun key member j ch listed => ?_⟩
      · simpa [answered] using (perKey.getMulti_eq_ok_iff keys).mpr each
      · rw [SingleFlightLoader.throwErrors_eq_foldl_deliver,
          (pending.foldl_deliver _).1 key member j ch (by simpa using listed)]
  | ok entries =>
      obtain rfl := LoadingSource.map_entryOf_of_mapM ((perKey _ _).mp answered)
      obtain ⟨s', stored⟩ := setMultiOk (keys.map c.source.entryOf)
      refine .inr ⟨(perKey.getMulti_eq_ok_iff keys).mp answered, s', stored,
        keys.foldl (fun l key => l.deliver key fun j =>
          .ok (clonedEntry c.cloner (c.source.entryOf key) j)) (l.finish (.multi keys)), ?_,
        fun key member j ch listed => by
          rw [(pending.foldl_deliver _).1 key member j ch (by simpa using listed)]⟩
      simp only [storeAllWith, stored]
      rw [pending.sendEntries_eq_foldl_deliver]

variable [Inhabited V]

theorem Components.loadAndStoreMulti_of_idle (options : Options K V)
    (c : Components (InMemoryStorage K V) K V)
    (inMemory : c.storage = InMemoryStorage.cacheStorage options) (perKey : c.source.PerKey)
    (keyed : c.source.Keyed) (foreign : c.source.Foreign) {l : SingleFlightLoader K V}
    (inv : Inv [] l) (idle : l.tasks = []) (s : InMemoryStorage K V) (keys : List K) :
    MultiAgrees c.cloner (Pure.PureLoader.loadAndStoreMulti ⟨c.source, c.storage⟩ s keys).1
        (c.loadAndStoreMulti (l, s) keys).1 ∧
      InMemoryStorage.contents options (c.loadAndStoreMulti (l, s) keys).2.2 =
        InMemoryStorage.contents options
          (Pure.PureLoader.loadAndStoreMulti ⟨c.source, c.storage⟩ s keys).2 := by
  obtain ⟨storage, source, cloner⟩ := c
  simp only at inMemory perKey keyed foreign ⊢
  subst inMemory
  have stored entries :
      ∃ s', (InMemoryStorage.cacheStorage options).setMulti s entries = .ok s' :=
    ⟨_, rfl⟩
  by_cases nonempty : keys = []
  · subst nonempty
    obtain ⟨s', none⟩ := stored []
    have registered : l.registerKeys [] = (l, []) := rfl
    simp only [loadAndStoreMulti, Pure.PureLoader.loadAndStoreMulti, (perKey [] []).mpr rfl, none,
      registered, runTasks, idle, List.foldl_nil, SingleFlightLoader.awaitChannels]
    exact ⟨.nil, by simp [InMemoryStorage.contents_of_setMulti none]⟩
  · have sameMembers := (IterUtil.uniq_spec keys).1
    obtain ⟨channels, registered⟩ := l.registerKeys_channels keys
    have distinct : (l.registerKeys keys).2.Nodup := channels ▸ List.nodup_range' _ _
    have tasks := l.registerKeys_tasks_of_idle (inv.waitlists_of_idle idle) nonempty
    rw [idle, List.nil_append] at tasks
    have running : Task.multi (IterUtil.uniq keys) ∈ (l.registerKeys keys).1.tasks := by
      simp [tasks]
    have pending : Inv (IterUtil.uniq keys) _ := (inv.registerKeys keys).finish running
    simp only [loadAndStoreMulti, runTasks, tasks, List.foldl_cons, List.foldl_nil,
      Pure.PureLoader.loadAndStoreMulti]
    rcases Components.runTask_multi ⟨InMemoryStorage.cacheStorage options, source, cloner⟩
      pending s perKey foreign stored with
      ⟨err, notGoexit, failed, final, ran, delivered⟩ |
        ⟨answered, s', written, final, ran, delivered⟩
    · obtain ⟨err', refused⟩ := perKey.getMulti_error fun each =>
        failed fun key member => each key ((sameMembers key).mp member)
      rw [ran, refused, SingleFlightLoader.awaitChannels_of_error distinct notGoexit
        (fun c member => ?_) (.inl (by simpa [channels] using nonempty))]
      · exact ⟨trivial, rfl⟩
      · obtain ⟨key, keyMember, listed⟩ := exists_of_forall₂_of_mem registered member
        obtain ⟨j, index⟩ := List.mem_iff_getElem?.mp listed
        exact delivered key ((sameMembers key).mpr keyMember) j c index
    · have agreed : List.Forall₂ (fun key c => ∃ entry,
          ClonedAs cloner (hitResult (source.entryOf key)) entry ∧
            (final.chans c).buf = some (.ok entry)) keys (l.registerKeys keys).2 :=
        ((List.forall₂_and_left _ _).mpr ⟨fun key member => member, registered⟩).imp
          fun key c ⟨keyMember, listed⟩ => by
            obtain ⟨j, index⟩ := List.mem_iff_getElem?.mp listed
            exact ⟨_, clonedAs_clonedEntry cloner (source.entryOf key) j,
              delivered key ((sameMembers key).mpr keyMember) j c index⟩
      obtain ⟨entries, cloned, full⟩ := exists_forall₂_of_forall₂_exists agreed
      have accepted := (perKey.getMulti_eq_ok_iff keys).mpr fun key member =>
        answered key ((sameMembers key).mpr member)
      obtain ⟨s'', written'⟩ := stored (keys.map source.entryOf)
      rw [ran, accepted]
      simp only [written', SingleFlightLoader.awaitChannels_of_ok distinct full]
      refine ⟨by simpa [MultiAgrees, List.forall₂_map_left_iff] using cloned, ?_⟩
      rw [InMemoryStorage.contents_of_setMulti written,
        InMemoryStorage.contents_of_setMulti written',
        BucketMap.storeAll_map_congr_of_keyed _ _ _ keyed.entryOf sameMembers]

end Multi

section Runs

variable {cloner : V → V}

theorem storeWith_returns (storage : CacheStorage σ K V) (s : σ) (cacheEntry : CacheEntry K V) :
    ∃ result, (storeWith storage s cacheEntry).1 = .normal result := by
  unfold storeWith
  split <;> exact ⟨_, rfl⟩

theorem storeAllWith_returns (storage : CacheStorage σ K V) (s : σ)
    (entries : List (Option (CacheEntry K V))) :
    ∃ result, (storeAllWith storage s entries).1 = .normal result := by
  unfold storeAllWith
  split <;> exact ⟨_, rfl⟩

variable [DecidableEq K]

theorem SingleFlightLoader.receive_reachable {l : SingleFlightLoader K V}
    (reachable : Reachable cloner l) (ch : Nat) :
    Reachable cloner (l.receive ch).2 ∧ (l.receive ch).2.tasks = l.tasks := by
  unfold SingleFlightLoader.receive
  split
  · exact ⟨.step reachable (.receive l ch _ ‹_›), rfl⟩
  · exact ⟨reachable, rfl⟩

theorem SingleFlightLoader.awaitChannels_reachable :
    ∀ {l : SingleFlightLoader K V} (channels : List Nat) (lastErr : Option GoError)
      (entries : List (Option (Entry K V))), Reachable cloner l →
      Reachable cloner (l.awaitChannels channels lastErr entries).2 ∧
        (l.awaitChannels channels lastErr entries).2.tasks = l.tasks
  | _, [], _, _, reachable => ⟨reachable, rfl⟩
  | l, ch :: channels, lastErr, entries, reachable => by
      obtain ⟨received, kept⟩ := l.receive_reachable reachable ch
      simp only [SingleFlightLoader.awaitChannels]
      generalize l.receive ch = result at received kept ⊢
      rcases result with ⟨_ | err | entry, l'⟩ <;> dsimp only
      · exact ⟨received, kept⟩
      · split
        · exact ⟨received, kept⟩
        · obtain ⟨next, same⟩ := awaitChannels_reachable channels (some err) (entries ++ [none])
            received
          exact ⟨next, same.trans kept⟩
      · obtain ⟨next, same⟩ := awaitChannels_reachable channels lastErr (entries ++ [entry])
          received
        exact ⟨next, same.trans kept⟩

variable (c : Components σ K V)

theorem Components.foldl_runTask_reachable (perKey : c.source.PerKey) :
    ∀ (pending : List (Task K)) (ls : SingleFlightLoader K V × σ), Reachable c.cloner ls.1 →
      ls.1.tasks = pending → Reachable c.cloner (pending.foldl c.runTask ls).1 ∧
        (pending.foldl c.runTask ls).1.tasks = []
  | [], _, reachable, idle => ⟨reachable, idle⟩
  | t :: pending, ls, reachable, tasks => by
      have running : t ∈ ls.1.tasks := tasks ▸ List.mem_cons_self t pending
      have stepped :
          Step c.cloner ls.1 (c.runTask ls t).1 ∧ (c.runTask ls t).1.tasks = pending := by
        cases t with
        | single key =>
            exact ⟨ls.1.loadKeyAndStore_step c.cloner running _ _ (storeWith_returns c.storage)
                ls.2,
              by simp [runTask, SingleFlightLoader.loadKeyAndStore_tasks, tasks]⟩
        | multi keys =>
            refine ⟨ls.1.loadKeysAndStore_step c.cloner running _ (fun entries answered => ?_) _
              (storeAllWith_returns c.storage) ls.2,
              by simp [runTask, SingleFlightLoader.loadKeysAndStore_tasks, tasks]⟩
            exact ((mapM_eq_ok_iff _ _ _).mp
              ((perKey _ _).mp (Exit.normal.inj answered))).length_eq.symm
      exact foldl_runTask_reachable perKey pending _ (.step reachable stepped.1) stepped.2

theorem Components.loadAndStore_reachable (perKey : c.source.PerKey) {l : SingleFlightLoader K V}
    (reachable : Reachable c.cloner l) (s : σ) (key : K) :
    Reachable c.cloner (c.loadAndStore (l, s) key).2.1 ∧
      (c.loadAndStore (l, s) key).2.1.tasks = [] := by
  obtain ⟨loaded, idle⟩ := c.foldl_runTask_reachable perKey _ ((l.registerKey key).1, s)
    (.step reachable (.registerKey l key)) rfl
  obtain ⟨received, kept⟩ := SingleFlightLoader.receive_reachable loaded (l.registerKey key).2
  exact ⟨received, kept.trans idle⟩

theorem Components.loadAndStoreMulti_reachable (perKey : c.source.PerKey)
    {l : SingleFlightLoader K V} (reachable : Reachable c.cloner l) (s : σ) (keys : List K) :
    Reachable c.cloner (c.loadAndStoreMulti (l, s) keys).2.1 ∧
      (c.loadAndStoreMulti (l, s) keys).2.1.tasks = [] := by
  obtain ⟨loaded, idle⟩ := c.foldl_runTask_reachable perKey _ ((l.registerKeys keys).1, s)
    (.step reachable (.registerKeys l keys)) rfl
  obtain ⟨awaited, kept⟩ :=
    SingleFlightLoader.awaitChannels_reachable (l.registerKeys keys).2 none [] loaded
  exact ⟨awaited, kept.trans idle⟩

end Runs

section Simulation

variable [DecidableEq K] (options : Options K V)

/-- How a `SingleFlightLoader` called one call at a time stands to a `PureLoader` over in-memory
storages: the loader's state is reachable with no load in flight, and the two storages hold the
same contents. -/
def Simulates (cloner : V → V) (ls : SingleFlightLoader K V × InMemoryStorage K V)
    (s : InMemoryStorage K V) : Prop :=
  Reachable cloner ls.1 ∧ ls.1.tasks = [] ∧
    InMemoryStorage.contents options ls.2 = InMemoryStorage.contents options s

theorem simulates_init (cloner : V → V) :
    Simulates options cloner (.init, newInMemoryStorage options) (newInMemoryStorage options) :=
  ⟨.init, rfl, rfl⟩

variable [Inhabited V] {c : Components (InMemoryStorage K V) K V}
  (inMemory : c.storage = InMemoryStorage.cacheStorage options) (perKey : c.source.PerKey)
  (keyed : c.source.Keyed) (foreign : c.source.Foreign)
  {ls : SingleFlightLoader K V × InMemoryStorage K V} {s : InMemoryStorage K V}

include inMemory perKey foreign in
theorem Simulates.loadAndStore (related : Simulates options c.cloner ls s) (key : K) :
    (c.loadAndStore ls key).1 = (Pure.PureLoader.loadAndStore ⟨c.source, c.storage⟩ s key).1 ∧
      Simulates options c.cloner (c.loadAndStore ls key).2
        (Pure.PureLoader.loadAndStore ⟨c.source, c.storage⟩ s key).2 := by
  obtain ⟨l, t⟩ := ls
  obtain ⟨reachable, idle, same⟩ := related
  obtain ⟨returned, stored⟩ := c.loadAndStore_of_idle reachable.inv idle t key
    (foreign.get_ne key) fun _ refused => by rw [inMemory] at refused; cases refused
  obtain ⟨reachable', idle'⟩ := c.loadAndStore_reachable perKey reachable t key
  obtain ⟨storage, source, cloner⟩ := c
  simp only at inMemory
  subst inMemory
  obtain ⟨returnedAlike, storedAlike⟩ :=
    Pure.PureLoader.loadAndStore_inMemory options source same key
  exact ⟨returned.trans returnedAlike, reachable', idle', (congrArg _ stored).trans storedAlike⟩

include inMemory perKey keyed foreign in
theorem Simulates.loadAndStoreMulti (related : Simulates options c.cloner ls s) (keys : List K) :
    MultiAgrees c.cloner (Pure.PureLoader.loadAndStoreMulti ⟨c.source, c.storage⟩ s keys).1
        (c.loadAndStoreMulti ls keys).1 ∧
      Simulates options c.cloner (c.loadAndStoreMulti ls keys).2
        (Pure.PureLoader.loadAndStoreMulti ⟨c.source, c.storage⟩ s keys).2 := by
  obtain ⟨l, t⟩ := ls
  obtain ⟨reachable, idle, same⟩ := related
  obtain ⟨agreed, contents⟩ :=
    c.loadAndStoreMulti_of_idle options inMemory perKey keyed foreign reachable.inv idle t keys
  obtain ⟨reachable', idle'⟩ := c.loadAndStoreMulti_reachable perKey reachable t keys
  obtain ⟨storage, source, cloner⟩ := c
  simp only at inMemory
  subst inMemory
  obtain ⟨endedAlike, contentsAlike⟩ :=
    Pure.PureLoader.loadAndStoreMulti_inMemory options source same keys
  exact ⟨endedAlike ▸ agreed, reachable', idle', contents.trans contentsAlike⟩

include inMemory perKey keyed foreign in
theorem Simulates.run (related : Simulates options c.cloner ls s) (calls : List (LoaderCall K)) :
    Simulates options c.cloner (c.sourceLoader.run ls calls)
      ((Pure.PureLoader.sourceLoader ⟨c.source, c.storage⟩).run s calls) := by
  induction calls generalizing ls s with
  | nil => exact related
  | cons call calls inductionHypothesis =>
      cases call with
      | loadAndStore key =>
          exact inductionHypothesis (related.loadAndStore options inMemory perKey foreign key).2
      | loadAndStoreMulti keys =>
          exact inductionHypothesis
            (related.loadAndStoreMulti options inMemory perKey keyed foreign keys).2

include inMemory perKey keyed foreign in
/-- Over whole sessions: after any calls made one at a time from a new loader and empty
storages, the next `LoadAndStore` of `SingleFlightLoader` returns what `PureLoader`'s returns,
and the next `LoadAndStoreMulti` ends alike. -/
theorem sessions_agree (calls : List (LoaderCall K)) (key : K) (keys : List K) :
    let ls := c.sourceLoader.run (.init, newInMemoryStorage options) calls
    let s := (Pure.PureLoader.sourceLoader ⟨c.source, c.storage⟩).run
      (newInMemoryStorage options) calls
    (c.loadAndStore ls key).1 = (Pure.PureLoader.loadAndStore ⟨c.source, c.storage⟩ s key).1 ∧
      MultiAgrees c.cloner (Pure.PureLoader.loadAndStoreMulti ⟨c.source, c.storage⟩ s keys).1
        (c.loadAndStoreMulti ls keys).1 := by
  intro ls s
  have related := (simulates_init options c.cloner).run options inMemory perKey keyed foreign calls
  exact ⟨(related.loadAndStore options inMemory perKey foreign key).1,
    (related.loadAndStoreMulti options inMemory perKey keyed foreign keys).1⟩

theorem sessions_agree_after_multi :
    let source : LoadingSource Nat Nat :=
      ⟨fun key => .ok (some ⟨⟨key, 10 * key⟩, 100, false⟩),
        fun keys => .ok (keys.map fun key => some ⟨⟨key, 10 * key⟩, 100, false⟩)⟩
    let options : Options Nat Nat := ⟨fun key => key, 1, id⟩
    let c : Components (InMemoryStorage Nat Nat) Nat Nat :=
      ⟨InMemoryStorage.cacheStorage options, source, id⟩
    c.storage = InMemoryStorage.cacheStorage options ∧ c.source.PerKey ∧ c.source.Keyed ∧
      c.source.Foreign ∧
      let ls := c.sourceLoader.run (.init, newInMemoryStorage options) [.loadAndStoreMulti [1, 2, 1]]
      let s := (Pure.PureLoader.sourceLoader ⟨c.source, c.storage⟩).run
        (newInMemoryStorage options) [.loadAndStoreMulti [1, 2, 1]]
      (c.loadAndStore ls 2).1 = (Pure.PureLoader.loadAndStore ⟨c.source, c.storage⟩ s 2).1 ∧
        MultiAgrees c.cloner (Pure.PureLoader.loadAndStoreMulti ⟨c.source, c.storage⟩ s [3, 1]).1
          (c.loadAndStoreMulti ls [3, 1]).1 := by
  intro source options c
  have perKey : source.PerKey := fun keys entries => by
    show Except.ok _ = _ ↔ keys.mapM (fun key => Except.ok _) = _
    rw [mapM_ok]
  have keyed : source.Keyed := fun key cacheEntry answered => by cases answered; rfl
  have foreign : source.Foreign :=
    ⟨fun _ refused => (by cases refused), fun _ refused => (by cases refused)⟩
  exact ⟨rfl, perKey, keyed, foreign,
    sessions_agree options (c := c) rfl perKey keyed foreign [.loadAndStoreMulti [1, 2, 1]] 2 [3, 1]⟩

end Simulation

section Agreement

variable [DecidableEq K] [Inhabited V]

/-- Run one call at a time from a state with no load in flight, over in-memory storages with
the same contents and a per-key source that keeps the `LoadingSource` contract,
`SingleFlightLoader` and `PureLoader` agree.  `LoadAndStore` returns the same.
`LoadAndStoreMulti`, whose one load asks the source for the keys without repeats in the order
they first come, ends with an error when `PureLoader`'s does and otherwise with results that
agree at every position.  Both calls leave the storages with the same contents. -/
theorem singleFlightLoader_agrees_with_pureLoader (options : Options K V)
    (source : LoadingSource K V) (cloner : V → V) (perKey : source.PerKey)
    (keyed : source.Keyed) (foreign : source.Foreign) {l : SingleFlightLoader K V}
    (reachable : Reachable cloner l) (idle : l.tasks = []) {s s' : InMemoryStorage K V}
    (same : InMemoryStorage.contents options s = InMemoryStorage.contents options s') (key : K)
    (keys : List K) :
    let singleFlight : Components (InMemoryStorage K V) K V :=
      ⟨InMemoryStorage.cacheStorage options, source, cloner⟩
    let pure : Pure.PureLoader (InMemoryStorage K V) K V :=
      ⟨source, InMemoryStorage.cacheStorage options⟩
    (singleFlight.loadAndStore (l, s) key).1 = (pure.loadAndStore s' key).1 ∧
      InMemoryStorage.contents options (singleFlight.loadAndStore (l, s) key).2.2 =
        InMemoryStorage.contents options (pure.loadAndStore s' key).2 ∧
      (keys ≠ [] → (l.registerKeys keys).1.tasks = [.multi (IterUtil.uniq keys)]) ∧
      MultiAgrees cloner (pure.loadAndStoreMulti s' keys).1
        (singleFlight.loadAndStoreMulti (l, s) keys).1 ∧
      InMemoryStorage.contents options (singleFlight.loadAndStoreMulti (l, s) keys).2.2 =
        InMemoryStorage.contents options (pure.loadAndStoreMulti s' keys).2 := by
  intro singleFlight pure
  have related : Simulates options cloner (l, s) s' := ⟨reachable, idle, same⟩
  obtain ⟨returned, ⟨-, -, stored⟩⟩ :=
    Simulates.loadAndStore options (c := singleFlight) rfl perKey foreign related key
  obtain ⟨agreed, ⟨-, -, contents⟩⟩ :=
    Simulates.loadAndStoreMulti options (c := singleFlight) rfl perKey keyed foreign related keys
  refine ⟨returned, stored, fun nonempty => ?_, agreed, contents⟩
  rw [l.registerKeys_tasks_of_idle (reachable.inv.waitlists_of_idle idle) nonempty, idle,
    List.nil_append]

theorem singleFlightLoader_agrees_with_pureLoader_duplicate_keys :
    let source : LoadingSource Nat Nat :=
      ⟨fun key => .ok (some ⟨⟨key, 10 * key⟩, 100, false⟩),
        fun keys => .ok (keys.map fun key => some ⟨⟨key, 10 * key⟩, 100, false⟩)⟩
    let options : Options Nat Nat := ⟨fun key => key, 1, id⟩
    let l : SingleFlightLoader Nat Nat := .init
    let s := newInMemoryStorage options
    source.PerKey ∧ source.Keyed ∧ source.Foreign ∧ Reachable id l ∧ l.tasks = [] ∧
      InMemoryStorage.contents options s = InMemoryStorage.contents options s ∧
      let singleFlight : Components (InMemoryStorage Nat Nat) Nat Nat :=
        ⟨InMemoryStorage.cacheStorage options, source, id⟩
      let pure : Pure.PureLoader (InMemoryStorage Nat Nat) Nat Nat :=
        ⟨source, InMemoryStorage.cacheStorage options⟩
      (singleFlight.loadAndStore (l, s) 1).1 = (pure.loadAndStore s 1).1 ∧
        InMemoryStorage.contents options (singleFlight.loadAndStore (l, s) 1).2.2 =
          InMemoryStorage.contents options (pure.loadAndStore s 1).2 ∧
        ([1, 2, 1] ≠ [] → (l.registerKeys [1, 2, 1]).1.tasks = [.multi (IterUtil.uniq [1, 2, 1])]) ∧
        MultiAgrees id (pure.loadAndStoreMulti s [1, 2, 1]).1
          (singleFlight.loadAndStoreMulti (l, s) [1, 2, 1]).1 ∧
        InMemoryStorage.contents options (singleFlight.loadAndStoreMulti (l, s) [1, 2, 1]).2.2 =
          InMemoryStorage.contents options (pure.loadAndStoreMulti s [1, 2, 1]).2 := by
  intro source options l s
  have perKey : source.PerKey := fun keys entries => by
    show Except.ok _ = _ ↔ keys.mapM (fun key => Except.ok _) = _
    rw [mapM_ok]
  have keyed : source.Keyed := fun key cacheEntry answered => by cases answered; rfl
  have foreign : source.Foreign :=
    ⟨fun _ refused => (by cases refused), fun _ refused => (by cases refused)⟩
  exact ⟨perKey, keyed, foreign, .init, rfl, rfl, singleFlightLoader_agrees_with_pureLoader options
    source id perKey keyed foreign .init rfl rfl 1 [1, 2, 1]⟩

end Agreement

/-- A NaN `float64` key over an empty in-memory storage under the default hash.
`registerKey` appends the caller's channel to `waitlists[NaN]`, which no lookup finds, so the
list it reads back is empty and no load starts: the caller waits for good, while `PureLoader`
loads the key and returns its entry. -/
theorem singleFlightLoader_waits_on_nan_key :
    let source : LoadingSource GoFloat64 Nat :=
      ⟨fun key => .ok (some ⟨⟨key, 7⟩, 100, false⟩),
        fun keys => .ok (keys.map fun key => some ⟨⟨key, 7⟩, 100, false⟩)⟩
    let options : Options GoFloat64 Nat := ⟨KeyHash.hashFloat64, 256, id⟩
    let singleFlight : Components (InMemoryStorage GoFloat64 Nat) GoFloat64 Nat :=
      ⟨InMemoryStorage.cacheStorage options, source, id⟩
    let pure : Pure.PureLoader (InMemoryStorage GoFloat64 Nat) GoFloat64 Nat :=
      ⟨source, InMemoryStorage.cacheStorage options⟩
    (singleFlight.loadAndStore (.init, newInMemoryStorage options) .nan).1 = none ∧
      (pure.loadAndStore (newInMemoryStorage options) .nan).1 =
        some (.normal (.ok (some ⟨.nan, 7⟩))) :=
  ⟨rfl, rfl⟩

end LoadingCache.SingleFlight
