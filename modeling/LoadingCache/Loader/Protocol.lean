import LoadingCache.Loader.SingleFlight
import LoadingCache.IterUtil
import Mathlib.Data.List.Nodup
import Mathlib.Data.List.Perm.Basic

/-!
# The single-flight protocol

Any number of callers register keys (`registerKey`, or `registerKeys` with any list of keys,
duplicates included), the loads in flight end in any order through `sendEntry`, `throwError`,
`sendEntries` or `throwErrors`, and each waiter takes its message.  A caller whose context is
cancelled returns without touching the shared state and leaves its channel registered; the
goroutine it starts to drain the channel takes the message later, as the caller would have.
A load ends by one of the four fan-outs, and `GetMulti` answers one entry per key.

`Inv` holds in every reachable state: a key has waiters exactly when one load in flight covers
it, and covers it once; every waiting channel is open and empty; and no send has ever hit a
closed or full channel.  `Inv pending` is the same with the keys a registration found idle
and has not yet handed to a load.
-/

namespace LoadingCache.SingleFlight

variable {K V : Type} [DecidableEq K]

/-- One atomic step on the loader's shared state. -/
inductive Step (cloner : V → V) : SingleFlightLoader K V → SingleFlightLoader K V → Prop where
  | registerKey (l : SingleFlightLoader K V) (key : K) : Step cloner l (l.registerKey key).1
  | registerKeys (l : SingleFlightLoader K V) (keys : List K) :
      Step cloner l (l.registerKeys keys).1
  | sendEntry (l : SingleFlightLoader K V) (key : K) (cacheEntry : Option (CacheEntry K V))
      (running : .single key ∈ l.tasks) :
      Step cloner l ((l.finish (.single key)).sendEntry (normalCloner cloner) key cacheEntry).1
  | loadError (l : SingleFlightLoader K V) (key : K) (err : GoError)
      (running : .single key ∈ l.tasks) :
      Step cloner l ((l.finish (.single key)).throwError key err)
  | sendEntries (l : SingleFlightLoader K V) (keys : List K)
      (cacheEntries : List (Option (CacheEntry K V))) (running : .multi keys ∈ l.tasks)
      (aligned : cacheEntries.length = keys.length) :
      Step cloner l
        ((l.finish (.multi keys)).sendEntries (normalCloner cloner) keys cacheEntries).1
  | loadErrors (l : SingleFlightLoader K V) (keys : List K) (err : GoError)
      (running : .multi keys ∈ l.tasks) :
      Step cloner l ((l.finish (.multi keys)).throwErrors keys err)
  | receive (l : SingleFlightLoader K V) (c : Nat) (m : Message K V)
      (full : (l.chans c).buf = some m) :
      Step cloner l { l with chans := Function.update l.chans c { l.chans c with buf := none } }

/-- The states a run reaches from `NewSingleFlightLoader`. -/
inductive Reachable (cloner : V → V) : SingleFlightLoader K V → Prop where
  | init : Reachable cloner .init
  | step {l l' : SingleFlightLoader K V} : Reachable cloner l → Step cloner l l' →
      Reachable cloner l'

/-- The keys the loads in flight ask the source for, with multiplicity. -/
def SingleFlightLoader.covered (l : SingleFlightLoader K V) : List K :=
  l.tasks.flatMap Task.keys

/-- The invariant, with `pending` the keys found idle but not yet handed to a load. -/
structure Inv (pending : List K) (l : SingleFlightLoader K V) : Prop where
  covered : ∀ key, (l.covered ++ pending).count key = if l.waitlists key = [] then 0 else 1
  waiting_empty : ∀ key, ∀ c ∈ l.waitlists key, l.chans c = .empty
  waiting_lt : ∀ key, ∀ c ∈ l.waitlists key, c < l.nextChan
  waiting_nodup : ∀ key, (l.waitlists key).Nodup
  waiting_disjoint : ∀ key key', ∀ c ∈ l.waitlists key, c ∈ l.waitlists key' → key = key'
  no_fault : l.fault = false

theorem Inv.init : Inv [] (SingleFlightLoader.init : SingleFlightLoader K V) where
  covered _ := rfl
  waiting_empty _ _ h := absurd h (List.not_mem_nil _)
  waiting_lt _ _ h := absurd h (List.not_mem_nil _)
  waiting_nodup _ := List.nodup_nil
  waiting_disjoint _ _ _ h := absurd h (List.not_mem_nil _)
  no_fault := rfl

theorem Inv.waiting_of_count {pending : List K} {l : SingleFlightLoader K V}
    (inv : Inv pending l) {key : K} (counted : key ∈ l.covered ++ pending) :
    l.waitlists key ≠ [] ∧ (l.covered ++ pending).count key = 1 := by
  have := inv.covered key
  have positive := List.count_pos_iff.mpr counted
  split at this <;> simp_all

section Registration

theorem SingleFlightLoader.mem_enqueue_waitlists (l : SingleFlightLoader K V) (key k : K)
    (c : Nat) : c ∈ (l.enqueue key).1.waitlists k ↔
      c ∈ l.waitlists k ∨ (k = key ∧ c = l.nextChan) := by
  by_cases hit : k = key
  · subst hit; simp
  · simp [Function.update_noteq hit, hit]

theorem Inv.enqueue {pending : List K} {l : SingleFlightLoader K V} (inv : Inv pending l)
    (key : K) :
    Inv (if l.waitlists key = [] then pending ++ [key] else pending) (l.enqueue key).1 := by
  have fresh : ∀ k, l.nextChan ∉ l.waitlists k := fun k member =>
    Nat.lt_irrefl _ (inv.waiting_lt k _ member)
  constructor
  · intro k
    have before := inv.covered k
    simp only [SingleFlightLoader.covered, SingleFlightLoader.enqueue_fst_tasks] at before ⊢
    by_cases hit : k = key
    · subst hit
      split <;> simp_all [List.count_append]
    · split <;> simp_all [List.count_append, Function.update_noteq hit, Ne.symm hit]
  · intro k c member
    rw [SingleFlightLoader.mem_enqueue_waitlists] at member
    simp only [SingleFlightLoader.enqueue_fst_chans]
    rcases member with old | ⟨-, rfl⟩
    · rw [Function.update_noteq (Nat.ne_of_lt (inv.waiting_lt k c old))]
      exact inv.waiting_empty k c old
    · simp
  · intro k c member
    rw [SingleFlightLoader.mem_enqueue_waitlists] at member
    rcases member with old | ⟨-, rfl⟩
    · exact Nat.lt_succ_of_lt (inv.waiting_lt k c old)
    · exact Nat.lt_succ_self _
  · intro k
    by_cases hit : k = key
    · subst hit
      simpa using List.Nodup.append (inv.waiting_nodup k) (List.nodup_singleton _)
        (List.disjoint_singleton.mpr (fresh k))
    · simpa [Function.update_noteq hit] using inv.waiting_nodup k
  · intro k k' c member member'
    rw [SingleFlightLoader.mem_enqueue_waitlists] at member member'
    rcases member with old | ⟨rfl, rfl⟩
    · rcases member' with old' | ⟨-, rfl⟩
      · exact inv.waiting_disjoint k k' c old old'
      · exact absurd old (fresh k)
    · rcases member' with old' | ⟨rfl, -⟩
      · exact absurd old' (fresh k')
      · rfl
  · exact inv.no_fault

theorem SingleFlightLoader.enqueue_length_eq_one (l : SingleFlightLoader K V) (key : K) :
    ((l.enqueue key).1.waitlists key).length = 1 ↔ l.waitlists key = [] := by
  simp

theorem Inv.spawn {pending : List K} {l : SingleFlightLoader K V} (t : Task K)
    (inv : Inv (pending ++ t.keys) l) : Inv pending { l with tasks := l.tasks ++ [t] } where
  covered key := by
    rw [← inv.covered key]
    simp only [SingleFlightLoader.covered, List.flatMap_append, List.count_append]
    simp [List.flatMap]
    omega
  waiting_empty := inv.waiting_empty
  waiting_lt := inv.waiting_lt
  waiting_nodup := inv.waiting_nodup
  waiting_disjoint := inv.waiting_disjoint
  no_fault := inv.no_fault

theorem SingleFlightLoader.registerKey_of_empty (l : SingleFlightLoader K V) {key : K}
    (empty : l.waitlists key = []) :
    (l.registerKey key).2 = l.nextChan ∧ (l.registerKey key).1.waitlists key = [l.nextChan] ∧
      (l.registerKey key).1.tasks = l.tasks ++ [.single key] := by
  simp [SingleFlightLoader.registerKey, empty]

theorem Inv.registerKey {l : SingleFlightLoader K V} (inv : Inv [] l) (key : K) :
    Inv [] (l.registerKey key).1 := by
  have enqueued := inv.enqueue key
  simp only [SingleFlightLoader.registerKey]
  by_cases empty : l.waitlists key = []
  · rw [if_pos empty, List.nil_append] at enqueued
    rw [if_pos ((l.enqueue_length_eq_one key).mpr empty)]
    exact Inv.spawn (.single key) enqueued
  · rw [if_neg empty] at enqueued
    rw [if_neg (mt (l.enqueue_length_eq_one key).mp empty)]
    exact enqueued

theorem Inv.registerKeysStep {acc : SingleFlightLoader K V × List K × List Nat}
    (inv : Inv acc.2.1 acc.1) (key : K) :
    Inv (SingleFlightLoader.registerKeysStep acc key).2.1
      (SingleFlightLoader.registerKeysStep acc key).1 := by
  simp only [SingleFlightLoader.registerKeysStep, SingleFlightLoader.enqueue_length_eq_one]
  exact inv.enqueue key

theorem Inv.registerKeys {l : SingleFlightLoader K V} (inv : Inv [] l) (keys : List K) :
    Inv [] (l.registerKeys keys).1 := by
  have folded : ∀ acc : SingleFlightLoader K V × List K × List Nat, Inv acc.2.1 acc.1 →
      Inv (keys.foldl SingleFlightLoader.registerKeysStep acc).2.1
        (keys.foldl SingleFlightLoader.registerKeysStep acc).1 := by
    induction keys with
    | nil => exact fun _ h => h
    | cons key keys inductionHypothesis =>
        exact fun acc h => inductionHypothesis _ (h.registerKeysStep key)
  have registered := folded (l, [], []) inv
  simp only [SingleFlightLoader.registerKeys]
  split
  · exact Inv.spawn (.multi _) (by simpa using registered)
  · rename_i empty
    rw [ne_eq, Decidable.not_not, List.length_eq_zero] at empty
    rw [empty] at registered
    exact registered

end Registration

section Batch

variable (acc : SingleFlightLoader K V × List K × List Nat) (key : K)

@[simp] theorem SingleFlightLoader.registerKeysStep_fst :
    (SingleFlightLoader.registerKeysStep acc key).1 = (acc.1.enqueue key).1 := rfl

@[simp] theorem SingleFlightLoader.registerKeysStep_channels :
    (SingleFlightLoader.registerKeysStep acc key).2.2 = acc.2.2 ++ [acc.1.nextChan] := rfl

theorem SingleFlightLoader.registerKeysStep_targets :
    (SingleFlightLoader.registerKeysStep acc key).2.1 =
      if acc.1.waitlists key = [] then acc.2.1 ++ [key] else acc.2.1 := by
  simp [SingleFlightLoader.registerKeysStep]

theorem SingleFlightLoader.foldl_registerKeysStep (keys : List K) :
    (keys.foldl registerKeysStep acc).1.tasks = acc.1.tasks ∧
      (keys.foldl registerKeysStep acc).2.2 = acc.2.2 ++ List.range' acc.1.nextChan keys.length ∧
      (∀ k, ∀ c ∈ acc.1.waitlists k, c ∈ (keys.foldl registerKeysStep acc).1.waitlists k) ∧
      List.Forall₂ (fun key c => c ∈ (keys.foldl registerKeysStep acc).1.waitlists key) keys
        (List.range' acc.1.nextChan keys.length) := by
  induction keys generalizing acc with
  | nil => simp
  | cons key keys inductionHypothesis =>
      obtain ⟨tasks, channels, kept, registered⟩ := inductionHypothesis (registerKeysStep acc key)
      simp only [List.foldl_cons, List.length_cons, List.range'_succ] at *
      refine ⟨by simpa using tasks, by simpa using channels, fun k c member => kept k c ?_,
        .cons (kept key _ ?_) (by simpa using registered)⟩
      · exact (acc.1.mem_enqueue_waitlists key k c).mpr (.inl member)
      · exact (acc.1.mem_enqueue_waitlists key key _).mpr (.inr ⟨rfl, rfl⟩)

theorem SingleFlightLoader.foldl_registerKeysStep_targets (keys : List K)
    (seen : ∀ k, acc.1.waitlists k = [] ↔ k ∉ acc.2.1) :
    (keys.foldl registerKeysStep acc).2.1 =
      keys.foldl (fun out v => if v ∈ out then out else out ++ [v]) acc.2.1 := by
  induction keys generalizing acc with
  | nil => rfl
  | cons key keys inductionHypothesis =>
      rw [List.foldl_cons, List.foldl_cons, inductionHypothesis _ fun k => ?_,
        registerKeysStep_targets]
      · by_cases member : key ∈ acc.2.1 <;> simp [member, seen]
      · rw [registerKeysStep_targets, registerKeysStep_fst,
          SingleFlightLoader.enqueue_fst_waitlists]
        by_cases hit : k = key
        · subst hit
          by_cases member : k ∈ acc.2.1 <;> simp [member, seen]
        · rw [Function.update_noteq hit, seen]
          split <;> simp [hit]

theorem SingleFlightLoader.registerKeys_eq_foldl (l : SingleFlightLoader K V) (keys : List K) :
    (l.registerKeys keys).1.waitlists = (keys.foldl registerKeysStep (l, [], [])).1.waitlists ∧
      (l.registerKeys keys).1.tasks = (keys.foldl registerKeysStep (l, [], [])).1.tasks ++
        (if (keys.foldl registerKeysStep (l, [], [])).2.1 = [] then []
          else [.multi (keys.foldl registerKeysStep (l, [], [])).2.1]) ∧
      (l.registerKeys keys).2 = (keys.foldl registerKeysStep (l, [], [])).2.2 := by
  unfold SingleFlightLoader.registerKeys
  split
  next folded =>
    rw [folded]
    split <;> simp_all

theorem SingleFlightLoader.registerKeys_channels (l : SingleFlightLoader K V) (keys : List K) :
    (l.registerKeys keys).2 = List.range' l.nextChan keys.length ∧
      List.Forall₂ (fun key c => c ∈ (l.registerKeys keys).1.waitlists key) keys
        (l.registerKeys keys).2 := by
  obtain ⟨waitlists, -, channels⟩ := l.registerKeys_eq_foldl keys
  obtain ⟨-, folded, -, registered⟩ := foldl_registerKeysStep (l, [], []) keys
  rw [waitlists, channels, folded, List.nil_append]
  exact ⟨rfl, registered⟩

theorem SingleFlightLoader.registerKeys_tasks_of_idle (l : SingleFlightLoader K V)
    (idle : ∀ k, l.waitlists k = []) {keys : List K} (nonempty : keys ≠ []) :
    (l.registerKeys keys).1.tasks = l.tasks ++ [.multi (IterUtil.uniq keys)] := by
  obtain ⟨-, tasks, -⟩ := l.registerKeys_eq_foldl keys
  have targets : (keys.foldl registerKeysStep (l, [], [])).2.1 = IterUtil.uniq keys :=
    foldl_registerKeysStep_targets (l, [], []) keys fun k => by simp [idle k]
  obtain ⟨key, member⟩ := List.exists_mem_of_ne_nil keys nonempty
  have found : IterUtil.uniq keys ≠ [] :=
    List.ne_nil_of_mem (((IterUtil.uniq_spec keys).1 key).mpr member)
  rw [tasks, targets, if_neg found, (foldl_registerKeysStep (l, [], []) keys).1]

end Batch


section Completion

theorem SingleFlightLoader.count_covered_finish (l : SingleFlightLoader K V) {t : Task K}
    (running : t ∈ l.tasks) (key : K) :
    ((l.finish t).covered ++ t.keys).count key = l.covered.count key := by
  have := (List.perm_cons_erase running).flatMap_right Task.keys |>.count_eq key
  simp only [SingleFlightLoader.covered, SingleFlightLoader.finish_tasks, this,
    List.count_append, List.flatMap_cons]
  omega

theorem Inv.finish {l : SingleFlightLoader K V} (inv : Inv [] l) {t : Task K}
    (running : t ∈ l.tasks) : Inv t.keys (l.finish t) where
  covered key := by
    rw [l.count_covered_finish running]
    simpa using inv.covered key
  waiting_empty := inv.waiting_empty
  waiting_lt := inv.waiting_lt
  waiting_nodup := inv.waiting_nodup
  waiting_disjoint := inv.waiting_disjoint
  no_fault := inv.no_fault

theorem Inv.deliver {key : K} {rest : List K} {l : SingleFlightLoader K V}
    (inv : Inv (key :: rest) l) (msg : Nat → Message K V) : Inv rest (l.deliver key msg) where
  covered k := by
    have before := inv.covered k
    simp only [SingleFlightLoader.covered, SingleFlightLoader.deliver_tasks,
      SingleFlightLoader.deliver_waitlists, List.count_append] at before ⊢
    by_cases hit : k = key
    · subst hit
      have waiting := (inv.waiting_of_count (List.mem_append_right _ (List.mem_cons_self k rest))).1
      rw [if_neg waiting, List.count_cons_self] at before
      rw [Function.update_same, if_pos rfl]
      omega
    · rw [List.count_cons_of_ne hit] at before
      rwa [Function.update_noteq hit]
  waiting_empty k c member := by
    obtain ⟨hit, listed⟩ := (l.mem_deliver_waitlists key msg).mp member
    rw [l.deliver_chans_of_not_mem key msg fun other =>
      hit (inv.waiting_disjoint k key c listed other)]
    exact inv.waiting_empty k c listed
  waiting_lt k c member := by
    simpa using inv.waiting_lt k c ((l.mem_deliver_waitlists key msg).mp member).2
  waiting_nodup k := by
    rw [SingleFlightLoader.deliver_waitlists, Function.update_apply]
    split
    · exact List.nodup_nil
    · exact inv.waiting_nodup k
  waiting_disjoint k k' c member member' :=
    inv.waiting_disjoint k k' c ((l.mem_deliver_waitlists key msg).mp member).2
      ((l.mem_deliver_waitlists key msg).mp member').2
  no_fault := by
    rw [(l.deliver_of_empty key msg (inv.waiting_nodup key) (inv.waiting_empty key)).1]
    exact inv.no_fault

theorem Inv.throwError {key : K} {rest : List K} {l : SingleFlightLoader K V}
    (inv : Inv (key :: rest) l) (err : GoError) : Inv rest (l.throwError key err) :=
  inv.deliver _

theorem Inv.sendEntry_eq_deliver {key : K} {rest : List K} {l : SingleFlightLoader K V}
    (inv : Inv (key :: rest) l) (cloner : V → V) (cacheEntry : Option (CacheEntry K V)) :
    l.sendEntry (normalCloner cloner) key cacheEntry =
      (l.deliver key fun j => .ok (clonedEntry cloner cacheEntry j), .normal ()) :=
  l.sendEntry_eq_deliver key cloner cacheEntry (inv.waiting_nodup key) (inv.waiting_empty key)

theorem Inv.sendEntry {key : K} {rest : List K} {l : SingleFlightLoader K V}
    (inv : Inv (key :: rest) l) (cloner : V → V) (cacheEntry : Option (CacheEntry K V)) :
    (l.sendEntry (normalCloner cloner) key cacheEntry).2 = .normal () ∧
      Inv rest (l.sendEntry (normalCloner cloner) key cacheEntry).1 := by
  rw [inv.sendEntry_eq_deliver]
  exact ⟨rfl, inv.deliver _⟩

theorem Inv.sendEntries {keys : List K} {l : SingleFlightLoader K V} (inv : Inv keys l)
    (cloner : V → V) (cacheEntries : List (Option (CacheEntry K V)))
    (aligned : cacheEntries.length = keys.length) :
    (l.sendEntries (normalCloner cloner) keys cacheEntries).2 = .normal () ∧
      Inv [] (l.sendEntries (normalCloner cloner) keys cacheEntries).1 := by
  induction keys generalizing l cacheEntries with
  | nil => exact ⟨rfl, inv⟩
  | cons key keys inductionHypothesis =>
      cases cacheEntries with
      | nil => simp at aligned
      | cons cacheEntry cacheEntries =>
          obtain ⟨normal, next⟩ := inv.sendEntry cloner cacheEntry
          rw [l.sendEntries_cons_of_normal _ key keys cacheEntry cacheEntries normal]
          exact inductionHypothesis next cacheEntries (by simpa using aligned)

theorem Inv.throwErrors {keys : List K} {l : SingleFlightLoader K V} (inv : Inv keys l)
    (err : GoError) : Inv [] (l.throwErrors keys err) := by
  induction keys generalizing l with
  | nil => exact inv
  | cons key keys inductionHypothesis => exact inductionHypothesis (inv.throwError err)

theorem Inv.waitlists_of_idle {l : SingleFlightLoader K V} (inv : Inv [] l) (idle : l.tasks = [])
    (key : K) : l.waitlists key = [] := by
  have counted := inv.covered key
  simp only [SingleFlightLoader.covered, idle, List.flatMap_nil, List.append_nil,
    List.count_nil] at counted
  by_contra waiting
  rw [if_neg waiting] at counted
  omega

theorem Inv.foldl_deliver {keys : List K} {l : SingleFlightLoader K V} (inv : Inv keys l)
    (msg : K → Nat → Message K V) :
    (∀ key ∈ keys, ∀ j c, (l.waitlists key)[j]? = some c →
        (keys.foldl (fun l key => l.deliver key (msg key)) l).chans c = ⟨some (msg key j), true⟩) ∧
      ∀ c, (∀ key ∈ keys, c ∉ l.waitlists key) →
        (keys.foldl (fun l key => l.deliver key (msg key)) l).chans c = l.chans c := by
  induction keys generalizing l with
  | nil => exact ⟨fun _ member => absurd member (List.not_mem_nil _), fun _ _ => rfl⟩
  | cons key keys inductionHypothesis =>
      obtain ⟨deliveredRest, untouchedRest⟩ := inductionHypothesis (inv.deliver (msg key))
      have delivered := (l.deliver_of_empty key (msg key) (inv.waiting_nodup key)
        (inv.waiting_empty key)).2
      have shrunk k c (listed : c ∈ (l.deliver key (msg key)).waitlists k) : c ∈ l.waitlists k :=
        ((l.mem_deliver_waitlists key (msg key)).mp listed).2
      refine ⟨fun k member j c listed => ?_, fun c outside => ?_⟩
      · rw [List.foldl_cons]
        by_cases hit : k = key
        · subst hit
          rw [untouchedRest c fun k' _ listed' => ?_, delivered j c listed]
          have same := inv.waiting_disjoint k k' c (List.getElem?_mem listed) (shrunk k' c listed')
          subst same
          exact ((l.mem_deliver_waitlists k (msg k)).mp listed').1 rfl
        · refine deliveredRest k (List.mem_of_ne_of_mem hit member) j c ?_
          rwa [SingleFlightLoader.deliver_waitlists, Function.update_noteq hit]
      · rw [List.foldl_cons, untouchedRest c fun k member listed =>
          outside k (List.mem_cons_of_mem key member) (shrunk k c listed),
          l.deliver_chans_of_not_mem key _ (outside key (List.mem_cons_self key keys))]

theorem SingleFlightLoader.throwErrors_eq_foldl_deliver (l : SingleFlightLoader K V)
    (keys : List K) (err : GoError) :
    l.throwErrors keys err = keys.foldl (fun l key => l.deliver key fun _ => .error err) l := rfl

theorem Inv.sendEntries_eq_foldl_deliver {keys : List K} {l : SingleFlightLoader K V}
    (inv : Inv keys l) (cloner : V → V) (answer : K → Option (CacheEntry K V)) :
    l.sendEntries (normalCloner cloner) keys (keys.map answer) =
      (keys.foldl (fun l key => l.deliver key fun j => .ok (clonedEntry cloner (answer key) j)) l,
        .normal ()) := by
  induction keys generalizing l with
  | nil => rfl
  | cons key keys inductionHypothesis =>
      have sent := inv.sendEntry_eq_deliver cloner (answer key)
      rw [List.map_cons, l.sendEntries_cons_of_normal _ key keys _ _ (by rw [sent]), sent,
        List.foldl_cons]
      exact inductionHypothesis (inv.deliver _)

end Completion

theorem Inv.receive {l : SingleFlightLoader K V} (inv : Inv [] l) {c : Nat} {m : Message K V}
    (full : (l.chans c).buf = some m) :
    Inv [] { l with chans := Function.update l.chans c { l.chans c with buf := none } } where
  covered := inv.covered
  waiting_empty key c' member := by
    have waiting := inv.waiting_empty key c' member
    have other : c' ≠ c := by
      rintro rfl
      simp [waiting, Chan.empty] at full
    simpa [Function.update_noteq other] using waiting
  waiting_lt := inv.waiting_lt
  waiting_nodup := inv.waiting_nodup
  waiting_disjoint := inv.waiting_disjoint
  no_fault := inv.no_fault

theorem Inv.step {cloner : V → V} {l l' : SingleFlightLoader K V} (inv : Inv [] l)
    (step : Step cloner l l') : Inv [] l' := by
  cases step with
  | registerKey key => exact inv.registerKey key
  | registerKeys keys => exact inv.registerKeys keys
  | sendEntry key cacheEntry running => exact ((inv.finish running).sendEntry _ _).2
  | loadError key err running => exact (inv.finish running).throwError err
  | sendEntries keys cacheEntries running aligned =>
      exact ((inv.finish running).sendEntries _ cacheEntries aligned).2
  | loadErrors keys err running => exact (inv.finish running).throwErrors err
  | receive c m full => exact inv.receive full

theorem Reachable.inv {cloner : V → V} {l : SingleFlightLoader K V} (h : Reachable cloner l) :
    Inv [] l := by
  induction h with
  | init => exact Inv.init
  | step _ step inductionHypothesis => exact inductionHypothesis.step step

section Loads

variable {σ : Type}

theorem SingleFlightLoader.loadKeyAndStore_step (cloner : V → V) (l : SingleFlightLoader K V)
    {key : K} (running : .single key ∈ l.tasks)
    (get : Exit (Except GoError (Option (CacheEntry K V))))
    (set : σ → CacheEntry K V → Exit (Except GoError Unit) × σ)
    (setReturns : ∀ storage cacheEntry, ∃ result, (set storage cacheEntry).1 = .normal result)
    (storage : σ) :
    Step cloner l (l.loadKeyAndStore get set (normalCloner cloner) storage key).1 := by
  unfold SingleFlightLoader.loadKeyAndStore
  cases get with
  | goexit => exact Step.loadError l key _ running
  | panic p => exact Step.loadError l key _ running
  | normal result =>
      cases result with
      | error err => exact Step.loadError l key err running
      | ok cacheEntry =>
          cases cacheEntry with
          | none => exact Step.sendEntry l key none running
          | some cacheEntry =>
              obtain ⟨result, returned⟩ := setReturns storage cacheEntry
              rcases setResult : set storage cacheEntry with ⟨ended, storage'⟩
              rw [setResult] at returned
              subst returned
              simp only [DoubleDeferSandwich.invoke, setResult]
              cases result with
              | error err => exact Step.loadError l key err running
              | ok => exact Step.sendEntry l key (some cacheEntry) running

theorem SingleFlightLoader.loadKeysAndStore_step (cloner : V → V) (l : SingleFlightLoader K V)
    {keys : List K} (running : .multi keys ∈ l.tasks)
    (getMulti : Exit (Except GoError (List (Option (CacheEntry K V)))))
    (aligned : ∀ entries, getMulti = .normal (.ok entries) → entries.length = keys.length)
    (setMulti : σ → List (Option (CacheEntry K V)) → Exit (Except GoError Unit) × σ)
    (setReturns : ∀ storage entries, ∃ result, (setMulti storage entries).1 = .normal result)
    (storage : σ) :
    Step cloner l (l.loadKeysAndStore getMulti setMulti (normalCloner cloner) storage keys).1 := by
  unfold SingleFlightLoader.loadKeysAndStore
  cases getMulti with
  | goexit => exact Step.loadErrors l keys _ running
  | panic p => exact Step.loadErrors l keys _ running
  | normal result =>
      cases result with
      | error err => exact Step.loadErrors l keys err running
      | ok entries =>
          obtain ⟨result, returned⟩ := setReturns storage entries
          rcases setResult : setMulti storage entries with ⟨ended, storage'⟩
          rw [setResult] at returned
          subst returned
          simp only [DoubleDeferSandwich.invoke, setResult]
          cases result with
          | error err => exact Step.loadErrors l keys err running
          | ok => exact Step.sendEntries l keys entries running (aligned entries rfl)

/-- The load of key `1` for its one waiter, where the storage's `Set` calls `runtime.Goexit`:
the goroutine exits with the waiter's channel still listed, open and empty, and no load in
flight, so the invariant is broken and the next `registerKey 1` starts no load. -/
theorem loadKeyAndStore_set_goexit_strands_waiter :
    let l : SingleFlightLoader Nat Nat := (SingleFlightLoader.init.registerKey 1).1
    let after := l.loadKeyAndStore (.normal (.ok (some ⟨⟨1, 7⟩, 10, false⟩)))
      (fun storage _ => (.goexit, storage)) (normalCloner id) () 1
    Reachable id l ∧ after.2.2 = .goexit ∧ after.1.waitlists 1 = [0] ∧
      after.1.chans 0 = .empty ∧ after.1.tasks = [] ∧ ¬ Inv [] after.1 ∧
      (after.1.registerKey 1).1.waitlists 1 = [0, 1] ∧ (after.1.registerKey 1).1.tasks = [] :=
  ⟨Reachable.step Reachable.init (Step.registerKey _ 1), rfl, rfl, rfl, rfl,
    fun inv => absurd (inv.covered 1) (by decide), rfl, rfl⟩

end Loads

end LoadingCache.SingleFlight
