import LoadingCache.Basic

/-!
# The single-flight loader

`singleflightloader`: for every key the loader keeps the list of result channels of the
callers waiting for it (`waitlists`).  The caller whose channel makes a list one long starts
the background load of its key; `registerKeys` starts one load for all the keys of a batch
whose lists it found empty.  A load ends by sending every channel of its keys one message,
closing it, and emptying the list (`sendEntry`, `throwError`, `sendEntries`, `throwErrors`).

`SingleFlightLoader` is what the callers and the background goroutines share: the waitlists,
the channels (a buffer of capacity one and a closed flag), and the loads in flight.  A function
that holds `l.mu` is one step on it.  Sending on a closed or full channel, where Go panics or
blocks with the mutex held, sets `fault`.  The cloner is user code, so cloning a value may
panic or call `runtime.Goexit` in the middle of a fan-out.
-/

namespace LoadingCache.SingleFlight

variable {K V : Type}

/-- What a result channel carries, `either[error, *Entry]`. -/
abbrev Message (K V : Type) := Except GoError (Option (Entry K V))

/-- A channel of capacity one. -/
structure Chan (K V : Type) where
  buf : Option (Message K V)
  closed : Bool

/-- A channel as `make` returns it: open and empty. -/
def Chan.empty : Chan K V := ⟨none, false⟩

/-- A background load: `loadKeyAndStore` of one key, or `loadKeysAndStore` of a batch. -/
inductive Task (K : Type) where
  | single (key : K)
  | multi (keys : List K)
  deriving DecidableEq

/-- The keys a load asks the source for. -/
def Task.keys : Task K → List K
  | .single key => [key]
  | .multi keys => keys

/-- The shared state of a `SingleFlightLoader`.  Channels are numbered in the order `make`
creates them; `tasks` are the background loads in flight. -/
structure SingleFlightLoader (K V : Type) where
  waitlists : K → List Nat
  chans : Nat → Chan K V
  nextChan : Nat
  tasks : List (Task K)
  fault : Bool

/-- `NewSingleFlightLoader`: no waiter, no load. -/
def SingleFlightLoader.init : SingleFlightLoader K V :=
  ⟨fun _ => [], fun _ => .empty, 0, [], false⟩

/-- `wl <- m` then `close(wl)`: on a closed or full channel Go would panic or block. -/
def SingleFlightLoader.sendClose (l : SingleFlightLoader K V) (c : Nat) (m : Message K V) :
    SingleFlightLoader K V :=
  if (l.chans c).closed || (l.chans c).buf.isSome then { l with fault := true }
  else { l with chans := Function.update l.chans c ⟨some m, true⟩ }

@[simp] theorem SingleFlightLoader.sendClose_waitlists (l : SingleFlightLoader K V) (c : Nat)
    (m : Message K V) : (l.sendClose c m).waitlists = l.waitlists := by
  unfold SingleFlightLoader.sendClose; split <;> rfl

@[simp] theorem SingleFlightLoader.sendClose_tasks (l : SingleFlightLoader K V) (c : Nat)
    (m : Message K V) : (l.sendClose c m).tasks = l.tasks := by
  unfold SingleFlightLoader.sendClose; split <;> rfl

@[simp] theorem SingleFlightLoader.sendClose_nextChan (l : SingleFlightLoader K V) (c : Nat)
    (m : Message K V) : (l.sendClose c m).nextChan = l.nextChan := by
  unfold SingleFlightLoader.sendClose; split <;> rfl

theorem SingleFlightLoader.sendClose_chans_of_ne (l : SingleFlightLoader K V) {c c' : Nat}
    (m : Message K V) (h : c' ≠ c) : (l.sendClose c m).chans c' = l.chans c' := by
  unfold SingleFlightLoader.sendClose; split <;> simp [h]

theorem SingleFlightLoader.sendClose_of_empty (l : SingleFlightLoader K V) {c : Nat}
    (m : Message K V) (h : l.chans c = .empty) :
    l.sendClose c m = { l with chans := Function.update l.chans c ⟨some m, true⟩ } := by
  simp [SingleFlightLoader.sendClose, h, Chan.empty]

/-- Send the `i`-th message to the `i`-th channel of `channels` and close it, stopping where
computing a message panics or calls `runtime.Goexit`. -/
def SingleFlightLoader.fanOut (message : Nat → Exit (Message K V)) :
    SingleFlightLoader K V → List Nat → Nat → SingleFlightLoader K V × Exit Unit
  | l, [], _ => (l, .normal ())
  | l, c :: channels, i =>
      match message i with
      | .normal m => fanOut message (l.sendClose c m) channels (i + 1)
      | .panic p => (l, .panic p)
      | .goexit => (l, .goexit)

/-- The message `sendEntry` sends its `i`-th waiter: `nil` for a missing or negative entry,
the entry to the first waiter, and the entry with a cloned value to the others. -/
def SingleFlightLoader.entryMessage (cloner : V → Exit V) (cacheEntry : Option (CacheEntry K V))
    (i : Nat) :
    Exit (Message K V) :=
  match cacheEntry with
  | none => .normal (.ok none)
  | some e =>
      if e.negativeCache then .normal (.ok none)
      else if i = 0 then .normal (.ok (some e.entry))
      else match cloner e.entry.value with
        | .normal v => .normal (.ok (some { e.entry with value := v }))
        | .panic p => .panic p
        | .goexit => .goexit

/-- The cloner as the protocol runs it: every clone returns. -/
def normalCloner (cloner : V → V) : V → Exit V := fun v => .normal (cloner v)

/-- The entry `sendEntry` hands its `j`-th waiter when every clone returns. -/
def clonedEntry (cloner : V → V) (cacheEntry : Option (CacheEntry K V)) (j : Nat) :
    Option (Entry K V) :=
  match cacheEntry with
  | none => none
  | some e =>
      if e.negativeCache then none
      else if j = 0 then some e.entry
      else some { e.entry with value := cloner e.entry.value }

theorem SingleFlightLoader.entryMessage_normalCloner (cloner : V → V)
    (cacheEntry : Option (CacheEntry K V)) (j : Nat) :
    entryMessage (normalCloner cloner) cacheEntry j =
      .normal (.ok (clonedEntry cloner cacheEntry j)) := by
  unfold entryMessage clonedEntry
  split
  · rfl
  · split
    · rfl
    · split <;> rfl

theorem SingleFlightLoader.fanOut_frame (message : Nat → Exit (Message K V))
    (l : SingleFlightLoader K V) (channels : List Nat) (i : Nat) :
    (l.fanOut message channels i).1.waitlists = l.waitlists ∧
      (l.fanOut message channels i).1.tasks = l.tasks ∧
      (l.fanOut message channels i).1.nextChan = l.nextChan ∧
      ∀ c ∉ channels, (l.fanOut message channels i).1.chans c = l.chans c := by
  induction channels generalizing l i with
  | nil => simp [SingleFlightLoader.fanOut]
  | cons c channels inductionHypothesis =>
      cases hm : message i with
      | normal m =>
          simp only [SingleFlightLoader.fanOut, hm]
          obtain ⟨hw, ht, hn, hc⟩ := inductionHypothesis (l.sendClose c m) (i + 1)
          refine ⟨by simp [hw], by simp [ht], by simp [hn], fun c' notMember => ?_⟩
          rw [hc c' (fun h => notMember (List.mem_cons_of_mem c h))]
          exact l.sendClose_chans_of_ne _ (fun h => notMember (h ▸ List.mem_cons_self c' _))
      | panic p => simp [SingleFlightLoader.fanOut, hm]
      | goexit => simp [SingleFlightLoader.fanOut, hm]

theorem SingleFlightLoader.fanOut_normal (message : Nat → Exit (Message K V))
    (msg : Nat → Message K V) (hmsg : ∀ j, message j = .normal (msg j))
    (l : SingleFlightLoader K V) (channels : List Nat) (i : Nat) (distinct : channels.Nodup)
    (empty : ∀ c ∈ channels, l.chans c = .empty) :
    (l.fanOut message channels i).2 = .normal () ∧
      (l.fanOut message channels i).1.fault = l.fault ∧
      ∀ j (h : j < channels.length),
        (l.fanOut message channels i).1.chans channels[j] = ⟨some (msg (i + j)), true⟩ := by
  induction channels generalizing l i with
  | nil => simp [SingleFlightLoader.fanOut]
  | cons c channels inductionHypothesis =>
      obtain ⟨fresh, distinct⟩ := List.nodup_cons.mp distinct
      have sent := l.sendClose_of_empty (msg i) (empty c (List.mem_cons_self c _))
      have stillEmpty : ∀ c' ∈ channels, (l.sendClose c (msg i)).chans c' = .empty :=
        fun c' member => by
          rw [l.sendClose_chans_of_ne _ (by rintro rfl; exact fresh member)]
          exact empty c' (List.mem_cons_of_mem c member)
      obtain ⟨normal, fault, delivered⟩ :=
        inductionHypothesis (l.sendClose c (msg i)) (i + 1) distinct stillEmpty
      simp only [SingleFlightLoader.fanOut, hmsg]
      refine ⟨normal, by rw [fault, sent], fun j h => ?_⟩
      cases j with
      | zero =>
          rw [List.getElem_cons_zero, ((SingleFlightLoader.fanOut_frame _ _ _ _).2.2.2 c fresh),
            sent]
          simp
      | succ j =>
          rw [List.getElem_cons_succ, delivered j (by simpa using h), Nat.add_right_comm,
            Nat.add_assoc]

section GoKeys

variable [BEq K]

/-- `ch := make(chan ..., 1)` and `waitlists[key] = append(waitlists[key], ch)`. -/
def SingleFlightLoader.enqueue (l : SingleFlightLoader K V) (key : K) :
    SingleFlightLoader K V × Nat :=
  ({ l with
      waitlists := mapAssign l.waitlists key (l.waitlists key ++ [l.nextChan])
      chans := Function.update l.chans l.nextChan .empty
      nextChan := l.nextChan + 1 }, l.nextChan)

/-- `l.waitlists[key] = l.waitlists[key][:0]`. -/
def SingleFlightLoader.truncate (l : SingleFlightLoader K V) (key : K) : SingleFlightLoader K V :=
  { l with waitlists := mapAssign l.waitlists key [] }

/-- `registerKey`: the first waiter of a key starts `loadKeyAndStore`.  Returns the channel. -/
def SingleFlightLoader.registerKey (l : SingleFlightLoader K V) (key : K) :
    SingleFlightLoader K V × Nat :=
  let (l, ch) := l.enqueue key
  ((if (l.waitlists key).length = 1 then { l with tasks := l.tasks ++ [.single key] } else l),
    ch)

/-- One key of the loop of `registerKeys`: the loader, `targetKeys` and `channels`. -/
def SingleFlightLoader.registerKeysStep (acc : SingleFlightLoader K V × List K × List Nat)
    (key : K) :
    SingleFlightLoader K V × List K × List Nat :=
  let (l, ch) := acc.1.enqueue key
  (l, (if (l.waitlists key).length = 1 then acc.2.1 ++ [key] else acc.2.1), acc.2.2 ++ [ch])

/-- `registerKeys`: one `loadKeysAndStore` for the keys whose lists were empty.  Returns the
channels, one per key. -/
def SingleFlightLoader.registerKeys (l : SingleFlightLoader K V) (keys : List K) :
    SingleFlightLoader K V × List Nat :=
  let (l, targetKeys, channels) := keys.foldl registerKeysStep (l, [], [])
  ((if targetKeys.length ≠ 0 then { l with tasks := l.tasks ++ [.multi targetKeys] } else l),
    channels)

/-- `sendEntry`: the list is emptied only when the fan-out completes. -/
def SingleFlightLoader.sendEntry (cloner : V → Exit V) (l : SingleFlightLoader K V) (key : K)
    (cacheEntry : Option (CacheEntry K V)) : SingleFlightLoader K V × Exit Unit :=
  match fanOut (entryMessage cloner cacheEntry) l (l.waitlists key) 0 with
  | (l, .normal ()) => (l.truncate key, .normal ())
  | stopped => stopped

def SingleFlightLoader.throwError (l : SingleFlightLoader K V) (key : K) (err : GoError) :
    SingleFlightLoader K V :=
  (fanOut (fun _ => .normal (.error err)) l (l.waitlists key) 0).1.truncate key

/-- `sendEntries`: `cacheEntries[i]` for the `i`-th key, a runtime panic past its end. -/
def SingleFlightLoader.sendEntries (cloner : V → Exit V) : SingleFlightLoader K V → List K →
    List (Option (CacheEntry K V)) → SingleFlightLoader K V × Exit Unit
  | l, [], _ => (l, .normal ())
  | l, _ :: _, [] => (l, .panic .indexOutOfRange)
  | l, key :: keys, cacheEntry :: cacheEntries =>
      match sendEntry cloner l key cacheEntry with
      | (l, .normal ()) => sendEntries cloner l keys cacheEntries
      | stopped => stopped

def SingleFlightLoader.throwErrors (l : SingleFlightLoader K V) (keys : List K) (err : GoError) :
    SingleFlightLoader K V :=
  keys.foldl (fun l key => l.throwError key err) l

end GoKeys

/-- A background load ended: its goroutine is gone.  Loads are told apart as values. -/
def SingleFlightLoader.finish [DecidableEq K] (l : SingleFlightLoader K V) (t : Task K) : SingleFlightLoader K V :=
  { l with tasks := l.tasks.erase t }

section Loads

variable [BEq K] [DecidableEq K]

/-- `loadKeyAndStore` for the load `Task.single key`: `get` is how the source's `Get` ended
and `set` how the storage's `Set` ends on an entry, from the storage state.  Returns the
loader, the storage, and how the goroutine ended; a panic that reaches it crashes the
program. -/
def SingleFlightLoader.loadKeyAndStore {σ : Type}
    (get : Exit (Except GoError (Option (CacheEntry K V))))
    (set : σ → CacheEntry K V → Exit (Except GoError Unit) × σ) (cloner : V → Exit V)
    (l : SingleFlightLoader K V) (storage : σ) (key : K) :
    SingleFlightLoader K V × σ × Exit Unit :=
  let l := l.finish (.single key)
  match DoubleDeferSandwich.invoke get with
  | .goexit => (l.throwError key .errGoexit, storage, .goexit)
  | .returned (.error err) => (l.throwError key err, storage, .normal ())
  | .returned (.ok none) =>
      let (l, ended) := sendEntry cloner l key none
      (l, storage, ended)
  | .returned (.ok (some cacheEntry)) =>
      match set storage cacheEntry with
      | (.normal (.error err), storage) => (l.throwError key err, storage, .normal ())
      | (.normal (.ok ()), storage) =>
          let (l, ended) := sendEntry cloner l key (some cacheEntry)
          (l, storage, ended)
      | (.panic p, storage) => (l, storage, .panic p)
      | (.goexit, storage) => (l, storage, .goexit)

/-- `loadKeysAndStore` for the load `Task.multi keys`, as `loadKeyAndStore` with the
source's `GetMulti` and the storage's `SetMulti`. -/
def SingleFlightLoader.loadKeysAndStore {σ : Type}
    (getMulti : Exit (Except GoError (List (Option (CacheEntry K V)))))
    (setMulti : σ → List (Option (CacheEntry K V)) → Exit (Except GoError Unit) × σ)
    (cloner : V → Exit V) (l : SingleFlightLoader K V) (storage : σ) (keys : List K) :
    SingleFlightLoader K V × σ × Exit Unit :=
  let l := l.finish (.multi keys)
  match DoubleDeferSandwich.invoke getMulti with
  | .goexit => (l.throwErrors keys .errGoexit, storage, .goexit)
  | .returned (.error err) => (l.throwErrors keys err, storage, .normal ())
  | .returned (.ok entries) =>
      match setMulti storage entries with
      | (.normal (.error err), storage) => (l.throwErrors keys err, storage, .normal ())
      | (.normal (.ok ()), storage) =>
          let (l, ended) := sendEntries cloner l keys entries
          (l, storage, ended)
      | (.panic p, storage) => (l, storage, .panic p)
      | (.goexit, storage) => (l, storage, .goexit)

end Loads

variable [DecidableEq K]

section Frame

variable (l : SingleFlightLoader K V)

@[simp] theorem SingleFlightLoader.enqueue_fst_waitlists (key : K) : (l.enqueue key).1.waitlists =
    Function.update l.waitlists key (l.waitlists key ++ [l.nextChan]) := mapAssign_eq_update _ _ _

@[simp] theorem SingleFlightLoader.enqueue_fst_chans (key : K) :
    (l.enqueue key).1.chans = Function.update l.chans l.nextChan .empty := rfl

@[simp] theorem SingleFlightLoader.enqueue_fst_tasks (key : K) :
    (l.enqueue key).1.tasks = l.tasks := rfl

@[simp] theorem SingleFlightLoader.enqueue_snd (key : K) : (l.enqueue key).2 = l.nextChan := rfl

@[simp] theorem SingleFlightLoader.truncate_waitlists (key : K) :
    (l.truncate key).waitlists = Function.update l.waitlists key [] := mapAssign_eq_update _ _ _

@[simp] theorem SingleFlightLoader.truncate_nextChan (key : K) :
    (l.truncate key).nextChan = l.nextChan := rfl

@[simp] theorem SingleFlightLoader.truncate_tasks (key : K) :
    (l.truncate key).tasks = l.tasks := rfl

@[simp] theorem SingleFlightLoader.finish_waitlists (t : Task K) :
    (l.finish t).waitlists = l.waitlists := rfl

@[simp] theorem SingleFlightLoader.finish_tasks (t : Task K) :
    (l.finish t).tasks = l.tasks.erase t := rfl

end Frame

theorem SingleFlightLoader.sendEntry_of_normal (cloner : V → Exit V) (l : SingleFlightLoader K V)
    (key : K) (cacheEntry : Option (CacheEntry K V))
    (normal : (fanOut (entryMessage cloner cacheEntry) l (l.waitlists key) 0).2 = .normal ()) :
    l.sendEntry cloner key cacheEntry =
      ((fanOut (entryMessage cloner cacheEntry) l (l.waitlists key) 0).1.truncate key,
        .normal ()) := by
  unfold SingleFlightLoader.sendEntry
  generalize fanOut (entryMessage cloner cacheEntry) l (l.waitlists key) 0 = result at normal ⊢
  obtain ⟨l', ended⟩ := result
  subst normal
  rfl

theorem SingleFlightLoader.sendEntries_cons_of_normal (cloner : V → Exit V)
    (l : SingleFlightLoader K V) (key : K) (keys : List K) (cacheEntry : Option (CacheEntry K V))
    (cacheEntries : List (Option (CacheEntry K V)))
    (normal : (l.sendEntry cloner key cacheEntry).2 = .normal ()) :
    l.sendEntries cloner (key :: keys) (cacheEntry :: cacheEntries) =
      (l.sendEntry cloner key cacheEntry).1.sendEntries cloner keys cacheEntries := by
  simp only [SingleFlightLoader.sendEntries]
  generalize l.sendEntry cloner key cacheEntry = result at normal ⊢
  obtain ⟨l', ended⟩ := result
  subst normal
  rfl

/-- A fan-out whose messages all compute, then the list emptied: how a load ends on a key
when every clone returns. -/
def SingleFlightLoader.deliver (l : SingleFlightLoader K V) (key : K) (msg : Nat → Message K V) :
    SingleFlightLoader K V :=
  (l.fanOut (fun j => .normal (msg j)) (l.waitlists key) 0).1.truncate key

section Deliver

variable (l : SingleFlightLoader K V) (key : K) (msg : Nat → Message K V)

@[simp] theorem SingleFlightLoader.deliver_waitlists :
    (l.deliver key msg).waitlists = Function.update l.waitlists key [] := by
  simp [SingleFlightLoader.deliver, (l.fanOut_frame _ _ 0).1]

@[simp] theorem SingleFlightLoader.deliver_tasks : (l.deliver key msg).tasks = l.tasks := by
  simp [SingleFlightLoader.deliver, (l.fanOut_frame _ _ 0).2.1]

@[simp] theorem SingleFlightLoader.deliver_nextChan :
    (l.deliver key msg).nextChan = l.nextChan := by
  simp [SingleFlightLoader.deliver, (l.fanOut_frame _ _ 0).2.2.1]

theorem SingleFlightLoader.deliver_chans_of_not_mem {c : Nat} (h : c ∉ l.waitlists key) :
    (l.deliver key msg).chans c = l.chans c :=
  (l.fanOut_frame _ _ 0).2.2.2 c h

theorem SingleFlightLoader.mem_deliver_waitlists {k : K} {c : Nat} :
    c ∈ (l.deliver key msg).waitlists k ↔ k ≠ key ∧ c ∈ l.waitlists k := by
  by_cases hit : k = key
  · subst hit; simp
  · simp [Function.update_noteq hit, hit]

theorem SingleFlightLoader.deliver_of_empty (distinct : (l.waitlists key).Nodup)
    (empty : ∀ c ∈ l.waitlists key, l.chans c = .empty) :
    (l.deliver key msg).fault = l.fault ∧
      ∀ j c, (l.waitlists key)[j]? = some c →
        (l.deliver key msg).chans c = ⟨some (msg j), true⟩ := by
  obtain ⟨-, fault, delivered⟩ :=
    l.fanOut_normal _ msg (fun _ => rfl) (l.waitlists key) 0 distinct empty
  refine ⟨fault, fun j c listed => ?_⟩
  obtain ⟨h, rfl⟩ := List.getElem?_eq_some_iff.mp listed
  simpa [SingleFlightLoader.deliver] using delivered j h

theorem SingleFlightLoader.throwError_eq_deliver (err : GoError) :
    l.throwError key err = l.deliver key fun _ => .error err := rfl

theorem SingleFlightLoader.sendEntry_eq_deliver (cloner : V → V)
    (cacheEntry : Option (CacheEntry K V)) (distinct : (l.waitlists key).Nodup)
    (empty : ∀ c ∈ l.waitlists key, l.chans c = .empty) :
    l.sendEntry (normalCloner cloner) key cacheEntry =
      (l.deliver key fun j => .ok (clonedEntry cloner cacheEntry j), .normal ()) := by
  have messages := SingleFlightLoader.entryMessage_normalCloner cloner cacheEntry
  rw [l.sendEntry_of_normal _ key cacheEntry
    (l.fanOut_normal _ _ messages _ 0 distinct empty).1, funext messages]
  rfl

end Deliver

section Tasks

variable (cloner : V → Exit V)

@[simp] theorem SingleFlightLoader.sendEntry_tasks (l : SingleFlightLoader K V) (key : K)
    (cacheEntry : Option (CacheEntry K V)) :
    (l.sendEntry cloner key cacheEntry).1.tasks = l.tasks := by
  have kept := (l.fanOut_frame (entryMessage cloner cacheEntry) (l.waitlists key) 0).2.1
  unfold SingleFlightLoader.sendEntry
  generalize fanOut (entryMessage cloner cacheEntry) l (l.waitlists key) 0 = result at kept ⊢
  rcases result with ⟨l', ⟨⟨⟩⟩ | _ | _⟩ <;> simpa using kept

@[simp] theorem SingleFlightLoader.sendEntries_tasks :
    ∀ (l : SingleFlightLoader K V) (keys : List K) (cacheEntries : List (Option (CacheEntry K V))),
      (l.sendEntries cloner keys cacheEntries).1.tasks = l.tasks
  | _, [], _ => rfl
  | _, _ :: _, [] => rfl
  | l, key :: keys, cacheEntry :: cacheEntries => by
      have kept := l.sendEntry_tasks cloner key cacheEntry
      simp only [SingleFlightLoader.sendEntries]
      generalize l.sendEntry cloner key cacheEntry = result at kept ⊢
      rcases result with ⟨l', ⟨⟨⟩⟩ | _ | _⟩
      · exact (sendEntries_tasks l' keys cacheEntries).trans kept
      · exact kept
      · exact kept

@[simp] theorem SingleFlightLoader.throwErrors_tasks (l : SingleFlightLoader K V) (keys : List K)
    (err : GoError) : (l.throwErrors keys err).tasks = l.tasks := by
  induction keys generalizing l with
  | nil => rfl
  | cons key keys inductionHypothesis =>
      exact (inductionHypothesis _).trans (by simp [throwError_eq_deliver])

variable {σ : Type} (storage : σ) (l : SingleFlightLoader K V)

theorem SingleFlightLoader.loadKeyAndStore_tasks
    (get : Exit (Except GoError (Option (CacheEntry K V))))
    (set : σ → CacheEntry K V → Exit (Except GoError Unit) × σ) (key : K) :
    (l.loadKeyAndStore get set cloner storage key).1.tasks = l.tasks.erase (.single key) := by
  unfold SingleFlightLoader.loadKeyAndStore
  split <;> (try split) <;> simp [throwError_eq_deliver]

theorem SingleFlightLoader.loadKeysAndStore_tasks
    (getMulti : Exit (Except GoError (List (Option (CacheEntry K V)))))
    (setMulti : σ → List (Option (CacheEntry K V)) → Exit (Except GoError Unit) × σ)
    (keys : List K) :
    (l.loadKeysAndStore getMulti setMulti cloner storage keys).1.tasks =
      l.tasks.erase (.multi keys) := by
  unfold SingleFlightLoader.loadKeysAndStore
  split <;> (try split) <;> simp

end Tasks

/-- What `LoadAndStore` makes of the message it received: `runtime.Goexit` on `errGoexit`,
otherwise the error or the entry. -/
def receiveResult : Message K V → Exit (Except GoError (Option (Entry K V)))
  | .error .errGoexit => .goexit
  | .error err => .normal (.error err)
  | .ok entry => .normal (.ok entry)

end LoadingCache.SingleFlight
