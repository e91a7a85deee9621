import LoadingCache.Index.OnMemory

/-!
# The interval updater

`intervalupdater.IntervalIndexUpdater.poll`, the goroutine `LaunchBackgroundUpdater` starts:
one `Refresh` of the index, then a loop whose `select` returns once the context is done and
runs a `Refresh` on each tick of the ticker; a `Refresh` that fails hands its error to
`onBackgroundError`.  `select` picks among the ready cases at random, so what comes next is a
list of events, and each `Refresh` is the `OnMemoryIndex` one on how its `GetAll` ends.  A
`GetAll` that calls `runtime.Goexit` makes `Refresh` call it too, once `OnGoexit` has set the
index's flag, and the goroutine of `poll` ends.

`poll` runs `Refresh` on the first `GetAll` and on one per tick until the context is done, up to
and including a `GetAll` that calls `runtime.Goexit` (`pollRuns`).  The index is then those
`Refresh` calls in order, `onBackgroundError` receives exactly their errors in order, a
`GetAll`'s panic as the recovered error, and `poll` never panics.  A `runtime.Goexit` is never
reported, and no `Refresh` follows it.
-/

namespace LoadingCache.OnMemory

variable {SK PK : Type}

/-- How a `GetAll` call ends. -/
abbrev GetAllExit (SK PK : Type) := Exit (Except GoError (Option (Snapshot SK PK)))

/-- What the `select` of `poll` picks: the context done, or a tick, with how the `GetAll` of
that tick's `Refresh` ends. -/
inductive PollEvent (SK PK : Type) where
  | done
  | tick (getAll : GetAllExit SK PK)

/-- How `poll` ends: it returns once the context is done, or its goroutine ends on
`runtime.Goexit` or on a panic out of `Refresh`; `running` while the events so far have not
ended it. -/
inductive PollEnd where
  | returned
  | goexit
  | panicked (value : PanicValue)
  | running
  deriving DecidableEq, Repr

/-- The index after `poll`, the errors `onBackgroundError` received in order, and how `poll`
ended. -/
structure Polled (SK PK : Type) where
  index : OnMemoryIndex SK PK
  reported : List GoError
  ended : PollEnd

/-- One `Refresh` of `poll` with its error check, then `next` on the index and the errors
reported so far. -/
def pollRefresh (next : OnMemoryIndex SK PK → List GoError → Polled SK PK)
    (i : OnMemoryIndex SK PK) (reported : List GoError) (getAll : GetAllExit SK PK) :
    Polled SK PK :=
  match i.refresh getAll with
  | (i, .normal (.ok ())) => next i reported
  | (i, .normal (.error err)) => next i (reported ++ [err])
  | (i, .goexit) => ⟨i, reported, .goexit⟩
  | (i, .panic value) => ⟨i, reported, .panicked value⟩

/-- The `for { select { … } }` loop of `poll`. -/
def pollLoop : OnMemoryIndex SK PK → List GoError → List (PollEvent SK PK) → Polled SK PK
  | i, reported, [] => ⟨i, reported, .running⟩
  | i, reported, .done :: _ => ⟨i, reported, .returned⟩
  | i, reported, .tick getAll :: events =>
      pollRefresh (fun i reported => pollLoop i reported events) i reported getAll

/-- `poll`, with `first` how the first `GetAll` ends. -/
def poll (first : GetAllExit SK PK) (events : List (PollEvent SK PK)) (i : OnMemoryIndex SK PK) :
    Polled SK PK :=
  pollRefresh (fun i reported => pollLoop i reported events) i [] first

/-- The `GetAll` of each tick before the context is done. -/
def PollEvent.ticks : List (PollEvent SK PK) → List (GetAllExit SK PK)
  | [] => []
  | .done :: _ => []
  | .tick getAll :: events => getAll :: ticks events

def PollEvent.isDone : PollEvent SK PK → Bool
  | .done => true
  | .tick _ => false

def isGoexit : GetAllExit SK PK → Bool
  | .goexit => true
  | _ => false

/-- The `GetAll` calls of a list that run: up to and including one that calls
`runtime.Goexit`. -/
def upToGoexit : List (GetAllExit SK PK) → List (GetAllExit SK PK)
  | [] => []
  | .goexit :: _ => [.goexit]
  | getAll :: getAlls => getAll :: upToGoexit getAlls

/-- The error `Refresh` returns on how its `GetAll` ended, if any. -/
def refreshError : GetAllExit SK PK → Option GoError
  | .normal (.error err) => some err
  | .panic value => some (.recovered value)
  | _ => none

/-- The `GetAll` calls `poll` runs: the first, then one per tick until the context is done, up
to and including one that calls `runtime.Goexit`. -/
def pollRuns (first : GetAllExit SK PK) (events : List (PollEvent SK PK)) :
    List (GetAllExit SK PK) :=
  upToGoexit (first :: PollEvent.ticks events)

/-- How the loop ends on the `GetAll` calls it runs: on `runtime.Goexit` if one calls it,
otherwise by returning if the context is done, otherwise still running. -/
def pollEnd (getAlls : List (GetAllExit SK PK)) (events : List (PollEvent SK PK)) : PollEnd :=
  if getAlls.any isGoexit then .goexit else if events.any PollEvent.isDone then .returned
  else .running

theorem refresh_snd_of_not_goexit {getAll : GetAllExit SK PK} (notGoexit : isGoexit getAll = false)
    (i : OnMemoryIndex SK PK) :
    (i.refresh getAll).2 = .normal (match refreshError getAll with
      | some err => .error err
      | none => .ok ()) := by
  rcases getAll with (err | m) | value | _ <;>
    simp_all [OnMemoryIndex.refresh, DoubleDeferSandwich.invoke, refreshError, isGoexit]

theorem pollRefresh_of_not_goexit (next : OnMemoryIndex SK PK → List GoError → Polled SK PK)
    {getAll : GetAllExit SK PK} (notGoexit : isGoexit getAll = false) (i : OnMemoryIndex SK PK)
    (reported : List GoError) :
    pollRefresh next i reported getAll =
      next (i.refresh getAll).1 (reported ++ (refreshError getAll).toList) := by
  unfold pollRefresh
  have ended := refresh_snd_of_not_goexit notGoexit i
  revert ended
  rcases i.refresh getAll with ⟨i', _ | _ | _⟩ <;> intro ended <;>
    cases made : refreshError getAll <;> simp_all

theorem pollLoop_eq (events : List (PollEvent SK PK)) :
    ∀ (i : OnMemoryIndex SK PK) (reported : List GoError),
      pollLoop i reported events =
        ⟨i.refreshAll (upToGoexit (PollEvent.ticks events)),
          reported ++ (upToGoexit (PollEvent.ticks events)).filterMap refreshError,
          pollEnd (upToGoexit (PollEvent.ticks events)) events⟩ := by
  induction events with
  | nil =>
      intro i reported
      simp [pollLoop, PollEvent.ticks, upToGoexit, OnMemoryIndex.refreshAll, pollEnd]
  | cons event events inductionHypothesis =>
      intro i reported
      cases event with
      | done =>
          simp [pollLoop, PollEvent.ticks, upToGoexit, OnMemoryIndex.refreshAll, pollEnd,
            PollEvent.isDone]
      | tick getAll =>
          cases goexit : isGoexit getAll
          · have runs : upToGoexit (PollEvent.ticks (.tick getAll :: events)) =
                getAll :: upToGoexit (PollEvent.ticks events) := by
              rcases getAll with _ | _ | _ <;> first | rfl | simp [isGoexit] at goexit
            rw [pollLoop, pollRefresh_of_not_goexit _ goexit, inductionHypothesis, runs]
            simp only [OnMemoryIndex.refreshAll, List.foldl_cons, pollEnd, List.any_cons, goexit,
              Bool.false_or, PollEvent.isDone, List.append_assoc, Polled.mk.injEq, true_and,
              and_true]
            cases made : refreshError getAll <;> simp [List.filterMap_cons, made]
          · obtain rfl : getAll = .goexit := by
              rcases getAll with _ | _ | _ <;> first | rfl | simp [isGoexit] at goexit
            simp [pollLoop, pollRefresh, PollEvent.ticks, upToGoexit, OnMemoryIndex.refreshAll,
              OnMemoryIndex.refresh, DoubleDeferSandwich.invoke, pollEnd, isGoexit, refreshError]

/-- For any outcomes of `GetAll` and any order of ticks and the context's end, `poll` is the
`Refresh` calls of the `GetAll`s it runs (`pollRuns`), in order: it leaves the index they
leave, `onBackgroundError` receives exactly their errors, in order, and `poll` ends on
`runtime.Goexit` exactly when one of them calls it, and never on a panic. -/
theorem poll_runs_refreshes (first : GetAllExit SK PK) (events : List (PollEvent SK PK))
    (i : OnMemoryIndex SK PK) :
    poll first events i =
      ⟨i.refreshAll (pollRuns first events), (pollRuns first events).filterMap refreshError,
        pollEnd (pollRuns first events) events⟩ := by
  have : poll first events i = pollLoop i [] (.tick first :: events) := rfl
  rw [this, pollLoop_eq]
  rfl

end LoadingCache.OnMemory
