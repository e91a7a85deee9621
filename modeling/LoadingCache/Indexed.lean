import LoadingCache.Facade
import LoadingCache.IterUtil

/-!
# The indexed loading cache

`IndexedLoadingCache` finds entries by a secondary key: it asks its index for the primary
keys and reads them through the loading cache.  `FindBySecondaryKey` returns what
`GetOrLoadMulti` returns, `nil` entries included.  `FindBySecondaryKeys` asks the index for
every secondary key, reads each primary key once, skips the `nil` entries, and hands every
entry to each secondary key that listed its key (a clone after the first); an empty map from
the index is answered at once, with nothing read.

Go's `range` over a map visits its keys in an order the runtime picks; `order` is that
order, one visit per key the map holds.
-/

namespace LoadingCache.Indexed

open Facade

variable {σ PK SK V : Type}

structure IndexedLoadingCache (σ PK SK V : Type) where
  cache : LoadingCache σ PK V
  index : Index SK PK
  cloner : V → V

def IndexedLoadingCache.findBySecondaryKey (c : IndexedLoadingCache σ PK SK V) (s : σ)
    (now : Instant) (sk : SK) : Outcome (List (Option (Entry PK V))) × σ :=
  match c.index.get sk with
  | .error err => (some (.normal (.error err)), s)
  | .ok pks => if pks.length = 0 then (some (.normal (.ok [])), s)
      else c.cache.getOrLoadMulti s now pks

variable [DecidableEq PK] [DecidableEq SK]

/-- The loop over `m` of `FindBySecondaryKeys`: `keys` in the order first met, and `rm`, the
secondary keys that listed each of them. -/
def collectKeys (m : SK → Option (List PK)) (order : List SK) :
    List PK × (PK → Option (List SK)) :=
  order.foldl (fun acc sk => ((m sk).getD []).foldl (fun acc pk =>
    ((match acc.2 pk with
      | none => acc.1 ++ [pk]
      | some _ => acc.1),
      Function.update acc.2 pk (some ((acc.2 pk).getD [] ++ [sk])))) acc) ([], fun _ => none)

/-- `result[sk] = append(result[sk], …)` for the `i`-th and later secondary keys of an entry:
the entry itself to the first, a clone of it to the others. -/
def appendToEach (cloner : V → V) (entry : Entry PK V) :
    Nat → List SK → (SK → Option (List (Entry PK V))) → SK → Option (List (Entry PK V))
  | _, [], result => result
  | i, sk :: sks, result =>
      appendToEach cloner entry (i + 1) sks (Function.update result sk
        (some ((result sk).getD [] ++
          [if i = 0 then entry else { entry with value := cloner entry.value }])))

/-- The loop over `entries` of `FindBySecondaryKeys`, which skips the `nil` ones. -/
def groupEntries (cloner : V → V) (rm : PK → Option (List SK))
    (entries : List (Option (Entry PK V))) : SK → Option (List (Entry PK V)) :=
  entries.foldl (fun result entry => match entry with
    | none => result
    | some entry => appendToEach cloner entry 0 ((rm entry.key).getD []) result) fun _ => none

/-- `FindBySecondaryKeys`, with `order` the order in which `range` visits the map the index
answered. -/
def IndexedLoadingCache.findBySecondaryKeys (c : IndexedLoadingCache σ PK SK V)
    (order : List SK) (s : σ) (now : Instant) (sks : List SK) :
    Outcome (SK → Option (List (Entry PK V))) × σ :=
  match c.index.getMulti sks with
  | .error err => (some (.normal (.error err)), s)
  | .ok m =>
      if order.length = 0 then (some (.normal (.ok fun _ => none)), s)
      else
        let (keys, rm) := collectKeys m order
        let (outcome, s) := c.cache.getOrLoadMulti s now keys
        (outcome.map (groupEntries c.cloner rm), s)

/-! ## The two loops of `FindBySecondaryKeys` -/

/-- The body of the loop over `m` at one visited pair `(sk, pk)`. -/
def collectStep (acc : List PK × (PK → Option (List SK))) (visit : SK × PK) :
    List PK × (PK → Option (List SK)) :=
  ((match acc.2 visit.2 with
    | none => acc.1 ++ [visit.2]
    | some _ => acc.1),
    Function.update acc.2 visit.2 (some ((acc.2 visit.2).getD [] ++ [visit.1])))

/-- What the loop over `m` keeps after the pairs `seen`: `keys` is `Uniq` of their primary
keys, and `rm` holds, for each primary key seen, the secondary keys paired with it, each as
often as it was. -/
structure CollectInv (seen : List (SK × PK)) (acc : List PK × (PK → Option (List SK))) :
    Prop where
  keys : acc.1 = IterUtil.uniq (seen.map Prod.snd)
  listed : ∀ pk, (acc.2 pk).isSome ↔ pk ∈ seen.map Prod.snd
  counted : ∀ pk sk, ((acc.2 pk).getD []).count sk = seen.count (sk, pk)

theorem CollectInv.step {seen : List (SK × PK)} {acc : List PK × (PK → Option (List SK))}
    (inv : CollectInv seen acc) (visit : SK × PK) :
    CollectInv (seen ++ [visit]) (collectStep acc visit) where
  keys := by
    rw [List.map_append, List.map_singleton, IterUtil.uniq_append_singleton, ← inv.keys]
    simp only [collectStep]
    cases h : acc.2 visit.2 with
    | none => rw [if_neg fun member => by simpa [h] using (inv.listed visit.2).mpr member]
    | some _ => rw [if_pos ((inv.listed visit.2).mp (by simp [h]))]
  listed pk := by
    by_cases hit : pk = visit.2
    · subst hit; simp [collectStep]
    · simp [collectStep, Function.update_noteq hit, inv.listed, hit]
  counted pk sk := by
    obtain ⟨sk', pk'⟩ := visit
    by_cases hit : pk = pk'
    · subst hit
      by_cases same : sk = sk' <;>
        simp [collectStep, List.count_append, ← inv.counted, List.count_singleton, same]
    · simp [collectStep, Function.update_noteq hit, inv.counted, List.count_append, hit]

theorem CollectInv.run :
    ∀ (visited seen : List (SK × PK)) {acc : List PK × (PK → Option (List SK))},
      CollectInv seen acc → CollectInv (seen ++ visited) (visited.foldl collectStep acc)
  | [], seen, _, inv => by simpa using inv
  | visit :: visited, seen, _, inv => by
      simpa using CollectInv.run visited (seen ++ [visit]) (inv.step visit)

/-- `x` is `entry` as handed to a secondary key: its key, and its value or a clone of it. -/
def IsCopy (cloner : V → V) (entry x : Entry PK V) : Prop :=
  x.key = entry.key ∧ (x.value = entry.value ∨ x.value = cloner entry.value)

omit [DecidableEq PK] in
theorem appendToEach_apply (cloner : V → V) (entry : Entry PK V) (sk : SK) :
    ∀ (sks : List SK) (i : Nat) (result : SK → Option (List (Entry PK V))),
      (appendToEach cloner entry i sks result sk = none ↔ result sk = none ∧ sk ∉ sks) ∧
      ∃ copies, (appendToEach cloner entry i sks result sk).getD [] =
          (result sk).getD [] ++ copies ∧
        copies.length = sks.count sk ∧ ∀ x ∈ copies, IsCopy cloner entry x
  | [], _, result => ⟨by simp [appendToEach], [], by simp [appendToEach]⟩
  | sk' :: sks, i, result => by
      have copied : IsCopy cloner entry
          (if i = 0 then entry else { entry with value := cloner entry.value }) := by
        split <;> simp [IsCopy]
      obtain ⟨absent, copies, appended, counted, copiesOf⟩ := appendToEach_apply cloner entry sk
        sks (i + 1) (Function.update result sk' (some ((result sk').getD [] ++
          [if i = 0 then entry else { entry with value := cloner entry.value }])))
      rw [appendToEach]
      by_cases hit : sk = sk'
      · subst hit
        refine ⟨by simp [absent], (if i = 0 then entry else { entry with value := cloner entry.value })
          :: copies, ?_, by simp [counted], ?_⟩
        · simp [appended]
        · exact List.forall_mem_cons.mpr ⟨copied, copiesOf⟩
      · rw [Function.update_noteq hit] at absent appended
        exact ⟨by simp [absent, hit], copies, appended, by simp [counted, hit], copiesOf⟩

/-- What the loop over `entries` keeps for one secondary key `sk`, after the non-nil entries
`loaded`: `sk` has a list exactly when `rm` names it for the key of one of them; the list holds,
for each primary key, as many entries as `loaded` holds of that key times the number of times
`rm` names `sk` for it; and every entry of the list is a copy of one of `loaded`. -/
structure GroupInv (cloner : V → V) (rm : PK → Option (List SK)) (sk : SK)
    (loaded : List (Entry PK V)) (listed : Option (List (Entry PK V))) : Prop where
  absent : listed = none ↔ ∀ e ∈ loaded, sk ∉ (rm e.key).getD []
  counted : ∀ pk, (listed.getD []).countP (·.key = pk) =
    loaded.countP (·.key = pk) * ((rm pk).getD []).count sk
  copies : ∀ x ∈ listed.getD [], ∃ e ∈ loaded, IsCopy cloner e x

theorem GroupInv.step {cloner : V → V} {rm : PK → Option (List SK)} {sk : SK}
    {loaded : List (Entry PK V)} {result : SK → Option (List (Entry PK V))}
    (inv : GroupInv cloner rm sk loaded (result sk)) (entry : Entry PK V) :
    GroupInv cloner rm sk (loaded ++ [entry])
      (appendToEach cloner entry 0 ((rm entry.key).getD []) result sk) := by
  obtain ⟨absent, copies, appended, counted, copiesOf⟩ :=
    appendToEach_apply cloner entry sk ((rm entry.key).getD []) 0 result
  have keys : ∀ pk, copies.countP (·.key = pk) = if entry.key = pk then copies.length else 0 :=
    fun pk => by
      split
      · exact List.countP_eq_length.mpr fun x member => by simp [(copiesOf x member).1, *]
      · exact List.countP_eq_zero.mpr fun x member => by simp [(copiesOf x member).1, *]
  refine ⟨?_, fun pk => ?_, fun x member => ?_⟩
  · simp [absent, inv.absent, or_imp, forall_and, and_comm]
  · rw [appended, List.countP_append, inv.counted, keys, counted]
    split <;> simp_all [Nat.add_mul]
  · rw [appended, List.mem_append] at member
    rcases member with old | new
    · obtain ⟨e, member, copy⟩ := inv.copies x old
      exact ⟨e, List.mem_append_left _ member, copy⟩
    · exact ⟨entry, by simp, copiesOf x new⟩

/-- Secondary key `7` lists primary key `1`, which neither the storage nor the source holds:
`FindBySecondaryKey 7` returns `[nil]`, while `FindBySecondaryKeys [7]` returns a map without
`7`, an empty list. -/
theorem findBySecondaryKey_keeps_missing_entry :
    let options : MemStorage.Options Nat Nat := ⟨fun key => key, 1, id⟩
    let storage := MemStorage.InMemoryStorage.cacheStorage options
    let source : LoadingSource Nat Nat := ⟨fun _ => .ok none, fun keys => .ok (keys.map fun _ => none)⟩
    let c : IndexedLoadingCache _ Nat Nat Nat :=
      ⟨⟨(Pure.PureLoader.mk source storage).sourceLoader, storage⟩,
        ⟨fun _ => .ok [1], fun _ => .ok fun _ => some [1]⟩, id⟩
    let s := MemStorage.newInMemoryStorage options
    (c.findBySecondaryKey s 0 7).1 = some (.normal (.ok [none])) ∧
      (c.findBySecondaryKeys [7] s 0 [7]).1 = some (.normal (.ok fun _ => none)) :=
  ⟨rfl, rfl⟩

end LoadingCache.Indexed
