import LoadingCache.IterUtil

/-!
# Composite indexes

`OrIndex` and `AndIndex` ask both of their indexes and combine the two lists of primary keys:
`Uniq (Concat …)` for the union, `Intersection` for the intersection.  Each value is counted
however often it comes, so `Intersection` of two sequences yields a value that one of them
holds twice and the other not at all.
-/

namespace LoadingCache.Composite

open IterUtil

variable {SK1 SK2 PK : Type}

/-- `Keys`: one secondary key for each of the two indexes. -/
structure Keys (SK1 SK2 : Type) where
  left : SK1
  right : SK2
  deriving DecidableEq

structure OrIndex (SK1 SK2 PK : Type) where
  left : Index SK1 PK
  right : Index SK2 PK

structure AndIndex (SK1 SK2 PK : Type) where
  left : Index SK1 PK
  right : Index SK2 PK

/-- The loop of `GetMulti` that fills `result`, one combined list per key. -/
def fillResult [DecidableEq SK1] [DecidableEq SK2] (combine : Keys SK1 SK2 → List PK)
    (keys : List (Keys SK1 SK2)) : Keys SK1 SK2 → Option (List PK) :=
  keys.foldl (fun result key => Function.update result key (some (combine key))) fun _ => none

variable [DecidableEq PK]

def OrIndex.get (i : OrIndex SK1 SK2 PK) (key : Keys SK1 SK2) : Except GoError (List PK) := do
  let leftPks ← i.left.get key.left
  let rightPks ← i.right.get key.right
  pure (uniq (concat [rightPks, leftPks]))

def OrIndex.getMulti [DecidableEq SK1] [DecidableEq SK2] (i : OrIndex SK1 SK2 PK)
    (keys : List (Keys SK1 SK2)) : Except GoError (Keys SK1 SK2 → Option (List PK)) := do
  let leftPks ← i.left.getMulti (keys.map (·.left))
  let rightPks ← i.right.getMulti (keys.map (·.right))
  pure (fillResult (fun key =>
    uniq (concat [(leftPks key.left).getD [], (rightPks key.right).getD []])) keys)

def AndIndex.get (i : AndIndex SK1 SK2 PK) (key : Keys SK1 SK2) : Except GoError (List PK) := do
  let leftPks ← i.left.get key.left
  let rightPks ← i.right.get key.right
  pure (intersection [rightPks, leftPks])

def AndIndex.getMulti [DecidableEq SK1] [DecidableEq SK2] (i : AndIndex SK1 SK2 PK)
    (keys : List (Keys SK1 SK2)) : Except GoError (Keys SK1 SK2 → Option (List PK)) := do
  let leftPks ← i.left.getMulti (keys.map (·.left))
  let rightPks ← i.right.getMulti (keys.map (·.right))
  pure (fillResult (fun key =>
    intersection [(leftPks key.left).getD [], (rightPks key.right).getD []]) keys)

/-- The left index answers `[1, 1]` and the right one `[]`: `AndIndex` returns `[1]` from
`Get` and from `GetMulti`, though the right list does not hold `1`. -/
theorem andIndex_duplicate_left_key :
    let i : AndIndex Nat Nat Nat :=
      ⟨⟨fun _ => .ok [1, 1], fun _ => .ok fun _ => some [1, 1]⟩,
        ⟨fun _ => .ok [], fun _ => .ok fun _ => some []⟩⟩
    i.get ⟨0, 0⟩ = .ok [1] ∧ (i.getMulti [⟨0, 0⟩]).map (· ⟨0, 0⟩) = .ok (some [1]) :=
  ⟨rfl, rfl⟩

end LoadingCache.Composite
