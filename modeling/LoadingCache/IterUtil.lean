import LoadingCache.Basic
import Mathlib.Data.List.Nodup

/-!
# Iterators over finite sequences

`iterutil` over finite sequences: a sequence is the list `slices.Collect` makes of it.
`Concat` appends, `Uniq` yields each value the first time it comes, and `Intersection` counts
every value over all its sequences, in order, and yields a value when its count reaches the
number of sequences.  Each value is counted however often it comes, so `Intersection` of two
sequences yields a value that one of them holds twice and the other not at all.
-/

namespace LoadingCache.IterUtil

variable {V : Type} [DecidableEq V]

def concat (iters : List (List V)) : List V := iters.flatten

/-- `Uniq`: the set `seen` is the values already yielded. -/
def uniq (seq : List V) : List V :=
  seq.foldl (fun out v => if v ∈ out then out else out ++ [v]) []

/-- One value of the loop of `Intersection` over `n` sequences: count it, and yield it when
its count reaches `n`. -/
def intersectionStep (n : Nat) (acc : (V → Nat) × List V) (v : V) : (V → Nat) × List V :=
  let seen := Function.update acc.1 v (acc.1 v + 1)
  (seen, if seen v = n then acc.2 ++ [v] else acc.2)

def intersection (iters : List (List V)) : List V :=
  ((concat iters).foldl (intersectionStep iters.length) (fun _ => 0, [])).2

theorem uniq_loop (seen seq out : List V) (mem : ∀ v, v ∈ out ↔ v ∈ seen) (nodup : out.Nodup) :
    (∀ v, v ∈ seq.foldl (fun out v => if v ∈ out then out else out ++ [v]) out ↔
        v ∈ seen ++ seq) ∧
      (seq.foldl (fun out v => if v ∈ out then out else out ++ [v]) out).Nodup := by
  induction seq generalizing seen out with
  | nil => simpa using ⟨mem, nodup⟩
  | cons head tail inductionHypothesis =>
      rw [List.foldl_cons, List.append_cons seen head tail]
      apply inductionHypothesis
      · intro v
        split <;> simp_all
      · split
        · exact nodup
        · exact nodup.append (List.nodup_singleton head) (by simpa)

theorem uniq_spec (seq : List V) : (∀ v, v ∈ uniq seq ↔ v ∈ seq) ∧ (uniq seq).Nodup := by
  simpa using uniq_loop [] seq [] (by simp) List.nodup_nil

theorem uniq_append_singleton (seq : List V) (v : V) :
    uniq (seq ++ [v]) = if v ∈ seq then uniq seq else uniq seq ++ [v] := by
  rw [uniq, List.foldl_append, ← uniq, List.foldl_cons, List.foldl_nil]
  simp only [(uniq_spec seq).1]

/-- What the loop of `Intersection` over `n` sequences keeps after the values `seen`: their
counts, and, once each, the values counted at least `n` times. -/
structure IntersectionInv (n : Nat) (seen : List V) (acc : (V → Nat) × List V) : Prop where
  counts : ∀ v, acc.1 v = seen.count v
  yielded : ∀ v, v ∈ acc.2 ↔ n ≤ seen.count v
  nodup : acc.2.Nodup

theorem IntersectionInv.step {n : Nat} {seen : List V}
    {acc : (V → Nat) × List V} (inv : IntersectionInv n seen acc) (v : V) :
    IntersectionInv n (seen ++ [v]) (intersectionStep n acc v) where
  counts w := by
    by_cases hit : w = v
    · subst hit; simp [intersectionStep, inv.counts]
    · simp [intersectionStep, Function.update_noteq hit, inv.counts, List.count_singleton,
        Ne.symm hit]
  yielded w := by
    have before := inv.yielded w
    by_cases hit : w = v
    · subst hit
      simp only [intersectionStep, Function.update_same, inv.counts, List.count_append,
        List.count_singleton_self]
      split
      · simp_all
      · simp_all
        omega
    · have other : ¬v = w := Ne.symm hit
      simp only [intersectionStep, List.count_append, List.count_singleton, other, if_false,
        Nat.add_zero]
      split <;> simp_all
  nodup := by
    simp only [intersectionStep, Function.update_same, inv.counts]
    split
    · refine inv.nodup.append (List.nodup_singleton v) (List.disjoint_singleton.mpr ?_)
      rw [inv.yielded]
      omega
    · exact inv.nodup

theorem IntersectionInv.run {n : Nat} (values : List V) :
    ∀ {seen : List V} {acc : (V → Nat) × List V}, IntersectionInv n seen acc →
      IntersectionInv n (seen ++ values) (values.foldl (intersectionStep n) acc) := by
  induction values with
  | nil => simp
  | cons head tail inductionHypothesis =>
      intro seen acc inv
      rw [List.foldl_cons, List.append_cons seen head tail]
      exact inductionHypothesis (inv.step head)

end LoadingCache.IterUtil
