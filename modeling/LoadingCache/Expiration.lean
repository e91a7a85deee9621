import Mathlib.Data.Rat.Init
import LoadingCache.Basic

/-!
# Expiration policies

`GeneralExpirationPolicy`, `NeverExpirationPolicy` and `EarlyExpirationPolicy` of package
`expiration`.  Instants and `time.Duration`s are
integers (nanoseconds), so `t.Add(d)` is `t + d` and `t.After(u)` is `u < t`.  The `float64`s
are rationals: `Percentage`, and the value `randFloat64` draws, which each call receives as an
argument.

The early policy checks `now.After(expiresAt)` on a draw above `Percentage`, and
`now.Add(Duration).After(expiresAt)` otherwise.  On a draw above `Percentage`, or with
`Duration = 0`, that is `now.After(expiresAt)`, not the general policy's
`!expiresAt.After(now)`: at `now = expiresAt` the general policy expires a value that the
early one keeps.
-/

namespace LoadingCache.Expiration

/-- `GeneralExpirationPolicy.IsExpired`: `now >= expiresAt`. -/
def GeneralExpirationPolicy.isExpired (now expiresAt : Instant) : Bool :=
  !decide (expiresAt > now)

def NeverExpirationPolicy.isExpired (_now _expiresAt : Instant) : Bool :=
  false

/-- `EarlyExpirationPolicy`; its `Random` is left out, the draw is an argument of
`isExpired`. -/
structure EarlyExpirationPolicy where
  duration : Int
  percentage : ℚ
  deriving DecidableEq, Repr

/-- `EarlyExpirationPolicy.IsExpired`, with `draw` the value of `p.randFloat64()`. -/
def EarlyExpirationPolicy.isExpired (p : EarlyExpirationPolicy) (draw : ℚ)
    (now expiresAt : Instant) : Bool :=
  if draw > p.percentage then decide (now > expiresAt)
  else decide (now + p.duration > expiresAt)

theorem GeneralExpirationPolicy.isExpired_eq (now expiresAt : Instant) :
    isExpired now expiresAt = decide (expiresAt ≤ now) := by
  simp only [isExpired, gt_iff_lt, ← decide_not, Int.not_lt]

namespace EarlyExpirationPolicy

variable (p : EarlyExpirationPolicy) {draw : ℚ} (now expiresAt : Instant)

theorem isExpired_of_above (above : p.percentage < draw) :
    p.isExpired draw now expiresAt = decide (expiresAt < now) := by
  simp [isExpired, above]

theorem isExpired_of_within (within : ¬p.percentage < draw) :
    p.isExpired draw now expiresAt = decide (expiresAt < now + p.duration) := by
  simp [isExpired, within]

end EarlyExpirationPolicy

/-- For any `Duration >= 0`, any `Percentage` and any draw: the general policy expires a
value that the early policy keeps exactly at `now = expiresAt`, on a draw above `Percentage`
or with `Duration = 0`; and in those two cases the policies agree exactly when
`now ≠ expiresAt`. -/
theorem earlyExpiration_keeps_value_at_expiresAt (p : EarlyExpirationPolicy)
    (nonneg : 0 ≤ p.duration) (draw : ℚ) (now expiresAt : Instant) :
    (GeneralExpirationPolicy.isExpired now expiresAt = true ∧
        p.isExpired draw now expiresAt = false ↔
      now = expiresAt ∧ (p.percentage < draw ∨ p.duration = 0)) ∧
    (p.percentage < draw ∨ p.duration = 0 →
      (p.isExpired draw now expiresAt = GeneralExpirationPolicy.isExpired now expiresAt ↔
        now ≠ expiresAt)) := by
  rw [GeneralExpirationPolicy.isExpired_eq]
  by_cases above : p.percentage < draw
  · rw [p.isExpired_of_above now expiresAt above]
    simp only [above, true_or, forall_const, and_true, decide_eq_true_eq,
      decide_eq_false_iff_not, decide_eq_decide]
    unfold Instant at *
    omega
  · rw [p.isExpired_of_within now expiresAt above]
    simp only [above, false_or, decide_eq_true_eq, decide_eq_false_iff_not, decide_eq_decide]
    unfold Instant at *
    omega

theorem earlyExpiration_keeps_value_at_expiresAt_zero_duration :
    let p : EarlyExpirationPolicy := ⟨0, 1⟩
    0 ≤ p.duration ∧ GeneralExpirationPolicy.isExpired 0 0 = true ∧
      p.isExpired 0 0 0 = false :=
  ⟨Int.le_refl 0,
    (earlyExpiration_keeps_value_at_expiresAt ⟨0, 1⟩ (Int.le_refl 0) 0 0 0).1.mpr ⟨rfl, .inr rfl⟩⟩

end LoadingCache.Expiration
