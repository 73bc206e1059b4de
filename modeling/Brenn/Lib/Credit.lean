import Mathlib.Order.Iterate
import Mathlib.Tactic.Ring
import Mathlib.Tactic.Linarith

/-!
A balance under a cap that is credited at whole intervals.

Several credits at once are one larger credit under the same cap. The intervals counted from
two anchors differ by what lies between the anchors, up to one.
-/

namespace Brenn.Lib

/-- One credit to a balance under a cap. -/
def credit (cap amount balance : Int) : Int := min cap (balance + amount)

/-- Credits one by one are one credit of their sum. -/
theorem credit_iterate {cap amount balance : Int} (within : balance ≤ cap) (gives : 0 ≤ amount) (times : Nat) :
    (credit cap amount)^[times] balance = min cap (balance + times * amount) := by
  induction times generalizing balance with
  | zero => simp [within]
  | succ times ih =>
    have more : balance + ↑(times + 1) * amount = balance + amount + times * amount := by
      push_cast
      ring
    have later : 0 ≤ times * amount := Int.mul_nonneg (Int.natCast_nonneg times) gives
    rw [Function.iterate_succ_apply, credit, ih (min_le_left _ _), more]
    omega

/-- The whole intervals from an anchor to an instant. -/
def ticks (interval anchor now : Nat) : Nat := (now - anchor) / interval

section Ticks

variable {interval anchor now later : Nat}

theorem ticks_self (interval anchor : Nat) : ticks interval anchor anchor = 0 := by
  simp [ticks]

theorem ticks_mono (ordered : now ≤ later) : ticks interval anchor now ≤ ticks interval anchor later :=
  Nat.div_le_div_right (Nat.sub_le_sub_right ordered anchor)

/-- Between two instants lie the intervals counted from the first one, or one more. -/
theorem ticks_between (positive : 0 < interval) (started : anchor ≤ now) (ordered : now ≤ later) :
    ticks interval anchor now + ticks interval now later ≤ ticks interval anchor later ∧
      ticks interval anchor later ≤ ticks interval anchor now + (ticks interval now later + 1) := by
  unfold ticks
  have whole : later - anchor = (now - anchor) + (later - now) := by omega
  rw [whole, Nat.add_div positive]
  split <;> omega

end Ticks

end Brenn.Lib
