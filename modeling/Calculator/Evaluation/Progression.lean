import Calculator.Evaluation.Machine
import Calculator.Number.Sum

/-! Progressions: counters that advance by equal steps while they are before a bound. -/

namespace Calculator

/-- Counters that advance by `step` and end before `bound`. -/
structure Progression where
  bound : Float
  step : Float

namespace Progression

open Binary

/-- The counter has not reached the bound. -/
def isBefore (progression : Progression) (counter : Float) : Bool :=
  if progression.step > 0 then counter < progression.bound else counter > progression.bound

/-- How many doubles lie between the counter and the bound. -/
def remaining (progression : Progression) (counter : Float) : Nat :=
  if progression.isBefore counter then (place progression.bound - place counter).natAbs else 0

/-- A counter that moves comes closer to the bound. -/
theorem remaining_lt (progression : Progression) (counter : Float)
    (before : progression.isBefore counter = true)
    (moved : ¬ (counter + progression.step == counter) = true) :
    progression.remaining (counter + progression.step) < progression.remaining counter := by
  -- Before the bound there is some way left, and each step that moves goes in its direction.
  have moved := Bool.eq_false_iff.2 moved
  unfold remaining
  rw [if_pos before]
  unfold isBefore at before ⊢
  by_cases up : progression.step > 0
  · simp only [if_pos up, decide_eq_true_eq] at before ⊢
    have numbers := isNumber_of_lt before
    have gap := (lt_iff_place numbers.1 numbers.2).1 before
    split
    -- Still before the bound: the counter went up, so fewer doubles are left.
    · rename_i still
      have sum := (isNumber_of_lt still).1
      have gapLeft := (lt_iff_place sum numbers.2).1 still
      have closer := place_lt_add numbers.1 sum up moved
      omega
    · omega
  · simp only [if_neg up, decide_eq_true_eq] at before ⊢
    have numbers := isNumber_of_lt before
    have gap := (lt_iff_place numbers.1 numbers.2).1 before
    split
    -- Still before the bound: the counter went down, so fewer doubles are left.
    · rename_i still
      have sum := (isNumber_of_lt still).2
      have gapLeft := (lt_iff_place numbers.1 sum).1 still
      have closer := add_lt_place numbers.2 sum up moved
      omega
    · omega

/-- Visits the counters in turn, each with its successor, and fails at one that the step no longer
changes. -/
def run {α : Type} (progression : Progression) (stuck : Float → EvalError)
    (visit : Float → Float → α → Evaluation α) (counter : Float) (value : α) : Evaluation α :=
  if progression.isBefore counter then
    if counter + progression.step == counter then throw (stuck counter)
    else do
      let value ← visit counter (counter + progression.step) value
      run progression stuck visit (counter + progression.step) value
  else pure value
termination_by progression.remaining counter
decreasing_by exact progression.remaining_lt counter ‹_› ‹_›

end Progression

end Calculator
