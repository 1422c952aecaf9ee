import Calculator.Proofs.Evaluation.Rounds
import Calculator.Proofs.Number.Difference

/-! Counters: with a finite step they are numbers, and as long as the step changes them they rise or
fall. -/

namespace Calculator.Progression

open Binary

variable {progression : Progression} {first : Float} {count : Nat}

/-- The counters of a finite step are numbers, infinite ones included. -/
theorem isNumber_counterAt (progression : Progression)
    (finite : progression.step.isFinite = true) (number : IsNumber first) (index : Nat) :
    IsNumber (progression.counterAt first index) := by
  -- Adding a finite step to a number gives a number.
  induction index with
  | zero => exact number
  | succ index ih =>
    rw [counterAt_succ]
    exact isNumber_add ih finite

/-- The step changes each of the first counters. -/
def Moves (progression : Progression) (first : Float) (count : Nat) : Prop :=
  ∀ index < count,
    (progression.counterAt first (index + 1) == progression.counterAt first index) = false

/-- Counters that have a round are changed by the step. -/
theorem Takes.moves (takes : progression.Takes first count) : progression.Moves first count := by
  -- A round is taken only where the step leads on.
  intro index within
  rw [counterAt_succ]
  exact (takes.rounds index within).moves

section Direction

variable (progression) (finite : progression.step.isFinite = true) (number : IsNumber first)
  (moves : progression.Moves first count)

include finite number moves

/-- Counters that a positive step changes rise. -/
theorem strictMonoOn_place (up : 0 < progression.step) :
    StrictMonoOn (fun index => place (progression.counterAt first index)) (Set.Iic count) := by
  -- A sequence rises if each member is below the next, and so far the step changes each.
  apply strictMonoOn_of_lt_add_one Set.ordConnected_Iic
  intro index _ _ within
  have moved := moves index within
  have sum := progression.isNumber_counterAt finite number (index + 1)
  simp only [counterAt_succ] at moved sum ⊢
  exact place_lt_add (progression.isNumber_counterAt finite number index) sum up moved

/-- Counters that any other step changes fall. -/
theorem strictAntiOn_place (down : ¬ 0 < progression.step) :
    StrictAntiOn (fun index => place (progression.counterAt first index)) (Set.Iic count) := by
  -- Each step that leads on goes down.
  apply strictAntiOn_of_add_one_lt Set.ordConnected_Iic
  intro index _ _ within
  have moved := moves index within
  have sum := progression.isNumber_counterAt finite number (index + 1)
  simp only [counterAt_succ] at moved sum ⊢
  exact add_lt_place (progression.isNumber_counterAt finite number index) sum down moved

/-- Counters that the step changes until they land on the bound are before it until then. -/
theorem isBefore_of_lands (bounded : progression.bound.isFinite = true)
    (lands : (progression.counterAt first count == progression.bound) = true) :
    (∀ index < count, progression.isBefore (progression.counterAt first index) = true) ∧
      ¬ progression.isBefore (progression.counterAt first count) = true := by
  have isNumber := progression.isNumber_counterAt finite number
  have bound := isNumber_of_isFinite bounded
  have landed := (beq_iff_place (isNumber count) bound).mp lands
  -- Counters that rise are below the one that lands, and counters that fall are above it.
  by_cases up : progression.step > 0
  · have rising := progression.strictMonoOn_place finite number moves up
    simp only [isBefore, if_pos up, decide_eq_true_eq]
    constructor
    · intro index within
      have below := rising (Set.mem_Iic.mpr within.le) (Set.mem_Iic.mpr le_rfl) within
      rw [lt_iff_place (isNumber index) bound, ← landed]
      exact below
    · rw [lt_iff_place (isNumber count) bound]
      omega
  · have falling := progression.strictAntiOn_place finite number moves up
    simp only [isBefore, if_neg up, decide_eq_true_eq]
    constructor
    · intro index within
      have above := falling (Set.mem_Iic.mpr within.le) (Set.mem_Iic.mpr le_rfl) within
      show progression.bound < _
      rw [lt_iff_place bound (isNumber index), ← landed]
      exact above
    · show ¬ progression.bound < _
      rw [lt_iff_place bound (isNumber count)]
      omega

end Direction

end Calculator.Progression
