import Calculator.Failure
import Calculator.Proofs.Expr.Parts
import Mathlib.Data.List.Forall2

/-! Expressions and failures that match: they are the same up to paired names of variables. -/

namespace Calculator

/-- The expressions are built alike, with paired variables at the same places. -/
inductive Expr.Matches (names : String → String → Prop) : Expr → Expr → Prop
  | num (value : Float) : Matches names (.num value) (.num value)
  | var {name other : String} (paired : names name other) : Matches names (.var name) (.var other)
  | op (name : String) {operands others : List Expr}
      (operandwise : List.Forall₂ (Matches names) operands others) :
      Matches names (.op name operands) (.op name others)

/-- The failure shows neither a variable nor an expression, and a built-in operation can have it. -/
def EvalError.isPlain : EvalError → Bool
  | unknownOperation _ | wrongArity _ _ _ | divisionByZero _ | notNumeric _ | negativeCount _
  | infiniteCount | infiniteBounds | zeroStep | stepTooSmall _ _ _ | reversedRange _ _
  | stepNotPositive _ | infiniteRange => true
  | missingOperand _ | notAssignable _ | notNumber _ _ | unresolved _ _ _
  | invalidLoopVariable _ _ | undefinedVariable _ | recursiveDefinition _ | alreadyDefined _ _
  | unequalColumns _ _ | unexpectedPiece _ | invalidNumber _ | refused _ => false

/-- The failures have the same reason, shown on matching expressions. No operand is missing. -/
inductive EvalError.Matches (names : String → String → Prop) : EvalError → EvalError → Prop
  | plain {error : EvalError} (isPlain : error.isPlain = true) : Matches names error error
  | notAssignable {target other : Expr} (matching : Expr.Matches names target other) :
      Matches names (.notAssignable target) (.notAssignable other)
  | notNumber (role : String) {found other : Expr} (matching : Expr.Matches names found other) :
      Matches names (.notNumber role found) (.notNumber role other)
  | unresolved (role : String) {found other : Expr} {cause reason : EvalError}
      (matching : Expr.Matches names found other) (causes : Matches names cause reason) :
      Matches names (.unresolved role found cause) (.unresolved role other reason)
  | invalidLoopVariable (construct : String) {found other : Expr}
      (matching : Expr.Matches names found other) :
      Matches names (.invalidLoopVariable construct found) (.invalidLoopVariable construct other)
  | undefinedVariable {name other : String} (paired : names name other) :
      Matches names (.undefinedVariable name) (.undefinedVariable other)
  | recursiveDefinition {name other : String} (paired : names name other) :
      Matches names (.recursiveDefinition name) (.recursiveDefinition other)
  | alreadyDefined (construct : String) {name other : String} (paired : names name other) :
      Matches names (.alreadyDefined construct name) (.alreadyDefined construct other)

section Restriction

variable {allowed : String → Prop}

/-- Each allowed name is paired with itself. -/
def Only (allowed : String → Prop) (name other : String) : Prop := name = other ∧ allowed name

/-- Expressions match on allowed names exactly when they are the same expression on these. -/
theorem Expr.matches_only {expr other : Expr} :
    Matches (Only allowed) expr other ↔
      expr = other ∧ ∀ name, expr.Mentions name → allowed name := by
  induction expr generalizing other with
  | num value =>
    constructor
    · intro matching
      cases matching
      exact ⟨rfl, by simp⟩
    · rintro ⟨rfl, _⟩
      exact .num value
  | var name =>
    constructor
    · intro matching
      cases matching with
      | var paired =>
        obtain ⟨rfl, isAllowed⟩ := paired
        exact ⟨rfl, by simpa using isAllowed⟩
    · rintro ⟨rfl, mentioned⟩
      exact .var ⟨rfl, mentioned name .whole⟩
  | op name operands ih =>
    -- The operands are the same one by one, and each mentions allowed names only.
    have operandwise (others : List Expr) : List.Forall₂ (Matches (Only allowed)) operands others ↔
        operands = others ∧ ∀ operand ∈ operands, ∀ name, operand.Mentions name → allowed name := by
      induction operands generalizing others with
      | nil => simp [eq_comm]
      | cons first rest rest_ih =>
        simp only [List.forall_mem_cons] at ih
        simp only [List.forall₂_cons_left_iff, ih.1, rest_ih ih.2, List.forall_mem_cons]
        constructor
        · rintro ⟨_, _, ⟨rfl, firstAllowed⟩, ⟨rfl, restAllowed⟩, rfl⟩
          exact ⟨rfl, firstAllowed, restAllowed⟩
        · rintro ⟨rfl, firstAllowed, restAllowed⟩
          exact ⟨first, rest, ⟨rfl, firstAllowed⟩, ⟨rfl, restAllowed⟩, rfl⟩
    constructor
    · intro matching
      cases matching with
      | op _ pairs =>
        obtain ⟨rfl, isAllowed⟩ := (operandwise _).mp pairs
        refine ⟨rfl, fun used mentions => ?_⟩
        obtain ⟨operand, member, mentions⟩ := mentions_op.mp mentions
        exact isAllowed operand member used mentions
    · rintro ⟨rfl, isAllowed⟩
      refine .op name ((operandwise operands).mpr ⟨rfl, fun operand member used mentions => ?_⟩)
      exact isAllowed used (mentions_op.mpr ⟨operand, member, mentions⟩)

/-- Failures that match on allowed names are the same. -/
theorem EvalError.Matches.eq_of_only {error other : EvalError}
    (matching : Matches (Only allowed) error other) : error = other := by
  -- By induction on the error, whose names and trees are paired with themselves.
  induction matching with
  | plain => rfl
  | notAssignable matching | notNumber _ matching | invalidLoopVariable _ matching =>
    rw [(Expr.matches_only.mp matching).1]
  | unresolved _ matching _ ih => rw [(Expr.matches_only.mp matching).1, ih]
  | undefinedVariable paired | recursiveDefinition paired | alreadyDefined _ paired =>
    rw [paired.1]

end Restriction

end Calculator
