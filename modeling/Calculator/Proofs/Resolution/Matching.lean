import Calculator.Proofs.Resolution.BigStep
import Calculator.Proofs.Scope.Matching

/-! Matching expressions are simplified and resolved alike under matching variables. -/

namespace Calculator

open Relator (BiUnique)

variable {names : String → String → Prop}

/-- Both succeed with related values, or both fail for matching reasons. -/
inductive AnswersMatch (names : String → String → Prop) {α β : Type} (related : α → β → Prop) :
    Except EvalError α → Except EvalError β → Prop
  | ok {value : α} {other : β} (values : related value other) :
      AnswersMatch names related (.ok value) (.ok other)
  | error {cause reason : EvalError} (causes : EvalError.Matches names cause reason) :
      AnswersMatch names related (.error cause) (.error reason)

namespace AnswersMatch

variable {α β γ δ : Type} {related : α → β → Prop} {result : γ → δ → Prop}

/-- Answers that match can be computed on. -/
theorem bind {first : Except EvalError α} {second : Except EvalError β}
    {next : α → Except EvalError γ} {after : β → Except EvalError δ}
    (answers : AnswersMatch names related first second)
    (continued : ∀ {value other}, related value other →
      AnswersMatch names result (next value) (after other)) :
    AnswersMatch names result (first >>= next) (second >>= after) := by
  -- Both computations go on, or both have failed already.
  cases answers with
  | ok values => exact continued values
  | error causes => exact .error causes

/-- Computing on every element fails at the same place, or gives results one by one. -/
theorem mapM {compute : α → Except EvalError γ} {other : β → Except EvalError δ} {inputs : List α}
    {others : List β} (answers : List.Forall₂ (fun input paired =>
      AnswersMatch names result (compute input) (other paired)) inputs others) :
    AnswersMatch names (List.Forall₂ result) (inputs.mapM compute) (others.mapM other) := by
  -- By induction on the pairs; the answers match one after another.
  induction answers with
  | nil => exact .ok .nil
  | cons head _ ih =>
    rw [List.mapM_cons, List.mapM_cons]
    exact head.bind fun first => ih.bind fun rest => .ok (.cons first rest)

end AnswersMatch

section Folding

variable {operands others : List Expr}

/-- Matching operands are the same numbers, or neither are all numbers. -/
theorem Expr.numbers?_matches (operandwise : List.Forall₂ (Matches names) operands others) :
    numbers? operands = numbers? others := by
  -- By induction on the pairs; matching numbers are equal, and nothing else is a number.
  induction operandwise with
  | nil => rfl
  | cons head _ ih => cases head <;> simp [numbers?, ih]

/-- A value computed from numbers alone fails without naming a variable. -/
theorem Primitive.isPlain_of_value? {primitive : Primitive} {mode : Mode} {values : List Float}
    {cause : EvalError} (fails : primitive.value? mode values = .error cause) :
    cause.isPlain = true := by
  -- Only a quotient can fail, and its failure shows the dividend.
  unfold value? at fails
  split at fails
  case h_7 a b =>
    unfold quotient? at fails
    grind [EvalError.isPlain]
  all_goals cases fails

/-- Operations on matching operands fold to matching expressions. -/
theorem fold_matches (mode : Mode) (name : String)
    (operandwise : List.Forall₂ (Expr.Matches names) operands others) :
    AnswersMatch names (Expr.Matches names) (fold mode name operands) (fold mode name others) := by
  -- Whether there is something to compute hangs on the numbers alone, and these are the same.
  rw [fold, fold, ← Expr.numbers?_matches operandwise]
  split
  · next primitive values _ _ =>
    cases valued : primitive.value? mode values with
    | error cause => exact .error (.plain (Primitive.isPlain_of_value? valued))
    | ok result =>
      cases result with
      | none => exact .ok (.op name operandwise)
      | some value => exact .ok (.num value)
  · exact .ok (.op name operandwise)

end Folding

section Simplification

variable {mode : Mode} {expr other : Expr} {scope counterpart : Scope}

/-- Matching expressions reduce alike if the replacements of paired variables match. -/
theorem reduce_matches {replace substitute : String → Except EvalError Expr}
    (replaces : ∀ {name paired}, names name paired →
      AnswersMatch names (Expr.Matches names) (replace name) (substitute paired))
    (matching : Expr.Matches names expr other) :
    AnswersMatch names (Expr.Matches names) (expr.reduce mode replace)
      (other.reduce mode substitute) := by
  induction expr generalizing other with
  | num value =>
    cases matching
    rw [Expr.reduce, Expr.reduce]
    exact .ok (.num value)
  | var name =>
    cases matching with
    | var paired =>
      rw [Expr.reduce, Expr.reduce]
      exact replaces paired
  | op name operands ih =>
    cases matching with
    | op _ operandwise =>
      rw [reduce_op, reduce_op]
      -- The operands come first, so a failure among them is the same first failure on both sides.
      have reduced := forall₂_imp_of_mem operandwise
        fun operand member _ matching => ih operand member matching
      exact (AnswersMatch.mapM reduced).bind fun results => fold_matches mode name results

/-- Paired variables expand alike, as long as both limits cover what is pending. -/
theorem expand_matches (unique : BiUnique names) (matching : Scope.Matches names scope counterpart)
    {limit bound : Nat} {expanding others : List String} {name paired : String}
    (isPaired : names name paired) (along : List.Forall₂ names expanding others)
    (covered : (scope.pending expanding).length ≤ limit)
    (covers : (counterpart.pending others).length ≤ bound) :
    AnswersMatch names (Expr.Matches names) (expand mode scope limit expanding name)
      (expand mode counterpart bound others paired) := by
  -- The chain of bindings is followed on both sides; a name closes a cycle when its partner does.
  induction limit, expanding, name using expand_induction scope
    generalizing bound others paired with
  | unbound limit expanding name unbound =>
    rw [expand_of_unbound unbound, expand_of_unbound (matching.get?_eq_none isPaired unbound)]
    exact .ok (.var isPaired)
  | blocked limit expanding name value isBound blocked =>
    obtain ⟨partner, boundToo, _⟩ := matching.exists_value isPaired isBound
    have revisited := mem_of_blocked covered isBound blocked
    have revisits := (List.rel_mem unique isPaired along).mp revisited
    rw [expand_of_blocked isBound blocked, expand_of_blocked boundToo (.inr revisits)]
    exact .error (.recursiveDefinition isPaired)
  | fresh limit expanding name value isBound fresh ih =>
    obtain ⟨partner, boundToo, values⟩ := matching.exists_value isPaired isBound
    have freshToo := mt (List.rel_mem unique isPaired along).mpr fresh
    obtain ⟨rest, rfl, restCovers, expands⟩ := expand_of_fresh covers boundToo freshToo
    have fewer := Scope.length_pending_cons isBound fresh
    rw [expand_succ_of_fresh isBound fresh, expands]
    refine reduce_matches (fun inner => ?_) values
    exact ih _ inner (.cons isPaired along) (by omega) restCovers

/-- Matching expressions simplify alike under matching variables. -/
theorem simplify_matches (mode : Mode) (unique : BiUnique names)
    (matching : Scope.Matches names scope counterpart) (exprs : Expr.Matches names expr other) :
    AnswersMatch names (Expr.Matches names) (simplify mode scope expr)
      (simplify mode counterpart other) := by
  -- No name is in progress at first, so the limits leave room for all that are bound.
  refine reduce_matches (fun isPaired => ?_) exprs
  exact expand_matches unique matching isPaired .nil (scope.length_pending_le [])
    (counterpart.length_pending_le [])

end Simplification

section Resolution

variable {expr other : Expr} {scope counterpart : Scope}

/-- The same number is demanded of matching expressions, or of neither. -/
theorem demand_matches (matching : Expr.Matches names expr other) :
    AnswersMatch names Eq expr.demand other.demand := by
  induction expr generalizing other with
  | num value =>
    cases matching
    rw [Expr.demand]
    exact .ok rfl
  | var name =>
    cases matching with
    | var paired =>
      rw [Expr.demand, Expr.demand]
      exact .error (.undefinedVariable paired)
  | op name operands ih =>
    cases matching with
    | op _ operandwise =>
      rw [Expr.demand, Expr.demand, demandAll_eq_mapM, demandAll_eq_mapM]
      have values := AnswersMatch.mapM <| forall₂_imp_of_mem operandwise
        fun operand member _ matching => ih operand member matching
      refine values.bind fun {numbers others} same => ?_
      have sameNumbers :
          List.Forall₂ (Expr.Matches names) (numbers.map .num) (others.map .num) := by
        rw [List.forall₂_map_left_iff, List.forall₂_map_right_iff]
        exact same.imp fun value _ equal => equal ▸ .num value
      refine (fold_matches .precise name sameNumbers).bind fun folded => ?_
      -- What is left without a value fails under the name of the operation.
      cases folded with
      | num value => exact .ok rfl
      | var => exact .error (.plain rfl)
      | op => exact .error (.plain rfl)

/-- Matching expressions stand for the same number, or neither stands for one. -/
theorem toNumber_matches (unique : BiUnique names)
    (matching : Scope.Matches names scope counterpart) (exprs : Expr.Matches names expr other) :
    AnswersMatch names Eq (toNumber scope expr) (toNumber counterpart other) :=
  (simplify_matches .precise unique matching exprs).bind demand_matches

/-- What is not yet a number is resolved, and a failure says in which role. -/
theorem resolveNumber_eq_mapError (scope : Scope) (role : String) {expr : Expr}
    (symbolic : ∀ value, expr ≠ .num value) :
    resolveNumber scope role expr = (toNumber scope expr).mapError (.unresolved role expr) := by
  -- Only a number is taken as it is; all other expressions are resolved.
  cases expr with
  | num value => exact absurd rfl (symbolic value)
  | var name =>
    simp only [resolveNumber]
    cases toNumber scope (.var name) <;> rfl
  | op name operands =>
    simp only [resolveNumber]
    cases toNumber scope (.op name operands) <;> rfl

/-- Matching expressions in the same role are resolved alike. -/
theorem resolveNumber_matches (unique : BiUnique names)
    (matching : Scope.Matches names scope counterpart) (role : String)
    (exprs : Expr.Matches names expr other) :
    AnswersMatch names Eq (resolveNumber scope role expr)
      (resolveNumber counterpart role other) := by
  -- A number is taken as it is; everything else is turned into one.
  have resolved : AnswersMatch names Eq
      ((toNumber scope expr).mapError (.unresolved role expr))
      ((toNumber counterpart other).mapError (.unresolved role other)) := by
    have numbers := toNumber_matches unique matching exprs
    generalize toNumber scope expr = left at numbers ⊢
    generalize toNumber counterpart other = right at numbers ⊢
    cases numbers with
    | ok same => exact .ok same
    | error causes => exact .error (.unresolved role exprs causes)
  cases exprs with
  | num value => exact .ok rfl
  | var =>
    rw [resolveNumber_eq_mapError _ _ (by simp), resolveNumber_eq_mapError _ _ (by simp)]
    exact resolved
  | op =>
    rw [resolveNumber_eq_mapError _ _ (by simp), resolveNumber_eq_mapError _ _ (by simp)]
    exact resolved

/-- Matching expressions in the same role are the same number, or neither is one. -/
theorem requireNumber_matches (role : String) (exprs : Expr.Matches names expr other) :
    AnswersMatch names Eq (requireNumber role expr) (requireNumber role other) := by
  -- Only a number is accepted, and it matches no other one.
  cases exprs with
  | num value => exact .ok rfl
  | var paired => exact .error (.notNumber role (.var paired))
  | op name operandwise => exact .error (.notNumber role (.op name operandwise))

/-- Constructs bind paired variables where they are given matching expressions. -/
theorem boundVariable_matches (construct : String) (exprs : Expr.Matches names expr other) :
    AnswersMatch names names (boundVariable construct expr) (boundVariable construct other) := by
  cases exprs with
  | num value => exact .error (.invalidLoopVariable construct (.num value))
  | var paired => exact .ok paired
  | op name operandwise =>
    have whole : Expr.Matches names (.op name _) (.op name _) := .op name operandwise
    -- With one operand the operation only wraps it.
    cases operandwise with
    | nil => exact .error (.invalidLoopVariable construct whole)
    | cons first rest =>
      cases rest with
      | cons second more => cases first <;> exact .error (.invalidLoopVariable construct whole)
      | nil =>
        cases first with
        | num value => exact .error (.invalidLoopVariable construct (.num value))
        | var paired => exact .ok paired
        | op name operandwise =>
          exact .error (.invalidLoopVariable construct (.op name operandwise))

end Resolution

end Calculator
