import Calculator.Proofs.Simplification.Meaning
import Mathlib.Logic.Relation

/-! Cycles of definitions: symbolic simplification fails exactly when a variable leads into one. -/

namespace Calculator

open Relation (ReflTransGen TransGen)

section Replacement

variable {mode : Mode} {replace other : String → Except EvalError Expr} {expr : Expr}

/-- Reduction depends on nothing but the replacements of the variables in the expression. -/
theorem reduce_congr (agree : ∀ name, expr.Mentions name → replace name = other name) :
    expr.reduce mode replace = expr.reduce mode other := by
  -- The replacements are looked up at the leaves and nowhere else.
  induction expr with
  | num value => rw [Expr.reduce, Expr.reduce]
  | var name =>
    rw [Expr.reduce, Expr.reduce]
    exact agree name (Expr.mentions_var.mpr rfl)
  | op name operands ih =>
    have operandwise : operands.mapM (·.reduce mode replace) =
        operands.mapM (·.reduce mode other) := by
      refine mapM_congr_of_mem fun operand member => ih operand member ?_
      intro inner mentions
      exact agree inner (Expr.mentions_op.mpr ⟨operand, member, mentions⟩)
    rw [reduce_op, reduce_op, operandwise]

/-- Where reduction succeeds, every variable in the expression has a replacement. -/
theorem exists_replacement {result : Expr} {name : String}
    (reduced : expr.reduce mode replace = .ok result) (mentions : expr.Mentions name) :
    ∃ replaced, replace name = .ok replaced := by
  -- The variable is followed down to the leaf that it stands at.
  induction expr generalizing result with
  | num value => exact absurd mentions (Expr.not_mentions_num value name)
  | var written =>
    rw [Expr.reduce, Expr.mentions_var.mp mentions] at reduced
    exact ⟨result, reduced⟩
  | op written operands ih =>
    -- All operands were reduced before the operation was folded.
    obtain ⟨results, reducedAll, _⟩ := reduce_op_eq_ok.mp reduced
    have each : ∀ operand ∈ operands, ∃ rest, operand.reduce mode replace = .ok rest :=
      ((List.forall₂_and_left _ _).mp (reducedAll.imp fun _ rest found => ⟨⟨rest, found⟩, found⟩)).1
    obtain ⟨operand, member, inner⟩ := Expr.mentions_op.mp mentions
    obtain ⟨rest, found⟩ := each operand member
    exact ih operand member found inner

/-- Symbolic reduction fails only as the replacement of some variable in the expression does. -/
theorem exists_failing_replacement {cause : EvalError}
    (fails : expr.reduce .symbolic replace = .error cause) :
    ∃ name, expr.Mentions name ∧ replace name = .error cause := by
  -- The failure is followed down to the leaf that it comes from.
  induction expr with
  | num value =>
    rw [Expr.reduce] at fails
    cases fails
  | var name =>
    rw [Expr.reduce] at fails
    exact ⟨name, Expr.mentions_var.mpr rfl, fails⟩
  | op name operands ih =>
    rw [reduce_op] at fails
    cases reduced : operands.mapM (·.reduce .symbolic replace) with
    | error found =>
      -- The first operand that fails passes its failure on.
      rw [reduced] at fails
      cases fails
      obtain ⟨operand, member, blamed⟩ := mapM_eq_error reduced
      obtain ⟨inner, mentions, failing⟩ := ih operand member blamed
      exact ⟨inner, Expr.mentions_op.mpr ⟨operand, member, mentions⟩, failing⟩
    | ok results =>
      -- Folding itself never fails in this mode.
      obtain ⟨result, folded⟩ := exists_fold_symbolic name results
      rw [reduced] at fails
      cases folded.symm.trans fails

end Replacement

namespace Scope

variable {scope : Scope} {name used circular : String}

/-- The value of a bound variable mentions another variable that is bound. -/
def Uses (scope : Scope) (name used : String) : Prop :=
  ∃ value, scope.get? name = some value ∧ value.Mentions used ∧ (scope.get? used).isSome

/-- The variable is defined through itself, at once or by way of others. -/
def Circular (scope : Scope) (name : String) : Prop := TransGen scope.Uses name name

/-- A bound variable in the expression leads to a variable that is defined through itself. -/
def LeadsTo (scope : Scope) (expr : Expr) (circular : String) : Prop :=
  ∃ name, expr.Mentions name ∧ (scope.get? name).isSome ∧ ReflTransGen scope.Uses name circular ∧
    scope.Circular circular

/-- Following the definitions from the variable always comes to an end. -/
def Grounded (scope : Scope) (name : String) : Prop :=
  Acc (fun used name => scope.Uses name used) name

/-- Variables that all lead to one lead to what it uses, and so does that one. -/
theorem transGen_uses_cons {expanding : List String}
    (path : ∀ earlier ∈ expanding, TransGen scope.Uses earlier name) (uses : scope.Uses name used) :
    ∀ earlier ∈ name :: expanding, TransGen scope.Uses earlier used := by
  -- The new name comes behind all that are in progress.
  intro earlier member
  rcases List.mem_cons.mp member with rfl | before
  · exact .single uses
  · exact (path earlier before).tail uses

/-- A variable is grounded when all variables in its value are. -/
theorem grounded_of_value {value : Expr} (bound : scope.get? name = some value)
    (grounded : ∀ used, value.Mentions used → scope.Grounded used) : scope.Grounded name := by
  -- The variables that it uses are among those in its one value.
  refine Acc.intro name fun used uses => ?_
  obtain ⟨found, same, mentions, _⟩ := uses
  rw [bound] at same
  cases same
  exact grounded used mentions

/-- An unbound variable is grounded. -/
theorem grounded_of_unbound (unbound : scope.get? name = none) : scope.Grounded name := by
  -- There is no value to use anything in.
  refine Acc.intro name fun used uses => ?_
  obtain ⟨found, bound, _⟩ := uses
  rw [unbound] at bound
  cases bound

/-- A grounded variable leads to none that is defined through itself. -/
theorem Grounded.not_circular (grounded : scope.Grounded name)
    (leads : ReflTransGen scope.Uses name circular) : ¬ scope.Circular circular := by
  -- Each step along the definitions, also the first one around a cycle, stays among the grounded.
  induction grounded with
  | intro name _ ih =>
    intro cycle
    rcases ReflTransGen.cases_head leads with rfl | ⟨next, step, rest⟩
    · obtain ⟨next, step, rest⟩ := TransGen.head'_iff.mp cycle
      exact ih next step rest cycle
    · exact ih next step rest cycle

end Scope

section Expansion

variable {mode : Mode} {scope : Scope} {limit : Nat} {expanding : List String} {name : String}

/-- Only grounded variables can be expanded. -/
theorem grounded_of_expand {result : Expr}
    (expanded : expand mode scope limit expanding name = .ok result) : scope.Grounded name := by
  -- An expansion that succeeds has itself come to an end on every way through the definitions.
  induction limit, expanding, name using expand_induction scope generalizing result with
  | unbound limit expanding name unbound => exact Scope.grounded_of_unbound unbound
  | blocked limit expanding name value bound blocked =>
    rw [expand_of_blocked bound blocked] at expanded
    cases expanded
  | fresh limit expanding name value bound fresh ih =>
    -- Every variable in the value was expanded in its turn.
    rw [expand_succ_of_fresh bound fresh] at expanded
    refine Scope.grounded_of_value bound fun used mentions => ?_
    obtain ⟨replaced, found⟩ := exists_replacement expanded mentions
    exact ih used found

/-- Only bound variables can fail to expand. -/
theorem isSome_of_expand {cause : EvalError}
    (fails : expand mode scope limit expanding name = .error cause) : (scope.get? name).isSome := by
  -- A name that is not bound is left as it is, without a failure.
  cases bound : scope.get? name with
  | none =>
    rw [expand_of_unbound bound] at fails
    cases fails
  | some value => rfl

/-- A symbolic expansion that fails names a variable on a cycle that it ran into, as long as the
variables being expanded lead to the one at hand and the limit covers those that are pending. -/
theorem circular_of_expand {cause : EvalError}
    (covered : (scope.pending expanding).length ≤ limit)
    (path : ∀ earlier ∈ expanding, TransGen scope.Uses earlier name)
    (fails : expand .symbolic scope limit expanding name = .error cause) :
    ∃ circular, ReflTransGen scope.Uses name circular ∧ scope.Circular circular ∧
      cause = .recursiveDefinition circular := by
  -- The variables being expanded are a path through the definitions that ends at the one at hand.
  induction limit, expanding, name using expand_induction scope with
  | unbound limit expanding name unbound =>
    rw [expand_of_unbound unbound] at fails
    cases fails
  | blocked limit expanding name value bound blocked =>
    -- The variable was met before, and from there the definitions led back to it.
    have revisited := mem_of_blocked covered bound blocked
    rw [expand_of_blocked bound blocked] at fails
    cases fails
    exact ⟨name, .refl, path name revisited, rfl⟩
  | fresh limit expanding name value bound fresh ih =>
    -- Some variable in the value passed its failure on.
    rw [expand_succ_of_fresh bound fresh] at fails
    obtain ⟨used, mentions, failing⟩ := exists_failing_replacement fails
    have uses : scope.Uses name used := ⟨value, bound, mentions, isSome_of_expand failing⟩
    -- The variable joins those being expanded, which all lead one step further now.
    have fewer := Scope.length_pending_cons bound fresh
    obtain ⟨circular, leads, cycle, named⟩ :=
      ih used (by omega) (Scope.transGen_uses_cons path uses) failing
    exact ⟨circular, .head uses leads, cycle, named⟩

/-- Expansions that agree on the variables that a variable uses reduce its value alike. -/
theorem reduce_value_congr {value : Expr} {others : List String} {otherLimit : Nat}
    (bound : scope.get? name = some value)
    (agree : ∀ used, scope.Uses name used →
      expand mode scope limit expanding used = expand mode scope otherLimit others used) :
    value.reduce mode (expand mode scope limit expanding) =
      value.reduce mode (expand mode scope otherLimit others) := by
  refine reduce_congr fun used mentions => ?_
  -- Unbound variables in the value are not used, but they expand to themselves anyway.
  cases usedBound : scope.get? used with
  | none => rw [expand_of_unbound usedBound, expand_of_unbound usedBound]
  | some inner => exact agree used ⟨value, bound, mentions, by simp [usedBound]⟩

/-- Of the variables being expanded, only those matter that the variable at hand leads to, and of
the limit only that it covers the pending ones. -/
theorem expand_congr {others : List String} {otherLimit : Nat}
    (covered : (scope.pending expanding).length ≤ limit)
    (otherCovered : (scope.pending others).length ≤ otherLimit)
    (agree : ∀ reached, ReflTransGen scope.Uses name reached →
      (reached ∈ expanding ↔ reached ∈ others)) :
    expand mode scope limit expanding name = expand mode scope otherLimit others name := by
  -- Both expansions go through the same values, and each is blocked only where the other is.
  induction limit, expanding, name using expand_induction scope generalizing others otherLimit with
  | unbound limit expanding name unbound =>
    rw [expand_of_unbound unbound, expand_of_unbound unbound]
  | blocked limit expanding name value bound blocked =>
    -- What is met again on one side is met again on the other.
    have revisited := (agree name .refl).mp (mem_of_blocked covered bound blocked)
    rw [expand_of_blocked bound blocked, expand_of_blocked bound (.inr revisited)]
  | fresh limit expanding name value bound fresh ih =>
    have otherFresh : name ∉ others := mt (agree name .refl).mpr fresh
    have fewer := Scope.length_pending_cons bound fresh
    obtain ⟨rest, rfl, restCovered, expands⟩ := expand_of_fresh otherCovered bound otherFresh
    rw [expand_succ_of_fresh bound fresh, expands]
    refine reduce_value_congr bound fun used uses => ?_
    -- What a used variable leads to, the variable leads to by one more step.
    refine ih used (by omega) restCovered fun reached leads => ?_
    simp only [List.mem_cons, agree reached (.head uses leads)]

/-- Simplification succeeds only on expressions whose variables are grounded. -/
theorem grounded_of_simplify {expr result : Expr}
    (simplified : simplify mode scope expr = .ok result) (mentions : expr.Mentions name) :
    scope.Grounded name := by
  -- Simplification has expanded the variable, with none being expanded around it.
  obtain ⟨replaced, expanded⟩ := exists_replacement simplified mentions
  exact grounded_of_expand expanded

/-- A grounded variable simplifies to what its value simplifies to. -/
theorem simplify_value_of_grounded {value : Expr} (bound : scope.get? name = some value)
    (grounded : scope.Grounded name) :
    simplify mode scope value = simplify mode scope (.var name) := by
  -- The value is reduced on both sides, on one of them while the variable is being expanded.
  obtain ⟨rest, _, restCovered, expands⟩ :=
    expand_of_fresh (scope.length_pending_le []) bound List.not_mem_nil
  rw [simplify, simplify, Expr.reduce, expands]
  refine reduce_value_congr bound fun used uses => ?_
  refine expand_congr (scope.length_pending_le []) restCovered fun reached leads => ?_
  -- That makes no difference, since the value never leads back to the variable.
  have apart : reached ≠ name := by
    intro back
    rw [back] at leads
    exact grounded.not_circular .refl (.head' uses leads)
  simp [apart]

/-- A variable and its value simplify to the same, or both fail. -/
theorem simplify_value_eq_ok_iff {value result : Expr} (bound : scope.get? name = some value) :
    simplify mode scope value = .ok result ↔ simplify mode scope (.var name) = .ok result := by
  by_cases grounded : scope.Grounded name
  · rw [simplify_value_of_grounded bound grounded]
  · -- Neither succeeds: a result for one of them would make the variable grounded.
    constructor
    · intro simplified
      exact absurd (Scope.grounded_of_value bound fun _ => grounded_of_simplify simplified) grounded
    · intro simplified
      exact absurd (grounded_of_simplify simplified (Expr.mentions_var.mpr rfl)) grounded

/-- A symbolic simplification that fails names a variable on a cycle that it ran into. -/
theorem circular_of_simplify {expr : Expr} {cause : EvalError}
    (fails : simplify .symbolic scope expr = .error cause) :
    ∃ circular, scope.LeadsTo expr circular ∧ cause = .recursiveDefinition circular := by
  obtain ⟨start, mentions, failing⟩ := exists_failing_replacement fails
  -- At the start no variable is being expanded, and the limit counts all bindings.
  have path : ∀ earlier ∈ ([] : List String), TransGen scope.Uses earlier start := by simp
  obtain ⟨circular, leads, cycle, named⟩ :=
    circular_of_expand (scope.length_pending_le []) path failing
  exact ⟨circular, ⟨start, mentions, isSome_of_expand failing, leads, cycle⟩, named⟩

end Expansion

/--
Cycles are detected exactly.

Symbolic simplification fails if and only if some bound variable in the expression leads to one that
is defined through itself, and the failure names such a variable. Meeting a variable again, beside
an earlier use of it or by another way, is no failure.
-/
theorem simplify_symbolic_fails_iff_cycle (scope : Scope) (expr : Expr) :
    ((∃ cause, simplify .symbolic scope expr = .error cause) ↔
      ∃ circular, scope.LeadsTo expr circular) ∧
    ∀ cause, simplify .symbolic scope expr = .error cause →
      ∃ circular, scope.LeadsTo expr circular ∧ cause = .recursiveDefinition circular ∧
        cause.reason = "Recursive definition of variable " ++ circular := by
  refine ⟨⟨?_, ?_⟩, ?_⟩
  · -- The failure itself names a variable on the cycle.
    rintro ⟨cause, fails⟩
    obtain ⟨circular, leads, _⟩ := circular_of_simplify fails
    exact ⟨circular, leads⟩
  · rintro ⟨circular, name, mentions, _, leads, cycle⟩
    -- A result would make the variable grounded.
    cases simplified : simplify .symbolic scope expr with
    | error cause => exact ⟨cause, rfl⟩
    | ok result =>
      exact absurd cycle ((grounded_of_simplify simplified mentions).not_circular leads)
  · intro cause fails
    obtain ⟨circular, leads, named⟩ := circular_of_simplify fails
    exact ⟨circular, leads, named, by rw [named]; rfl⟩

/-- `a` comes to `d` by two ways, and `p` leads to `q` and `r`, which are defined through each
other. -/
private def tangledScope : Scope :=
  ⟨[], ⟨[("a", .op "+" [.var "b", .var "c"]), ("b", .var "d"), ("c", .var "d"), ("d", .var "x"),
    ("p", .op "*" [.var "q", .num 2]), ("q", .var "r"), ("r", .op "+" [.var "q", .num 1])]⟩⟩

/-- A cycle is found behind a variable that is not part of it, and two ways to one variable make no
cycle. -/
theorem simplify_symbolic_fails_iff_cycle_samples :
    tangledScope.LeadsTo (.op "+" [.var "a", .var "p"]) "q" ∧
    ¬ ∃ circular, tangledScope.LeadsTo (.op "*" [.var "a", .var "a"]) circular := by
  -- The failing sum leads to the cycle that is blamed; the product does not fail.
  obtain ⟨_, blames⟩ :=
    simplify_symbolic_fails_iff_cycle tangledScope (.op "+" [.var "a", .var "p"])
  obtain ⟨fails, _⟩ := simplify_symbolic_fails_iff_cycle tangledScope (.op "*" [.var "a", .var "a"])
  refine ⟨?_, fun leads => ?_⟩
  · obtain ⟨circular, leads, named, _⟩ := blames (.recursiveDefinition "q") rfl
    cases named
    exact leads
  · obtain ⟨cause, failed⟩ := fails.mpr leads
    cases failed

end Calculator
