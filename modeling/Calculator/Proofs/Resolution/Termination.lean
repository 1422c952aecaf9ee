import Calculator.Proofs.Resolution.BigStep
import Calculator.Proofs.Simplification.Cycles

/-! Simplification and resolution come to an end on every expression, whatever the variables are
bound to: without any limit, their recursions are well founded. -/

namespace Calculator

section Recursion

variable {α β : Type} {body : (α → β) → α → β} {calls : α → α → Prop}

/-- A recursion with the given body comes to an end: it asks only for the results of its calls, and
no chain of calls goes on forever. -/
structure Terminates (body : (α → β) → α → β) (calls : α → α → Prop) : Prop where
  wellFounded : WellFounded calls
  asksOnly : ∀ (first second : α → β) (input : α),
    (∀ callee, calls callee input → first callee = second callee) →
      body first input = body second input

/-- A recursion that comes to an end has at most one solution. -/
theorem Terminates.unique (terminates : Terminates body calls) {first second : α → β}
    (solves : first = body first) (also : second = body second) : first = second := by
  funext input
  -- The calls are settled before the input is.
  induction input using terminates.wellFounded.induction with
  | h input ih =>
    rw [solves, also]
    exact terminates.asksOnly first second input ih

/-- The solution of a recursion that comes to an end is known by its equation. -/
theorem Terminates.solution_iff (terminates : Terminates body calls) {solution : α → β}
    (solves : solution = body solution) (other : α → β) :
    other = body other ↔ other = solution := by
  -- Two solutions are equal, since the calls come to an end.
  constructor
  · intro also
    exact terminates.unique also solves
  · intro same
    rw [same]
    exact solves

end Recursion

section Simplification

/-- One step of simplification, by what `walk` makes of the operands or of a variable's value. The
variables being expanded come with the expression. -/
def simplifyBody (mode : Mode) (scope : Scope) (walk : List String × Expr → Except EvalError Expr) :
    List String × Expr → Except EvalError Expr
  | (_, .num value) => .ok (.num value)
  | (expanding, .var name) =>
    match scope.get? name with
    | none => .ok (.var name)
    | some value =>
      if name ∈ expanding then .error (.recursiveDefinition name)
      else walk (name :: expanding, value)
  | (expanding, .op name operands) => do
    fold mode name (← operands.mapM fun operand => walk (expanding, operand))

/-- The first expression is simplified on the way to the second: it is an operand, or the value of
a variable that is not being expanded, which may well be the larger expression. -/
inductive Scope.Enters (scope : Scope) : List String × Expr → List String × Expr → Prop
  | operand {expanding : List String} {name : String} {operands : List Expr} {operand : Expr}
      (member : operand ∈ operands) :
      Enters scope (expanding, operand) (expanding, .op name operands)
  | value {expanding : List String} {name : String} {value : Expr}
      (bound : scope.get? name = some value) (fresh : name ∉ expanding) :
      Enters scope (name :: expanding, value) (expanding, .var name)

/-- An operand is smaller than the operation. -/
theorem Expr.sizeOf_lt_of_mem {name : String} {operands : List Expr} {operand : Expr}
    (member : operand ∈ operands) : sizeOf operand < sizeOf (Expr.op name operands) := by
  -- An operand is a part of the list that the operation holds.
  have smaller := List.sizeOf_lt_of_mem member
  rw [Expr.op.sizeOf_spec]
  omega

/-- What is left to do: first the variables that are pending, then the size of the expression. -/
noncomputable def Scope.workload (scope : Scope) (task : List String × Expr) : Nat × Nat :=
  ((scope.pending task.1).length, sizeOf task.2)

/-- Simplification never goes on forever from one expression to the next. -/
theorem Scope.wellFounded_enters (scope : Scope) : WellFounded scope.Enters := by
  refine Subrelation.wf ?_ (InvImage.wf scope.workload (Prod.lex Nat.lt_wfRel Nat.lt_wfRel).wf)
  intro callee task enters
  cases enters with
  | operand member =>
    -- As many variables are pending around an operand, but it is smaller.
    exact Prod.Lex.right _ (Expr.sizeOf_lt_of_mem member)
  | value bound fresh =>
    -- However large the value is, fewer variables are pending around it.
    exact Prod.Lex.left _ _ (length_pending_cons bound fresh)

/-- Simplification asks only for what it enters. -/
theorem terminates_simplifyBody (mode : Mode) (scope : Scope) :
    Terminates (simplifyBody mode scope) scope.Enters where
  wellFounded := scope.wellFounded_enters
  asksOnly := by
    intro first second task agree
    obtain ⟨expanding, expr⟩ := task
    -- Each kind of expression makes the calls that are entered from it, and no others.
    cases expr with
    | num value => rfl
    | var name =>
      simp only [simplifyBody]
      cases bound : scope.get? name with
      | none => rfl
      | some value =>
        by_cases revisited : name ∈ expanding
        · simp [revisited]
        · simp only [if_neg revisited]
          exact agree _ (.value bound revisited)
    | op name operands =>
      have operandwise := mapM_congr_of_mem fun operand (member : operand ∈ operands) =>
        agree (expanding, operand) (.operand member)
      simp only [simplifyBody, operandwise]

/-- An expression simplified while variables are being expanded, with a limit for all bindings. -/
def simplifyTask (mode : Mode) (scope : Scope) (task : List String × Expr) :
    Except EvalError Expr :=
  task.2.reduce mode (expand mode scope scope.bindingCount task.1)

/-- Simplification takes these steps, and never reaches its limit. -/
theorem simplifyTask_eq_simplifyBody (mode : Mode) (scope : Scope) :
    simplifyTask mode scope = simplifyBody mode scope (simplifyTask mode scope) := by
  funext ⟨expanding, expr⟩
  rw [simplifyTask]
  -- Only at a variable does the limit come in.
  cases expr with
  | num value => rw [Expr.reduce, simplifyBody]
  | var name =>
    simp only [Expr.reduce, simplifyBody]
    cases bound : scope.get? name with
    | none => rw [expand_of_unbound bound]
    | some value =>
      by_cases revisited : name ∈ expanding
      · simp only [expand_of_blocked bound (.inr revisited), if_pos revisited]
      · -- The limit is not reached, and what is left of it covers the rest as well as all of it.
        obtain ⟨rest, _, restCovered, expands⟩ :=
          expand_of_fresh (scope.length_pending_le expanding) bound revisited
        rw [expands]
        simp only [if_neg revisited]
        refine reduce_value_congr bound fun used _ => ?_
        exact expand_congr restCovered (scope.length_pending_le _) fun _ _ => .rfl
  | op name operands =>
    rw [reduce_op, simplifyBody]
    rfl

end Simplification

section Resolution

/-- One step of resolution, by what `resolve` makes of the operands that simplification leaves. -/
def resolveBody (scope : Scope) (resolve : Expr → Except EvalError Float) (expr : Expr) :
    Except EvalError Float := do
  match ← simplify .precise scope expr with
  | .num value => return value
  | .var name => throw (.undefinedVariable name)
  | .op name operands =>
    let values ← operands.mapM resolve
    match ← simplify .precise scope (.op name (values.map .num)) with
    | .num value => return value
    | .var _ | .op _ _ => throw (.notNumeric name)

/-- The first expression is resolved on the way to the second: it is an operand of what
simplification leaves of that one. -/
def Scope.Demands (scope : Scope) (operand expr : Expr) : Prop :=
  ∃ name operands, simplify .precise scope expr = .ok (.op name operands) ∧ operand ∈ operands

/-- The size of what simplification leaves of an expression. -/
noncomputable def Scope.remainder (scope : Scope) (expr : Expr) : Nat :=
  match simplify .precise scope expr with
  | .ok rest => sizeOf rest
  | .error _ => 0

/-- Resolution never goes on forever from one expression to the next. -/
theorem Scope.wellFounded_demands (scope : Scope) : WellFounded scope.Demands := by
  refine Subrelation.wf ?_ (InvImage.wf scope.remainder Nat.lt_wfRel.wf)
  intro operand expr demands
  obtain ⟨name, operands, simplified, member⟩ := demands
  -- The operands of what is left are settled, so simplifying them again leaves them whole.
  have kept : simplify .precise scope operand = .ok operand := by
    cases settled_simplify simplified with
    | operation settled _ => exact simplify_of_settled (settled operand member)
  simp only [InvImage, remainder, simplified, kept]
  exact Expr.sizeOf_lt_of_mem member

/-- Resolution asks only for the operands that simplification leaves. -/
theorem terminates_resolveBody (scope : Scope) : Terminates (resolveBody scope) scope.Demands where
  wellFounded := scope.wellFounded_demands
  asksOnly := by
    intro first second expr agree
    simp only [resolveBody]
    -- Nothing is asked for unless an operation is left, and then only its operands.
    cases simplified : simplify .precise scope expr with
    | error cause => rfl
    | ok rest =>
      cases rest with
      | num value => rfl
      | var name => rfl
      | op name operands =>
        have operandwise := mapM_congr_of_mem fun operand (member : operand ∈ operands) =>
          agree operand ⟨name, operands, simplified, member⟩
        simp only [bind, Except.bind, operandwise]

/-- Resolution takes these steps. -/
theorem toNumber_eq_resolveBody (scope : Scope) :
    toNumber scope = resolveBody scope (toNumber scope) := by
  funext expr
  -- What is demanded of the simplified expression is what a second pass over it finds.
  rw [toNumber_eq_secondPass, resolveBody]
  cases simplify .precise scope expr with
  | error cause => rfl
  | ok rest => cases rest <;> rfl

end Resolution

/--
Simplification and resolution come to an end on every expression.

Whatever the variables are bound to, cycles included, neither recursion can go on forever: not the
one that goes from a variable to its value, and not the one that goes to the operands of what
simplification leaves. The limit on expansion plays no part in it: the steps without a limit have
one solution, and simplification and resolution are what it gives.
-/
theorem simplify_toNumber_terminate (scope : Scope) :
    (∀ mode, Terminates (simplifyBody mode scope) scope.Enters ∧
      ∃ walk, (∀ other, other = simplifyBody mode scope other ↔ other = walk) ∧
        ∀ expr, simplify mode scope expr = walk ([], expr)) ∧
    Terminates (resolveBody scope) scope.Demands ∧
      ∀ resolve, resolve = resolveBody scope resolve ↔ resolve = toNumber scope := by
  -- Both bodies make calls that come to an end, so each has one solution.
  refine ⟨fun mode => ?_, ?_⟩
  · have terminates := terminates_simplifyBody mode scope
    have solves := simplifyTask_eq_simplifyBody mode scope
    refine ⟨terminates, simplifyTask mode scope, fun other => ?_, fun _ => rfl⟩
    exact terminates.solution_iff solves other
  · have terminates := terminates_resolveBody scope
    have solves := toNumber_eq_resolveBody scope
    exact ⟨terminates, terminates.solution_iff solves⟩

end Calculator
