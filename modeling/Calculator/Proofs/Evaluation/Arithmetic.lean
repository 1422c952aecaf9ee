import Calculator.Evaluation.Builtin
import Calculator.Evaluation.Evaluate
import Calculator.Proofs.Evaluation.Invariant
import Calculator.Proofs.Resolution.BigStep
import Calculator.Proofs.Simplification.Cycles

/-! Arithmetic evaluated first and resolved afterwards gives the number that it stands for as it is
written. -/

namespace Calculator

/-- Numbers and variables, and arithmetic on them with the operands that it takes. -/
inductive Expr.IsArithmetic : Expr → Prop
  | num (value : Float) : IsArithmetic (.num value)
  | var (name : String) : IsArithmetic (.var name)
  | binary {name : String} {left right : Expr} (operator : name ∈ ["+", "-", "*", "/", "^"])
      (leftArithmetic : IsArithmetic left) (rightArithmetic : IsArithmetic right) :
      IsArithmetic (.op name [left, right])
  | unary {name : String} {operand : Expr} (function : name ∈ ["negate", "sin", "cos"])
      (arithmetic : IsArithmetic operand) : IsArithmetic (.op name [operand])

/-- In both modes the expressions simplify to the same, or both fail to. -/
def Scope.Alike (scope : Scope) (expr other : Expr) : Prop :=
  ∀ mode tree, simplify mode scope expr = .ok tree ↔ simplify mode scope other = .ok tree

namespace Scope.Alike

variable {scope : Scope} {name : String}

/-- Operations are alike if their operands are. -/
theorem op {operands others : List Expr} (pairs : List.Forall₂ scope.Alike operands others) :
    scope.Alike (.op name operands) (.op name others) := by
  intro mode tree
  -- Paired operands succeed together, so the two lists of operands do.
  have operandwise (trees : List Expr) :
      List.Forall₂ (fun operand tree => simplify mode scope operand = .ok tree) operands trees ↔
        List.Forall₂ (fun operand tree => simplify mode scope operand = .ok tree) others trees := by
    induction pairs generalizing trees with
    | nil => rfl
    | cons head _ ih => simp only [List.forall₂_cons_left_iff, head mode, ih]
  -- The operation succeeds when its operands do and folding what they give does.
  simp only [simplify_op_eq_ok, operandwise]

/-- What an operation folds to symbolically is like the operation. -/
theorem of_fold {operands : List Expr} {result : Expr}
    (folded : fold .symbolic name operands = .ok result) :
    scope.Alike result (.op name operands) := by
  intro mode tree
  -- The two reduce to the same, and fail for the same reason.
  rw [simplify, simplify, reduce_of_fold_symbolic folded]

/-- Two expressions that are like a third one in turn are alike. -/
theorem trans {first second third : Expr} (left : scope.Alike first second)
    (right : scope.Alike second third) : scope.Alike first third :=
  fun mode tree => (left mode tree).trans (right mode tree)

/-- Expressions that are alike stand for the same number, or neither stands for one. -/
theorem toNumber {expr other : Expr} (alike : scope.Alike expr other) (value : Float) :
    toNumber scope expr = .ok value ↔ toNumber scope other = .ok value := by
  -- An expression stands for a number exactly when it simplifies to that number.
  rw [toNumber_eq_ok_iff, toNumber_eq_ok_iff]
  exact alike .precise (.num value)

end Scope.Alike

section Evaluation

variable {machine : Machine} {name : String} {operands results : List Expr}

/-- Operands that evaluate without touching the machine do so one after another. -/
theorem evaluateAll_arguments {registry : Registry}
    (evaluated : List.Forall₂ (fun operand result =>
      evaluate registry operand machine = .ok result machine) operands results) :
    Argument.evaluateAll (arguments registry operands) machine = .ok results machine := by
  -- Each operand finds the machine as the one before it did.
  induction evaluated with
  | nil => rfl
  | cons head _ ih =>
    simp only [arguments, Argument.evaluateAll, bind, EStateM.bind, head, ih]
    rfl

/-- An arithmetic operation evaluates to what the results of its operands fold to. -/
theorem evaluate_fold {result : Expr}
    (found : Registry.builtin.find? name = some ⟨operands.length, Operation.arithmetic⟩)
    (evaluated : List.Forall₂ (fun operand result =>
      evaluate .builtin operand machine = .ok result machine) operands results)
    (folded : fold .symbolic name results = .ok result) :
    evaluate .builtin (.op name operands) machine = .ok result machine := by
  -- Dispatch finds the operation, which evaluates its operands and folds what they gave.
  have all := evaluateAll_arguments evaluated
  rw [evaluate, found]
  simp only [if_true, Operation.arithmetic, bind, EStateM.bind, all, folded]
  rfl

/-- An arithmetic operation on operands that evaluate to expressions like themselves does so too,
and leaves the machine untouched. -/
theorem evaluate_operation
    (found : Registry.builtin.find? name = some ⟨operands.length, Operation.arithmetic⟩)
    (evaluated : List.Forall₂ (fun operand result =>
      evaluate .builtin operand machine = .ok result machine ∧
        machine.scope.Alike result operand) operands results) :
    ∃ result, evaluate .builtin (.op name operands) machine = .ok result machine ∧
      machine.scope.Alike result (.op name operands) := by
  -- Folding is symbolic here, and that never fails.
  obtain ⟨result, folded⟩ := exists_fold_symbolic name results
  refine ⟨result, evaluate_fold found (evaluated.imp fun _ _ both => both.1) folded, ?_⟩
  -- The result is like the operation on what the operands gave, and that is like the operands.
  have pairs : List.Forall₂ machine.scope.Alike results operands :=
    List.Forall₂.flip (evaluated.imp fun _ _ both => both.2)
  exact (Scope.Alike.of_fold folded).trans (.op pairs)

/-- The arithmetic operators are dispatched with two operands. -/
theorem find?_binary (operator : name ∈ ["+", "-", "*", "/", "^"]) :
    Registry.builtin.find? name = some ⟨2, Operation.arithmetic⟩ := by
  -- The five operators are looked up one by one.
  simp only [List.mem_cons, List.not_mem_nil, or_false] at operator
  rcases operator with rfl | rfl | rfl | rfl | rfl <;> rfl

/-- The arithmetic functions are dispatched with one operand. -/
theorem find?_unary (function : name ∈ ["negate", "sin", "cos"]) :
    Registry.builtin.find? name = some ⟨1, Operation.arithmetic⟩ := by
  -- The three functions are looked up one by one.
  simp only [List.mem_cons, List.not_mem_nil, or_false] at function
  rcases function with rfl | rfl | rfl <;> rfl

/-- Arithmetic evaluates to an expression like itself and leaves the machine untouched. -/
theorem evaluate_arithmetic (machine : Machine) {expr : Expr} (arithmetic : expr.IsArithmetic) :
    ∃ result, evaluate .builtin expr machine = .ok result machine ∧
      machine.scope.Alike result expr := by
  -- The induction is on the tree as it is written; values of variables are not looked into.
  induction arithmetic with
  | num value => exact ⟨.num value, rfl, fun _ _ => .rfl⟩
  | var name =>
    have evaluated : evaluate .builtin (.var name) machine =
        .ok ((machine.scope.get? name).getD (.var name)) machine := by
      rw [evaluate]
      rfl
    cases bound : machine.scope.get? name with
    | none =>
      rw [bound] at evaluated
      exact ⟨.var name, evaluated, fun _ _ => .rfl⟩
    | some value =>
      -- One level of the definitions is replaced, whatever cycles lie behind it.
      rw [bound] at evaluated
      exact ⟨value, evaluated, fun _ _ => simplify_value_eq_ok_iff bound⟩
  | @binary name left right operator _ _ leftIh rightIh =>
    obtain ⟨leftResult, leftBoth⟩ := leftIh
    obtain ⟨rightResult, rightBoth⟩ := rightIh
    exact evaluate_operation (find?_binary operator) (.cons leftBoth (.cons rightBoth .nil))
  | @unary name operand function _ ih =>
    obtain ⟨result, both⟩ := ih
    exact evaluate_operation (find?_unary function) (.cons both .nil)

end Evaluation

section Paths

variable {machine : Machine} {argument : Argument} {value : Float}

/-- A result that is passed on is the value returned, and the machine is left as it is. -/
theorem ofExcept_eq_ok_iff {α : Type} (machine : Machine) {result : Except EvalError α}
    {value : α} :
    Evaluation.ofExcept result machine = .ok value machine ↔ result = .ok value := by
  -- What is passed on is the outcome itself, on the same machine.
  constructor
  · exact Evaluation.ofExcept_eq_ok
  · intro passed
    rw [passed]
    rfl

/-- Resolving an expression in some role finds the number that it stands for. -/
theorem resolveNumber_eq_ok_iff (scope : Scope) (role : String) (expr : Expr) :
    resolveNumber scope role expr = .ok value ↔ toNumber scope expr = .ok value := by
  unfold resolveNumber
  split
  · -- A number is not simplified, and that would not change it.
    rfl
  · -- The role only changes what a failure says.
    cases toNumber scope expr <;> simp

/-- An operand that evaluates without touching the machine is resolved to the number of its
result. -/
theorem resolve_eq_ok_iff {role : String} {result : Expr}
    (evaluated : argument.evaluate machine = .ok result machine) :
    argument.resolve role machine = .ok value machine ↔
      toNumber machine.scope result = .ok value := by
  -- After the operand is evaluated, only the conversion of its result is left.
  have resolved : argument.resolve role machine =
      Evaluation.ofExcept (resolveNumber machine.scope role result) machine := by
    simp only [Argument.resolve, bind, EStateM.bind, evaluated]
    rfl
  rw [resolved, ofExcept_eq_ok_iff, resolveNumber_eq_ok_iff]

/-- An operand is measured by the number that it stands for as it is written. -/
theorem measure_eq_ok_iff :
    argument.measure machine = .ok value machine ↔
      toNumber machine.scope argument.tree = .ok value :=
  ofExcept_eq_ok_iff machine

end Paths

/--
Arithmetic may be evaluated before it is resolved.

Evaluation succeeds and leaves the machine untouched. Its result and the expression as it is written
simplify to the same in each mode, or both fail to, also where variables are bound to expressions or
defined through themselves. So they stand for the same number, and an operand that is resolved has
the number that it is measured by.
-/
theorem evaluate_arithmetic_resolves_alike (machine : Machine) (expr : Expr)
    (arithmetic : expr.IsArithmetic) :
    ∃ result, evaluate .builtin expr machine = .ok result machine ∧
      (∀ mode tree, simplify mode machine.scope result = .ok tree ↔
        simplify mode machine.scope expr = .ok tree) ∧
      (∀ value, toNumber machine.scope result = .ok value ↔
        toNumber machine.scope expr = .ok value) ∧
      ∀ role value,
        Argument.resolve ⟨expr, evaluate .builtin expr⟩ role machine = .ok value machine ↔
          Argument.measure ⟨expr, evaluate .builtin expr⟩ machine = .ok value machine := by
  obtain ⟨result, evaluated, alike⟩ := evaluate_arithmetic machine arithmetic
  refine ⟨result, evaluated, alike, alike.toNumber, fun role value => ?_⟩
  -- One path resolves the result of evaluation, the other the expression as it is written.
  rw [resolve_eq_ok_iff evaluated, measure_eq_ok_iff]
  exact alike.toNumber value

/-- `x` and `y` are bound to expressions, and `c` and `d` are defined through each other. -/
private def chainedMachine : Machine :=
  ⟨⟨[⟨[("y", .op "/" [.num 3, .num 2])]⟩],
    ⟨[("x", .op "+" [.var "y", .num 1]), ("c", .op "*" [.num 2, .var "d"]), ("d", .var "c")]⟩⟩,
    .recording [], .ofSeed 7⟩

/-- A ratio that evaluation leaves symbolic has the value one, as it has before evaluation, and a
sum over a cycle, of which evaluation replaces one step, is simplified in neither mode. -/
theorem evaluate_arithmetic_resolves_alike_samples :
    (∃ result, evaluate .builtin (.op "/" [.op "negate" [.var "x"], .op "-" [.var "y", .num 4]])
        chainedMachine = .ok result chainedMachine ∧
      toNumber chainedMachine.scope result = .ok 1) ∧
    ∃ result, evaluate .builtin (.op "+" [.var "x", .var "c"]) chainedMachine =
        .ok result chainedMachine ∧
      ∀ mode tree, simplify mode chainedMachine.scope result ≠ .ok tree := by
  obtain ⟨ratio, evaluated, _, number, _⟩ := evaluate_arithmetic_resolves_alike chainedMachine
    (.op "/" [.op "negate" [.var "x"], .op "-" [.var "y", .num 4]])
    (.binary (by decide) (.unary (by decide) (.var "x"))
      (.binary (by decide) (.var "y") (.num 4)))
  obtain ⟨sum, evaluatedSum, alike, _⟩ := evaluate_arithmetic_resolves_alike chainedMachine
    (.op "+" [.var "x", .var "c"]) (.binary (by decide) (.var "x") (.var "c"))
  refine ⟨⟨ratio, evaluated, (number 1).mpr rfl⟩, sum, evaluatedSum, fun mode tree simplified => ?_⟩
  -- As it is written, the sum fails at the cycle in both modes.
  have found := (alike mode tree).mp simplified
  cases mode with
  | symbolic => cases found
  | precise => cases found

end Calculator
