import Calculator.Evaluation.Custom
import Calculator.Proofs.Evaluation.Randomness
import Calculator.Proofs.Evaluation.Totality

/-! Registration: what a registered operation changes, and what it leaves alone. -/

namespace Calculator

/-- Evaluation asks the registry for the operations that stand in the expression and for no others,
whatever the handlers of these do with their operands. -/
theorem evaluate_eq_of_find? {registry other : Registry} {expr : Expr}
    (same : ∀ name, expr.Applies name → other.find? name = registry.find? name) :
    evaluate other expr = evaluate registry expr := by
  induction expr with
  | num value => rw [evaluate, evaluate]
  | var name =>
    -- The value of a variable may hold any operations, but it is not evaluated again.
    rw [evaluate, evaluate]
  | op name operands ih =>
    -- A handler is given evaluations of its operands only, and these are the same by induction.
    have operandwise : arguments other operands = arguments registry operands := by
      rw [arguments_eq_map, arguments_eq_map]
      apply List.map_congr_left
      intro operand member
      have inner : evaluate other operand = evaluate registry operand := by
        apply ih operand member
        intro applied applies
        exact same applied (Expr.applies_op.mpr (.inr ⟨operand, member, applies⟩))
      rw [inner]
    have found : other.find? name = registry.find? name :=
      same name (Expr.applies_op.mpr (.inl rfl))
    rw [evaluate, evaluate, operandwise, found]

/-- Registering an operation does not change the evaluation of expressions without it. -/
theorem evaluate_register (registry : Registry) {name : String} (handler : Handler) {expr : Expr}
    (absent : ¬ expr.Applies name) :
    evaluate (registry.register name handler) expr = evaluate registry expr := by
  apply evaluate_eq_of_find?
  intro applied applies
  -- Every operation in the expression has another name, so it is found as before.
  rw [Registry.find?_register, if_neg]
  rintro rfl
  exact absent applies

/-- A registered operation with its number of operands is run by its handler. -/
theorem evaluate_registered (registry : Registry) (name : String) (handler : Handler)
    {operands : List Expr} (arity : operands.length = handler.arity) :
    evaluate (registry.register name handler) (.op name operands) =
      handler.run ⟨name, arguments (registry.register name handler) operands⟩ := by
  -- The lookup finds what was registered under the name.
  have found : (registry.register name handler).find? name = some handler := by
    rw [Registry.find?_register, if_pos rfl]
  rw [evaluate, found]
  exact if_pos arity

/--
Registering an operation is a conservative extension.

The handler may be any function of the call and the machine, and its name may be new or that of a
built-in operation. An expression in which no operation has this name is evaluated as before: to the
same result or the same failure, with the same variables, plots and random source afterwards,
whatever operations stand in the values of the variables. Where an operation has the name, the new
handler runs.
-/
theorem register_extends_conservatively (name : String) (handler : Handler) :
    let extended := Registry.builtin.register name handler
    (∀ (expr : Expr) (machine : Machine), ¬ expr.Applies name →
      (evaluate extended expr).answer machine = (evaluate .builtin expr).answer machine ∧
      ((evaluate extended expr).after machine).scope =
        ((evaluate .builtin expr).after machine).scope ∧
      ((evaluate extended expr).after machine).sink =
        ((evaluate .builtin expr).after machine).sink ∧
      ((evaluate extended expr).after machine).random =
        ((evaluate .builtin expr).after machine).random) ∧
    ∀ operands : List Expr, operands.length = handler.arity →
      evaluate extended (.op name operands) = handler.run ⟨name, arguments extended operands⟩ := by
  -- What is not applied is not looked up, and what is applied is found at once.
  intro extended
  constructor
  · intro expr machine absent
    have same : evaluate extended expr = evaluate .builtin expr :=
      evaluate_register .builtin handler absent
    rw [same]
    exact ⟨rfl, rfl, rfl, rfl⟩
  · intro operands arity
    exact evaluate_registered .builtin name handler arity

/-- With an addition that always refuses, a product is still simplified although its factor stands
for an addition, and only an addition in the expression itself is refused. -/
theorem register_extends_conservatively_refusing :
    let machine : Machine :=
      ⟨⟨[], ⟨[("x", .op "+" [.num 1, .var "y"])]⟩⟩, .recording [], .ofSeed 7⟩
    let extended := Registry.builtin.register "+" ⟨2, Operation.refusal⟩
    (evaluate extended (.op "simplify" [.op "*" [.var "x", .num 2]])).answer machine =
        .ok (.op "*" [.op "+" [.num 1, .var "y"], .num 2]) ∧
      (evaluate extended (.op "+" [.var "x", .num 2])).answer machine =
        .error (.refused "refused x + 2") := by
  -- The first tree does not apply the name, although the value of a variable does.
  intro machine extended
  obtain ⟨conservative, dispatched⟩ := register_extends_conservatively "+" ⟨2, Operation.refusal⟩
  have absent : ¬ (Expr.op "simplify" [.op "*" [.var "x", .num 2]]).Applies "+" := by simp
  constructor
  · rw [(conservative _ machine absent).1]
    rfl
  · rw [dispatched [.var "x", .num 2] rfl]
    rfl

end Calculator
