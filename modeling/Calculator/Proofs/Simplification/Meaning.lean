import Calculator.Proofs.Simplification.NormalForm
import Calculator.Resolution

/-! Symbolic simplification keeps the meaning: what it leaves has the same precise result. -/

namespace Calculator

/-- A quotient with a value in the symbolic mode has it in both modes. -/
theorem Primitive.quotient?_of_symbolic {a b value : Float}
    (valued : Primitive.quotient? .symbolic a b = .ok (some value)) (mode : Mode) :
    Primitive.quotient? mode a b = .ok (some value) := by
  -- The symbolic mode divides only equal operands, which are looked for before the mode is.
  unfold Primitive.quotient? at valued ⊢
  split at valued
  · next equal =>
    rw [if_pos equal]
    exact valued
  · cases valued

/-- An operation with a value in the symbolic mode has it in both modes. -/
theorem Primitive.value?_of_symbolic {primitive : Primitive} {values : List Float} {value : Float}
    (valued : primitive.value? .symbolic values = .ok (some value)) (mode : Mode) :
    primitive.value? mode values = .ok (some value) := by
  -- One case for each operation with the operands that it takes, and one for all the rest.
  unfold Primitive.value? at valued
  split at valued
  · exact valued
  -- Sines and cosines have no value in the symbolic mode.
  · cases valued
  · cases valued
  · exact valued
  · exact valued
  · exact valued
  · exact quotient?_of_symbolic valued mode
  · exact valued
  · cases valued

/-- A quotient never fails in the symbolic mode. -/
theorem Primitive.exists_quotient?_symbolic (a b : Float) :
    ∃ outcome, Primitive.quotient? .symbolic a b = .ok outcome := by
  -- Division by zero is left to the precise mode.
  unfold Primitive.quotient?
  split
  · exact ⟨_, rfl⟩
  · exact ⟨_, rfl⟩

/-- No operation fails on numbers in the symbolic mode. -/
theorem Primitive.exists_value?_symbolic (primitive : Primitive) (values : List Float) :
    ∃ outcome, primitive.value? .symbolic values = .ok outcome := by
  unfold Primitive.value?
  split
  -- Division alone looks at its operands before it has an outcome.
  case h_7 a b => exact exists_quotient?_symbolic a b
  all_goals exact ⟨_, rfl⟩

section Folding

variable {name : String} {operands : List Expr} {result : Expr}

/-- Folding never fails in the symbolic mode. -/
theorem exists_fold_symbolic (name : String) (operands : List Expr) :
    ∃ result, fold .symbolic name operands = .ok result := by
  -- Folding fails only as the operation does on numbers.
  obtain kept | ⟨primitive, values, _, _, ⟨value, _, gives⟩ | ⟨cause, valued, _⟩⟩ :=
    fold_cases .symbolic name operands
  · exact ⟨_, kept⟩
  · exact ⟨_, gives⟩
  · obtain ⟨outcome, found⟩ := primitive.exists_value?_symbolic values
    cases found.symm.trans valued

/-- What symbolic folding gives reduces to what the operation itself reduces to, in both modes. -/
theorem reduce_of_fold_symbolic (folded : fold .symbolic name operands = .ok result) (mode : Mode)
    (replace : String → Except EvalError Expr) :
    result.reduce mode replace = (Expr.op name operands).reduce mode replace := by
  -- A symbolic value is a value in both modes, so folding early loses nothing.
  obtain kept | ⟨primitive, values, named, numbers, ⟨value, valued, gives⟩ | ⟨cause, _, fails⟩⟩ :=
    fold_cases .symbolic name operands
  · -- The operation is still there.
    rw [kept] at folded
    cases folded
    rfl
  · -- The operands are numbers, which reduce to themselves and are folded to the same number.
    rw [gives] at folded
    cases folded
    have again := fold_eq_num.mpr
      ⟨primitive, values, named, numbers, Primitive.value?_of_symbolic valued mode⟩
    have reduced : List.Forall₂ (fun operand result => operand.reduce mode replace = .ok result)
        operands operands := by
      rw [List.forall₂_same, numbers]
      simp [Expr.reduce]
    rw [reduce_op_eq_ok.mpr ⟨operands, reduced, again⟩, Expr.reduce]
  · rw [fails] at folded
    cases folded

end Folding

section Refinement

variable {scope : Scope} {expr result : Expr}

/-- Symbolic reduction leaves the precise result, if that is so for the variables. -/
theorem reduce_precise_of_symbolic {symbolic precise later : String → Except EvalError Expr}
    (replaces : ∀ name result, symbolic name = .ok result →
      result.reduce .precise later = precise name)
    (reduced : expr.reduce .symbolic symbolic = .ok result) :
    result.reduce .precise later = expr.reduce .precise precise := by
  -- The induction is on the tree; operands fail in the same order on both sides.
  induction expr generalizing result with
  | num value =>
    rw [Expr.reduce] at reduced
    cases reduced
    rw [Expr.reduce, Expr.reduce]
  | var name =>
    rw [Expr.reduce] at reduced
    rw [replaces name result reduced, Expr.reduce]
  | op name operands ih =>
    obtain ⟨results, reducedAll, folded⟩ := reduce_op_eq_ok.mp reduced
    -- Each operand that was left has the precise result of the operand that it came from.
    have operandwise : results.mapM (·.reduce .precise later) =
        operands.mapM (·.reduce .precise precise) := by
      refine mapM_eq_of_forall₂ (List.Forall₂.flip ?_)
      exact forall₂_imp_of_mem reducedAll fun operand member rest => ih operand member
    rw [reduce_of_fold_symbolic folded, reduce_op, reduce_op, operandwise]

/-- Symbolic expansion of a variable leaves its precise expansion. -/
theorem expand_precise_of_symbolic {limit : Nat} {expanding : List String} {name : String}
    {later : String → Except EvalError Expr}
    (keeps : ∀ name, scope.get? name = none → later name = .ok (.var name))
    (expanded : expand .symbolic scope limit expanding name = .ok result) :
    result.reduce .precise later = expand .precise scope limit expanding name := by
  -- Both expansions follow the same chain of bindings, and where one is blocked so is the other.
  induction limit, expanding, name using expand_induction scope generalizing result with
  | unbound limit expanding name unbound =>
    rw [expand_of_unbound unbound] at expanded ⊢
    cases expanded
    rw [Expr.reduce, keeps name unbound]
  | blocked limit expanding name value bound blocked =>
    rw [expand_of_blocked bound blocked] at expanded
    cases expanded
  | fresh limit expanding name value bound fresh ih =>
    rw [expand_succ_of_fresh bound fresh] at expanded ⊢
    exact reduce_precise_of_symbolic (fun inner _ replaced => ih inner replaced) expanded

end Refinement

/-- An expression that was simplified symbolically still has the precise result that it had before,
the failure included, and it stands for the same number or fails to for the same reason. -/
theorem simplify_symbolic_keeps_meaning (scope : Scope) (expr result : Expr)
    (simplified : simplify .symbolic scope expr = .ok result) :
    simplify .precise scope result = simplify .precise scope expr ∧
      toNumber scope result = toNumber scope expr := by
  -- The second simplification meets unbound variables only, and these it keeps.
  have same : simplify .precise scope result = simplify .precise scope expr :=
    reduce_precise_of_symbolic
      (fun _ _ expanded => expand_precise_of_symbolic (fun _ => expand_of_unbound) expanded)
      simplified
  refine ⟨same, ?_⟩
  -- A number is demanded of the precise result alone.
  rw [toNumber, toNumber, same]

/-- A quotient by a variable that is bound to zero. -/
private def quotientScope : Scope :=
  ⟨[], ⟨[("x", .op "/" [.num 1, .var "y"]), ("y", .num 0)]⟩⟩

/-- A sine and a division by zero are left symbolically, and the division fails as it would have
failed before. -/
theorem simplify_symbolic_keeps_meaning_samples :
    simplify .symbolic quotientScope
        (.op "+" [.op "sin" [.op "/" [.num 2, .num 2]], .var "x"]) =
      .ok (.op "+" [.op "sin" [.num 1], .op "/" [.num 1, .num 0]]) ∧
    simplify .precise quotientScope (.op "+" [.op "sin" [.num 1], .op "/" [.num 1, .num 0]]) =
      .error (.divisionByZero 1) ∧
    toNumber quotientScope (.op "+" [.op "sin" [.num 1], .op "/" [.num 1, .num 0]]) =
      .error (.divisionByZero 1) := by
  -- Both failures are those of the sum before it was simplified.
  have simplified : simplify .symbolic quotientScope
      (.op "+" [.op "sin" [.op "/" [.num 2, .num 2]], .var "x"]) =
        .ok (.op "+" [.op "sin" [.num 1], .op "/" [.num 1, .num 0]]) := rfl
  obtain ⟨precise, number⟩ := simplify_symbolic_keeps_meaning _ _ _ simplified
  exact ⟨simplified, precise.trans rfl, number.trans rfl⟩

end Calculator
