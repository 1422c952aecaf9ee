import Calculator.Expr.Basic

/-! The parts of an expression, and induction over its operands. -/

namespace Calculator.Expr

/-- What holds of an operation whenever it holds of its operands holds of every expression. -/
@[induction_eliminator]
theorem induction {motive : Expr → Prop} (num : ∀ value, motive (.num value))
    (var : ∀ name, motive (.var name))
    (op : ∀ name operands, (∀ operand ∈ operands, motive operand) → motive (.op name operands)) :
    ∀ expr, motive expr
  | .num value => num value
  | .var name => var name
  | .op name operands => op name operands fun operand _ => induction num var op operand

/-- The first expression stands somewhere in the second. -/
inductive IsPart (part : Expr) : Expr → Prop
  | whole : IsPart part part
  | operand {name : String} {operands : List Expr} {operand : Expr} :
      operand ∈ operands → IsPart part operand → IsPart part (.op name operands)

/-- The variable stands somewhere in the expression. -/
def Mentions (expr : Expr) (name : String) : Prop := IsPart (.var name) expr

/-- No variable stands in a number. -/
@[simp] theorem not_mentions_num (value : Float) (name : String) :
    ¬ (Expr.num value).Mentions name := by
  -- A number has no parts but itself.
  intro mentions
  cases mentions

/-- Only the variable itself stands in a variable. -/
@[simp] theorem mentions_var {name other : String} :
    (Expr.var name).Mentions other ↔ name = other := by
  -- A variable has no parts but itself.
  constructor
  · intro mentions
    cases mentions
    rfl
  · rintro rfl
    exact .whole

/-- A variable stands in an operation when it stands in one of the operands. -/
@[simp] theorem mentions_op {name other : String} {operands : List Expr} :
    (Expr.op name operands).Mentions other ↔ ∃ operand ∈ operands, operand.Mentions other := by
  -- A variable in an operation stands in one of its operands.
  constructor
  · intro mentions
    cases mentions with
    | operand member occurs => exact ⟨_, member, occurs⟩
  · rintro ⟨operand, member, occurs⟩
    exact .operand member occurs

/-- A variable stands in an operation with two operands when it stands in either. -/
theorem mentions_pair {name other : String} {left right : Expr} :
    (Expr.op name [left, right]).Mentions other ↔ left.Mentions other ∨ right.Mentions other := by
  -- There are two operands to look at.
  simp

end Calculator.Expr
