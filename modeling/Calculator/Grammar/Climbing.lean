import Calculator.Grammar.Piece

/-! Grouping a row of operands and operators by how tightly the operators bind. -/

namespace Calculator.Grammar

/-- Where an operator stands. -/
inductive Affix where
  /-- Before its operand. -/
  | leading
  /-- Between its operands, the left one taking in as much as it can. -/
  | groupingLeft
  /-- Between its operands, the right one taking in as much as it can. -/
  | groupingRight

/-- An operator by its place and by how tightly it binds. -/
structure Binding where
  affix : Affix
  strength : Nat

namespace Binding

/-- The strength above which operators to the right of this one still belong to its right operand.
A leading operator has no left operand and so does not stand there. -/
def rightFloor? : Binding → Option Nat
  | ⟨.leading, _⟩ => none
  | ⟨.groupingLeft, strength⟩ => some strength
  | ⟨.groupingRight, strength⟩ => some (strength - 1)

/-- The operators in layers, the loosest first: a minus sign binds looser than a power. -/
def layers : List (List (Rule × Affix)) :=
  [[(.add, .groupingLeft), (.subtract, .groupingLeft)],
    [(.multiply, .groupingLeft), (.divide, .groupingLeft)],
    [(.negate, .leading)],
    [(.power, .groupingRight)]]

/-- The binding of a rule's operator among some layers, the first of which has a given strength and
each other one ten more than the one before it. -/
def among? (strength : Nat) : List (List (Rule × Affix)) → Rule → Option Binding
  | [], _ => none
  | layer :: tighter, rule =>
    match layer.lookup rule with
    | some affix => some ⟨affix, strength⟩
    | none => among? (strength + 10) tighter rule

/-- The binding of a rule's operator. The other rules match operands. -/
def ofRule? : Rule → Option Binding := among? 20 layers

end Binding

/-- Why a row is not one of operands with operators between them, so that the climb breaks off. -/
inductive Fault where
  /-- The row ends where an operand must stand. -/
  | noOperand
  /-- An operator between operands stands where an operand must. -/
  | notOperand (rule : Rule)
  /-- An operand stands where an operator must. -/
  | notOperator (rule : Rule)
  /-- A leading operator stands where one between operands must. -/
  | notBetween (rule : Rule)

/-- What is said of a fault. -/
def Fault.message : Fault → String
  | noOperand => "Pratt parsing expects non-empty Pairs"
  | notOperand rule => s!"Expected prefix or primary expression, found {rule.name}"
  | notOperator rule => s!"Expected operator, found {rule.name}"
  | notBetween rule => s!"Expected postfix or infix expression, found {rule.name}"

/-- A piece of a row, with what it is worth as an operand. -/
structure Term (α : Type) where
  piece : Piece
  operand : Except Fault α

/-- What operators make of their operands. -/
structure Operators (α : Type) where
  lead : Piece → α → α
  join : α → Piece → α → α

/-- The value of the front of a row, with the rest of it, which is shorter than a bound. -/
structure Climbed (α : Type) (bound : Nat) where
  value : α
  rest : List (Term α)
  shorter : rest.length < bound

/-- A rest that is shorter than a bound is shorter than a larger one. -/
def Climbed.widen {α : Type} {bound larger : Nat} (climbed : Climbed α bound)
    (atMost : bound ≤ larger) : Climbed α larger :=
  ⟨climbed.value, climbed.rest, Nat.lt_of_lt_of_le climbed.shorter atMost⟩

mutual

/-- The first operand of a row, extended as long as the operators behind it bind tighter than
`floor`. -/
def climb {α : Type} (operators : Operators α) (floor : Nat) (row : List (Term α)) :
    Except Fault (Climbed α row.length) :=
  match row with
  | [] => .error .noOperand
  | term :: rest =>
    match Binding.ofRule? term.piece.rule with
    | none =>
      match term.operand with
      | .error fault => .error fault
      | .ok operand => extend operators floor operand rest
    | some ⟨.leading, strength⟩ =>
      match climb operators (strength - 1) rest with
      | .error fault => .error fault
      | .ok ⟨operand, last, shorter⟩ =>
        (extend operators floor (operators.lead term.piece operand) last).map
          (·.widen (Nat.succ_le_succ (Nat.le_of_lt shorter)))
    | some _ => .error (.notOperand term.piece.rule)
termination_by row.length

/-- The value on the left of a row, joined to operands of the row as long as the operators before
them bind tighter than `floor`. -/
def extend {α : Type} (operators : Operators α) (floor : Nat) (left : α) (row : List (Term α)) :
    Except Fault (Climbed α (row.length + 1)) :=
  match row with
  | [] => .ok ⟨left, [], Nat.lt_succ_self _⟩
  | term :: rest =>
    match Binding.ofRule? term.piece.rule with
    | none => .error (.notOperator term.piece.rule)
    | some binding =>
      if floor < binding.strength then
        match binding.rightFloor? with
        | none => .error (.notBetween term.piece.rule)
        | some rightFloor =>
          match climb operators rightFloor rest with
          | .error fault => .error fault
          | .ok ⟨right, last, shorter⟩ =>
            (extend operators floor (operators.join left term.piece right) last).map
              (·.widen (Nat.le_succ_of_le (Nat.succ_le_succ (Nat.le_of_lt shorter))))
      else .ok ⟨left, term :: rest, Nat.lt_succ_self _⟩
termination_by row.length

end

end Calculator.Grammar
