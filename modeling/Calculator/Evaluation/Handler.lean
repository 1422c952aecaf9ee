import Calculator.Evaluation.Machine

/-! Handlers: what operations do, and the registry that finds them by name. -/

namespace Calculator

/-- An operand of a dispatched operation: as it is written, and how it evaluates. -/
structure Argument where
  tree : Expr
  evaluate : Evaluation Expr

/-- An operation that is being dispatched. -/
structure Call where
  name : String
  arguments : List Argument

/-- The dispatched operation as it is written. -/
def Call.tree (call : Call) : Expr := .op call.name (call.arguments.map (·.tree))

/-- What an operation with a number of operands does. It decides which of them are evaluated, in
which order and how often.

It works on the machine and on its own operands. A handler that evaluates trees which it makes up
itself, or that looks operations up, is left out. -/
structure Handler where
  arity : Nat
  run : Call → Evaluation Expr

/-- The handler's public face. -/
def Handler.describe (handler : Handler) : String :=
  "Handler \x7b arity: " ++ toString handler.arity ++ ", .. \x7d"

/-- The operations that can be dispatched. -/
structure Registry where
  entries : List (String × Handler)

namespace Registry

/-- No operations. -/
def empty : Registry := ⟨[]⟩

/-- The handler of an operation. -/
def find? (registry : Registry) (name : String) : Option Handler := registry.entries.lookup name

/-- Adds an operation, in place of an older one of the same name. -/
def register (registry : Registry) (name : String) (handler : Handler) : Registry :=
  ⟨(name, handler) :: registry.entries.filter (·.1 != name)⟩

/-- The names of the operations, in the order of their characters. -/
def names (registry : Registry) : List String :=
  (registry.entries.map (·.1)).foldr Scope.insertName []

end Registry

end Calculator
