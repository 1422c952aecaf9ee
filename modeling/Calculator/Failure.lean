import Calculator.Expr.Printer
import Calculator.Grammar.Climbing
import Calculator.Grammar.Report

/-! Why an input has no result, and how that is said. -/

namespace Calculator

/-- Why an evaluation stopped. -/
inductive EvalError where
  /-- No handler is registered under the name. -/
  | unknownOperation (name : String)
  /-- The operation was given the wrong number of operands. -/
  | wrongArity (name : String) (expected given : Nat)
  /-- A handler needs more operands than its registration asks for. -/
  | missingOperand (name : String)
  /-- Something other than a variable was to be assigned to. -/
  | notAssignable (target : Expr)
  /-- Something other than a number stands where a number must. -/
  | notNumber (role : String) (found : Expr)
  /-- An expression that must have a numeric value has none. -/
  | unresolved (role : String) (found : Expr) (cause : EvalError)
  /-- A loop was given no variable to bind. -/
  | invalidLoopVariable (construct : String) (found : Expr)
  /-- A variable without a binding has no numeric value. -/
  | undefinedVariable (name : String)
  /-- A variable is defined through itself. -/
  | recursiveDefinition (name : String)
  /-- A number other than zero is divided by zero. -/
  | divisionByZero (dividend : Float)
  /-- The operation has no numeric value. -/
  | notNumeric (name : String)
  /-- A repetition count is below zero. -/
  | negativeCount (count : Float)
  /-- A repetition count is infinite or not a number. -/
  | infiniteCount
  /-- A bound or the step of a loop is infinite or not a number. -/
  | infiniteBounds
  /-- A loop cannot advance by nothing. -/
  | zeroStep
  /-- The variable that a construct binds is bound already. -/
  | alreadyDefined (construct name : String)
  /-- Adding the step does not change the counter. -/
  | stepTooSmall (construct : String) (step counter : Float)
  /-- The range of a plot is empty. -/
  | reversedRange (minimum maximum : Float)
  /-- The step of a plot is not above zero. -/
  | stepNotPositive (step : Float)
  /-- The range or the step of a plot is infinite or not a number. -/
  | infiniteRange
  /-- The columns of a plot have different lengths. -/
  | unequalColumns (xs ys : Nat)
  /-- A piece of the text stands where no piece of its rule can. -/
  | unexpectedPiece (rule : Grammar.Rule)
  /-- The text of a number is not one. -/
  | invalidNumber (text : String)
  /-- A registered handler or an enclosing construct refused, in its own words. -/
  | refused (reason : String)

namespace EvalError

/-- The lead of every message on a failed evaluation. -/
def lead : String := "Evaluation error: "

/-- What is wrong, without the lead. -/
def reason : EvalError → String
  | unknownOperation name => s!"Unknown operation: {name}"
  | wrongArity name expected given =>
    let plural := if expected = 1 then "" else "s"
    s!"{name} expects {expected} argument{plural}; {given} given"
  | missingOperand name => s!"{name}: missing operand"
  | notAssignable target => s!"Cannot assign to {target.text}; the left side must be a variable"
  | notNumber role found => s!"{role}: expected a number but got {found.text}"
  | unresolved role found cause =>
    s!"{role}: expected a number but got {found.text} ({lead}{cause.reason})"
  | invalidLoopVariable construct found => s!"{construct}: invalid loop variable {found.text}"
  | undefinedVariable name => s!"Undefined variable {name}"
  | recursiveDefinition name => s!"Recursive definition of variable {name}"
  | divisionByZero dividend => s!"Division by zero in {numberText dividend} / 0"
  | notNumeric name => s!"Cannot convert {name} to a number"
  | negativeCount count => s!"repeat: count cannot be negative; {numberText count} given"
  | infiniteCount => "repeat: count must be finite"
  | infiniteBounds => "for: bounds and step must be finite"
  | zeroStep => "for: step must be nonzero"
  | alreadyDefined construct name => s!"{construct}: variable {name} is already defined"
  | stepTooSmall construct step counter =>
    s!"{construct}: step {numberText step} too small to advance from {numberText counter}"
  | reversedRange minimum maximum =>
    s!"plot: minimum {numberText minimum} is greater than maximum {numberText maximum}"
  | stepNotPositive step => s!"plot: step must be positive; {numberText step} given"
  | infiniteRange => "plot: range and step must be finite"
  | unequalColumns xs ys => s!"Plot: {xs} x values but {ys} y values"
  | unexpectedPiece rule => s!"Unexpected syntax node {rule.name}"
  | invalidNumber "" => "Invalid number : cannot parse float from empty string"
  | invalidNumber text => s!"Invalid number {text}: invalid float literal"
  | refused reason => reason

/-- The message on a failed evaluation. -/
def message (error : EvalError) : String := lead ++ error.reason

end EvalError

/-- Why an input has no result. -/
inductive Failure where
  /-- The text does not fit the grammar. -/
  | parse (error : Grammar.ParseError)
  /-- There is nothing but white space. -/
  | emptyInput
  /-- The expression could not be built or evaluated. -/
  | evaluation (error : EvalError)
  /-- The operands and operators of an expression are out of order, and nothing goes on. -/
  | outOfOrder (fault : Grammar.Fault)

namespace Failure

/-- The message on a failure. -/
def message : Failure → String
  | parse error => "Parse error: " ++ error.message
  | emptyInput => "Empty input"
  | evaluation error => error.message
  | outOfOrder fault => fault.message

end Failure

end Calculator
