import Calculator.Evaluation.Handler
import Calculator.Evaluation.Progression

/-! The built-in operations. -/

namespace Calculator

namespace Argument

/-- Evaluates an operand to a number, resolving what it evaluates to. -/
def resolve (argument : Argument) (role : String) : Evaluation Float := do
  let value ← argument.evaluate
  .ofExcept (resolveNumber (← .scope) role value)

/-- Evaluates an operand to an expression that must be a number. -/
def require (argument : Argument) (role : String) : Evaluation Expr := do
  let value ← argument.evaluate
  discard <| .ofExcept (requireNumber role value)
  return value

/-- The number that an operand stands for as it is written. -/
def measure (argument : Argument) : Evaluation Float := do
  .ofExcept (toNumber (← .scope) argument.tree)

/-- Evaluates operands in order. -/
def evaluateAll : List Argument → Evaluation (List Expr)
  | [] => return []
  | first :: rest => do
    let first ← first.evaluate
    let rest ← evaluateAll rest
    return first :: rest

end Argument

namespace Operation

/-- Evaluates the operands and folds the operation under its own name. -/
def arithmetic (call : Call) : Evaluation Expr := do
  .ofExcept (fold .symbolic call.name (← Argument.evaluateAll call.arguments))

/-- The number that the operand stands for. -/
def toDouble (call : Call) : Evaluation Expr :=
  match call.arguments with
  | operand :: _ => return .num (← operand.measure)
  | _ => throw (.missingOperand call.name)

/-- The operand, simplified as it is written. -/
def simplified (call : Call) : Evaluation Expr :=
  match call.arguments with
  | operand :: _ => do .ofExcept (simplify .symbolic (← .scope) operand.tree)
  | _ => throw (.missingOperand call.name)

/-- Gives a variable a value, which is also the result. -/
def assign (call : Call) : Evaluation Expr :=
  match call.arguments with
  | target :: value :: _ =>
    match target.tree with
    | .var name => do
      let value ← value.evaluate
      Evaluation.modifyScope (·.assign name value)
      return value
    | other => throw (.notAssignable other)
  | _ => throw (.missingOperand call.name)

/-- Chooses the first branch when the condition is above zero, else the second. -/
def choose (call : Call) : Evaluation Expr :=
  match call.arguments with
  | condition :: positive :: otherwise :: _ => do
    let condition ← condition.resolve "if: invalid condition"
    let branch := if condition > 0 then positive else otherwise
    branch.require "if: invalid body/else"
  | _ => throw (.missingOperand call.name)

/-- Evaluates a body a number of times; the result is the last one, or `last` if there is none. -/
def times (body : Argument) : (count : Nat) → (last : Expr) → Evaluation Expr
  | 0, last => return last
  | count + 1, _ => do times body count (← body.require "repeat: invalid body")

/-- Repeats the body as often as the count has whole ones. -/
def repeated (call : Call) : Evaluation Expr :=
  match call.arguments with
  | count :: body :: _ => do
    let count ← count.resolve "repeat: invalid repeat count"
    if count < 0 then throw (.negativeCount count)
    if !count.isFinite then throw .infiniteCount
    times body count.toUInt64.toNat (.num 0)
  | _ => throw (.missingOperand call.name)

/-- A number's share in a sum; other expressions have none. -/
def addend (sum : Float) : Expr → Float
  | .num value => sum + value
  | .var _ | .op _ _ => sum

/-- What a sum settles before it starts: its variable, its first counter and the counters' range.
Counting down starts one step below the start, and a variable that is already bound is refused. -/
def sumRange (start stop counter step : Argument) :
    Evaluation (String × Float × Progression) := do
  let start ← start.resolve "for: invalid start"
  let stop ← stop.resolve "for: invalid end"
  let name ← .ofExcept (boundVariable "for" counter.tree)
  let step ← step.resolve "for: invalid step"
  if !(start.isFinite && stop.isFinite && step.isFinite) then throw .infiniteBounds
  if step == 0 then throw .zeroStep
  if (← Evaluation.scope).contains name then throw (.alreadyDefined "for" name)
  return (name, if step < 0 then start + step else start, ⟨stop, step⟩)

/-- Sums the body over the counters from the start to before the end. -/
def summed (call : Call) : Evaluation Expr :=
  match call.arguments with
  | start :: stop :: counter :: step :: body :: _ => do
    let (name, first, progression) ← sumRange start stop counter step
    let visit (counter _next sum : Float) : Evaluation Float := do
      Evaluation.modifyScope (·.bindLocal name (.num counter))
      return addend sum (← body.evaluate)
    let sum ← Evaluation.withFrame <|
      progression.run (.stepTooSmall "for" progression.step) visit first 0
    return .num sum
  | _ => throw (.missingOperand call.name)

/-- Evaluates the first or the second operand by the toss of a coin. -/
def randomlyPicked (call : Call) : Evaluation Expr :=
  match call.arguments with
  | first :: second :: _ => do if ← Evaluation.toss then first.evaluate else second.evaluate
  | _ => throw (.missingOperand call.name)

/-- Samples an expression over a range and draws the points. -/
def plotted (call : Call) : Evaluation Expr :=
  match call.arguments with
  | curve :: variableName :: minimum :: maximum :: step :: _ => do
    let name ← .ofExcept (boundVariable "plot" variableName.tree)
    let minimum ← minimum.measure
    let maximum ← maximum.measure
    let step ← step.measure
    if minimum > maximum then throw (.reversedRange minimum maximum)
    if (← Evaluation.scope).contains name then throw (.alreadyDefined "plot" name)
    if step ≤ 0 then throw (.stepNotPositive step)
    if !(minimum.isFinite && maximum.isFinite && step.isFinite) then throw .infiniteRange
    let visit (_counter x : Float) (points : List (Float × Float)) :
        Evaluation (List (Float × Float)) := do
      Evaluation.modifyScope (·.bindLocal name (.num x))
      return (x, ← curve.measure) :: points
    let points ← Evaluation.withFrame <|
      Progression.run ⟨maximum, step⟩ (.stepTooSmall "plot" step) visit (minimum - step) []
    Evaluation.draw ⟨curve.tree.text, name, s!"f({name})", points.reverse⟩
    return .num 1
  | _ => throw (.missingOperand call.name)

end Operation

end Calculator
