import Calculator.Evaluation.Operations
import Calculator.Folding

/-! The operations that are there from the start. -/

namespace Calculator

/-- The built-in operations with the number of their operands. -/
def Registry.builtin : Registry :=
  ⟨[("+", ⟨2, Operation.arithmetic⟩),
    ("-", ⟨2, Operation.arithmetic⟩),
    ("*", ⟨2, Operation.arithmetic⟩),
    ("/", ⟨2, Operation.arithmetic⟩),
    ("^", ⟨2, Operation.arithmetic⟩),
    ("negate", ⟨1, Operation.arithmetic⟩),
    ("sin", ⟨1, Operation.arithmetic⟩),
    ("cos", ⟨1, Operation.arithmetic⟩),
    ("toDouble", ⟨1, Operation.toDouble⟩),
    ("simplify", ⟨1, Operation.simplified⟩),
    ("plot", ⟨5, Operation.plotted⟩),
    (":=", ⟨2, Operation.assign⟩),
    ("if", ⟨3, Operation.choose⟩),
    ("repeat", ⟨2, Operation.repeated⟩),
    ("for", ⟨5, Operation.summed⟩),
    ("randomlyPick", ⟨2, Operation.randomlyPicked⟩)]⟩

end Calculator
