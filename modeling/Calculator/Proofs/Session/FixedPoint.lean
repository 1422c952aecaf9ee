import Calculator.Proofs.Evaluation.Arithmetic
import Calculator.Proofs.Expr.Rereading
import Calculator.Proofs.Session.Sinks
import Mathlib

/-! Printed results of arithmetic are fixed points: as inputs they give themselves. -/

namespace Calculator

open Grammar Binary

namespace Expr

/-- What the text of a number is read as, up to the sign of a negative number. A zero has no sign
in its text, and where there are no digits there is a variable. -/
def literal (value : Float) : Expr :=
  if value.isFinite then .num (if value = -0.0 then 0 else value)
  else if value.isNaN then .var "NaN"
  else if value < 0 then .negate (.var "inf")
  else .var "inf"

mutual

/-- The expression with every number as its text is read. -/
def plain : Expr → Expr
  | .num value => literal value
  | .var name => .var name
  | .op name operands => .op name (plainAll operands)

/-- The expressions with every number as its text is read. -/
def plainAll : List Expr → List Expr
  | [] => []
  | first :: rest => first.plain :: plainAll rest

end

/-- Every expression is taken by itself. -/
theorem plainAll_eq_map (operands : List Expr) : plainAll operands = operands.map plain := by
  -- By induction on the operands.
  induction operands with
  | nil => rfl
  | cons first rest ih => rw [plainAll, ih, List.map_cons]

/-- Every expression is taken by itself. -/
theorem unsignedAll_eq_map (operands : List Expr) :
    unsignedAll operands = operands.map unsigned := by
  -- By induction on the operands.
  induction operands with
  | nil => rfl
  | cons first rest ih => rw [unsignedAll, ih, List.map_cons]

end Expr

section Numbers

variable {value number : Float}

/-- A double is finite, or it is one of three others. -/
theorem isFinite_or (value : Float) :
    value.isFinite = true ∨ value = 0.0 / 0.0 ∨ value = 1.0 / 0.0 ∨ value = -1.0 / 0.0 := by
  -- What a double holds determines it.
  cases unpacked : value.toModel.unpack with
  | notANumber => exact .inr (.inl (eq_of_unpack_eq (unpacked.trans rfl)))
  | infinity sign =>
    cases sign with
    | positive => exact .inr (.inr (.inl (eq_of_unpack_eq (unpacked.trans rfl))))
    | negative => exact .inr (.inr (.inr (eq_of_unpack_eq (unpacked.trans rfl))))
  | zero sign | finite sign =>
    left
    show value.toModel.unpack.isFinite = true
    rw [unpacked]
    rfl

/-- The text of a number is that of what it is read as. -/
theorem Expr.phrase_literal (value : Float) : (literal value).phrase = .number value := by
  rcases isFinite_or value with finite | rfl | rfl | rfl
  · -- A zero is written alike with and without its sign.
    rw [literal, if_pos finite]
    by_cases negativeZero : value = -0.0
    · rw [if_pos negativeZero, negativeZero]
      rfl
    · rw [if_neg negativeZero]
      rfl
  · rfl
  · rfl
  · rfl

/-- What a number is read as has a text of its own. -/
theorem Expr.printable_literal (value : Float) : Printable .operand (literal value) := by
  -- A finite value is a numeral, and the others are names, one of them negated.
  rcases isFinite_or value with finite | rfl | rfl | rfl
  · rw [literal, if_pos finite]
    by_cases negativeZero : value = -0.0
    · rw [if_pos negativeZero]
      exact .number rfl (by decide)
    · rw [if_neg negativeZero]
      exact .number finite negativeZero
  · exact .variableName (by decide)
  · exact .variableName (by decide)
  · exact .negation (.variableName (by decide))

/-- Where a number is read as a number, that one is equal to it. -/
theorem Expr.literal_eq_num (same : literal value = .num number) :
    IsNumber value ∧ IsNumber number ∧ place number = place value := by
  rcases isFinite_or value with finite | rfl | rfl | rfl
  · have isNumber := isNumber_of_isFinite finite
    rw [literal, if_pos finite] at same
    cases same
    by_cases negativeZero : value = -0.0
    · -- The two zeros have the same place.
      rw [if_pos negativeZero]
      refine ⟨isNumber, isNumber_zero, ?_⟩
      rw [negativeZero]
      rfl
    · rw [if_neg negativeZero]
      exact ⟨isNumber, isNumber, rfl⟩
  · cases same
  · cases same
  · cases same

end Numbers

section Folding

/-- Two doubles that are numbers and equal, though one may be a negative zero. -/
def SameNumber (value number : Float) : Prop :=
  IsNumber value ∧ IsNumber number ∧ place number = place value

/-- Equal numbers are equal to the same numbers. -/
theorem SameNumber.beq {a b c d : Float} (left : SameNumber a c) (right : SameNumber b d) :
    (a == b) = (c == d) := by
  -- Numbers are compared by their places, which are the same.
  obtain ⟨isNumberA, isNumberC, sameLeft⟩ := left
  obtain ⟨isNumberB, isNumberD, sameRight⟩ := right
  rw [Bool.eq_iff_iff, beq_iff_place isNumberA isNumberB, beq_iff_place isNumberC isNumberD,
    sameLeft, sameRight]

/-- Whether an operation has a symbolic value does not hang on the sign of a zero. -/
theorem Primitive.exists_value_of_sameNumber {primitive : Primitive} {values numbers : List Float}
    {value : Float} (same : List.Forall₂ SameNumber values numbers)
    (valued : primitive.value? .symbolic numbers = .ok (some value)) :
    ∃ other, primitive.value? .symbolic values = .ok (some other) := by
  -- Most operations look at the number of their operands only, and quotients at equality.
  cases same with
  | nil => exact ⟨value, valued⟩
  | cons first rest =>
    cases rest with
    | nil => cases primitive <;> simp_all [value?]
    | cons second rest =>
      cases rest with
      | nil => cases primitive <;> simp_all [value?, quotient?, first.beq second]
      | cons third rest => cases primitive <;> simp_all [value?]

/-- Operands that are read as numbers are numbers, and equal to these. -/
theorem sameNumber_of_plain {operands : List Expr} {numbers : List Float}
    (found : operands.map Expr.plain = numbers.map .num) :
    ∃ values, operands = values.map .num ∧ List.Forall₂ SameNumber values numbers := by
  induction operands generalizing numbers with
  | nil =>
    cases numbers with
    | nil => exact ⟨[], rfl, .nil⟩
    | cons => cases found
  | cons operand rest ih =>
    cases numbers with
    | nil => cases found
    | cons number numbers =>
      simp only [List.map_cons, List.cons.injEq] at found
      obtain ⟨values, rfl, same⟩ := ih found.2
      -- Neither a variable nor an operation is read as a number.
      cases operand with
      | num value => exact ⟨value :: values, rfl, .cons (Expr.literal_eq_num found.1) same⟩
      | var name => cases found.1
      | op name operands => cases found.1

/-- What is left of an operation is left of it as its text is read. -/
theorem fold_plain {name : String} {operands : List Expr}
    (unfolded : fold .symbolic name operands = .ok (.op name operands)) :
    fold .symbolic name (operands.map Expr.plain) = .ok (.op name (operands.map Expr.plain)) := by
  obtain kept | ⟨primitive, numbers, named, found, ⟨value, valued, _⟩ | ⟨cause, fails, _⟩⟩ :=
    fold_cases .symbolic name (operands.map Expr.plain)
  · exact kept
  · -- With a value on what is read, the operation would have had one before.
    obtain ⟨values, rfl, same⟩ := sameNumber_of_plain found
    obtain ⟨other, gives⟩ := Primitive.exists_value_of_sameNumber same valued
    rw [fold_eq_num.mpr ⟨primitive, values, named, rfl, gives⟩] at unfolded
    cases unfolded
  · -- Symbolic folding does not fail.
    obtain ⟨outcome, found⟩ := primitive.exists_value?_symbolic numbers
    cases found.symm.trans fails

end Folding

section Simplification

variable {scope : Scope}

/-- A finite number written with its sign in front simplifies to the number. -/
theorem simplify_unsigned_num {value : Float} (finite : value.isFinite = true) :
    simplify .symbolic scope (Expr.num value).unsigned = .ok (.num value) := by
  rw [Expr.unsigned]
  split
  · -- The sign is folded away, and it is taken twice.
    next negative =>
    have folded : fold .symbolic "negate" [.num (-value)] = .ok (.num (- -value)) := rfl
    rw [neg_neg_of_neg finite negative] at folded
    have opposite : simplify .symbolic scope (.num (-value)) = .ok (.num (-value)) :=
      simplify_of_settled (.number _)
    exact simplify_op_eq_ok.mpr ⟨_, .cons opposite .nil, folded⟩
  · exact simplify_of_settled (.number value)

/-- What a number is read as, with its sign in front, simplifies to what it is read as. -/
theorem simplify_unsigned_literal (unbound : ∀ name, scope.get? name = none) (value : Float) :
    simplify .symbolic scope (Expr.literal value).unsigned = .ok (Expr.literal value) := by
  -- A finite value is a numeral, and the others are names that nothing binds.
  have free (name : String) : Settled .symbolic scope (.var name) := .free (unbound name)
  rcases isFinite_or value with finite | rfl | rfl | rfl
  · rw [Expr.literal, if_pos finite]
    apply simplify_unsigned_num
    split
    · rfl
    · exact finite
  · exact simplify_of_settled (free "NaN")
  · exact simplify_of_settled (free "inf")
  · have settled : Settled .symbolic scope (.op "negate" [.var "inf"]) :=
      .operation (by simpa using free "inf") rfl
    exact simplify_of_settled settled

/-- A settled expression as its text is read simplifies to the expression up to its numbers. -/
theorem simplify_unsigned_plain (unbound : ∀ name, scope.get? name = none) {expr : Expr}
    (settled : Settled .symbolic scope expr) :
    simplify .symbolic scope expr.plain.unsigned = .ok expr.plain := by
  -- Operands are read before the operation, and the operation was left as it is.
  induction settled with
  | number value => exact simplify_unsigned_literal unbound value
  | free isFree => exact simplify_of_settled (.free isFree)
  | @operation name operands _ unfolded ih =>
    rw [Expr.plain, Expr.plainAll_eq_map, Expr.unsigned, Expr.unsignedAll_eq_map]
    refine simplify_op_eq_ok.mpr ⟨operands.map Expr.plain, ?_, fold_plain unfolded⟩
    rw [List.map_map, List.forall₂_map_left_iff, List.forall₂_map_right_iff, List.forall₂_same]
    exact ih

end Simplification

mutual

/-- What an expression is read as is printed as the expression. -/
theorem Expr.phrase_plain (expr : Expr) : expr.plain.phrase = expr.phrase := by
  -- Only a number is written in another way, and its literal has the same phrase.
  cases expr with
  | num value => exact phrase_literal value
  | var name => rfl
  | op name operands => rw [plain, phrase, phrase, phrases_plainAll operands]

/-- What expressions are read as is printed as the expressions. -/
theorem Expr.phrases_plainAll (operands : List Expr) :
    phrases (plainAll operands) = phrases operands := by
  -- The operands are written one by one.
  cases operands with
  | nil => rfl
  | cons first rest => rw [plainAll, phrases, phrases, phrase_plain first, phrases_plainAll rest]

end

section Arithmetic

variable {expr : Expr}

/-- Arithmetic whose variables are identifiers is printable, once its numbers are as their texts are
read. -/
theorem Expr.IsArithmetic.printable_plain (arithmetic : expr.IsArithmetic)
    (identifiers : ∀ name, expr.Mentions name → isIdentifier name = true) :
    Printable .operand expr.plain := by
  induction arithmetic with
  | num value => exact printable_literal value
  | var name => exact .variableName (identifiers name .whole)
  | @binary name left right operator _ _ leftIh rightIh =>
    -- Each sign is that of an operator other than the assignment.
    obtain ⟨symbolic, isArithmetic, rfl⟩ : ∃ symbolic : Operator, symbolic ≠ .assign ∧
        symbolic.symbol = name := by
      simp only [List.mem_cons, List.not_mem_nil, or_false] at operator
      rcases operator with rfl | rfl | rfl | rfl | rfl
      · exact ⟨.add, by decide, rfl⟩
      · exact ⟨.subtract, by decide, rfl⟩
      · exact ⟨.multiply, by decide, rfl⟩
      · exact ⟨.divide, by decide, rfl⟩
      · exact ⟨.power, by decide, rfl⟩
    simp only [mentions_pair] at identifiers
    apply Printable.binary isArithmetic
    · exact leftIh fun name mentions => identifiers name (.inl mentions)
    · exact rightIh fun name mentions => identifiers name (.inr mentions)
  | @unary name operand function _ ih =>
    have printable : Printable .operand operand.plain :=
      ih fun name mentions => identifiers name (by simpa using mentions)
    simp only [List.mem_cons, List.not_mem_nil, or_false] at function
    rcases function with rfl | rfl | rfl
    · exact .negation printable
    · exact .call (by decide) (by simp) (by simpa [plainAll] using .expression printable)
    · exact .call (by decide) (by simp) (by simpa [plainAll] using .expression printable)

/-- Arithmetic is still arithmetic as its text is read. -/
theorem Expr.IsArithmetic.plain (arithmetic : expr.IsArithmetic) : expr.plain.IsArithmetic := by
  -- By induction on the arithmetic; only a number takes another shape, which is arithmetic too.
  induction arithmetic with
  | num value =>
    rcases isFinite_or value with finite | rfl | rfl | rfl
    · rw [Expr.plain, literal, if_pos finite]
      exact .num _
    · exact .var _
    · exact .var _
    · exact .unary (by decide) (.var _)
  | var name => exact .var name
  | binary operator _ _ left right => exact .binary operator left right
  | unary function _ ih => exact .unary function ih

/-- Arithmetic is still arithmetic with signs written in front of its numbers. -/
theorem Expr.IsArithmetic.unsigned (arithmetic : expr.IsArithmetic) :
    expr.unsigned.IsArithmetic := by
  -- By induction on the arithmetic; only a number with a sign becomes a negation.
  induction arithmetic with
  | num value =>
    rw [Expr.unsigned]
    split
    · exact .unary (by decide) (.num _)
    · exact .num value
  | var name => exact .var name
  | binary operator _ _ left right => exact .binary operator left right
  | unary function _ ih => exact .unary function ih

end Arithmetic

/-- Every variable that was read is an identifier. -/
theorem Expr.Readable.identifiers {standing : Standing} {expr : Expr}
    (readable : Readable standing expr) :
    ∀ name, expr.Mentions name → isIdentifier name = true := by
  -- By induction on the reading; the names that occur were all accepted as identifiers.
  induction readable with
  | number => simp
  | variableName identifier => simpa using identifier
  | expression _ ih => exact ih
  | binary _ _ _ left right =>
    intro name mentions
    rcases mentions_pair.mp mentions with mentions | mentions
    · exact left name mentions
    · exact right name mentions
  | negation _ ih => simpa [negate] using ih
  | call _ _ ih =>
    intro name mentions
    obtain ⟨operand, member, mentions⟩ := mentions_op.mp mentions
    exact ih operand member name mentions
  | assignment identifier _ ih =>
    intro name mentions
    rcases mentions_pair.mp mentions with target | mentions
    · rwa [← mentions_var.mp target]
    · exact ih name mentions

section Evaluation

variable {machine : Machine} {expr : Expr}

/-- Without variables, evaluating arithmetic is simplifying it. The result is arithmetic on
variables of the expression. -/
theorem evaluate_unbound (unbound : ∀ name, machine.scope.get? name = none)
    (arithmetic : expr.IsArithmetic) :
    ∃ result, evaluate .builtin expr machine = .ok result machine ∧
      simplify .symbolic machine.scope expr = .ok result ∧ result.IsArithmetic ∧
      ∀ name, result.Mentions name → expr.Mentions name := by
  -- Both fold the results of the operands, and what is not folded keeps its operands.
  have folds (name : String) (results : List Expr) : ∃ result,
      fold .symbolic name results = .ok result ∧
        (result = .op name results ∨ ∃ value, result = .num value) := by
    obtain kept | ⟨_, _, _, _, ⟨value, _, gives⟩ | ⟨cause, _, fails⟩⟩ :=
      fold_cases .symbolic name results
    · exact ⟨_, kept, .inl rfl⟩
    · exact ⟨_, gives, .inr ⟨value, rfl⟩⟩
    · obtain ⟨result, folded⟩ := exists_fold_symbolic name results
      rw [fails] at folded
      cases folded
  induction arithmetic with
  | num value => exact ⟨.num value, rfl, simplify_of_settled (.number value), .num value, by simp⟩
  | var name =>
    refine ⟨.var name, ?_, simplify_of_settled (.free (unbound name)), .var name, by simp⟩
    rw [evaluate]
    show EStateM.Result.ok ((machine.scope.get? name).getD (.var name)) machine = _
    rw [unbound]
    rfl
  | @binary name left right operator _ _ leftIh rightIh =>
    obtain ⟨leftResult, leftEvaluated, leftSimplified, leftArithmetic, leftNames⟩ := leftIh
    obtain ⟨rightResult, rightEvaluated, rightSimplified, rightArithmetic, rightNames⟩ := rightIh
    obtain ⟨result, folded, shape⟩ := folds name [leftResult, rightResult]
    refine ⟨result, evaluate_fold (find?_binary operator)
      (.cons leftEvaluated (.cons rightEvaluated .nil)) folded, simplify_op_eq_ok.mpr
      ⟨_, .cons leftSimplified (.cons rightSimplified .nil), folded⟩, ?_⟩
    rcases shape with rfl | ⟨value, rfl⟩
    · refine ⟨.binary operator leftArithmetic rightArithmetic, fun name => ?_⟩
      rw [Expr.mentions_pair, Expr.mentions_pair]
      exact Or.imp (leftNames name) (rightNames name)
    · exact ⟨.num value, by simp⟩
  | @unary name operand function _ ih =>
    obtain ⟨operandResult, evaluated, simplified, isArithmetic, names⟩ := ih
    obtain ⟨result, folded, shape⟩ := folds name [operandResult]
    refine ⟨result, evaluate_fold (find?_unary function) (.cons evaluated .nil) folded,
      simplify_op_eq_ok.mpr ⟨_, .cons simplified .nil, folded⟩, ?_⟩
    rcases shape with rfl | ⟨value, rfl⟩
    · exact ⟨.unary function isArithmetic, by simpa using names⟩
    · exact ⟨.num value, by simp⟩

end Evaluation

/--
Printed results of arithmetic are fixed points.

In a fresh session arithmetic has a result and changes nothing. The text of the result, given to a
fresh session, is read and has itself as its result, also where it shows negative numbers, a zero
with a lost sign, or infinities and undefined numbers, which are read as variables.
-/
theorem Session.interpret_arithmetic_fixed (input : String) (expr : Expr)
    (read : readExpr input = .ok expr) (arithmetic : expr.IsArithmetic) (sink : Sink)
    (random : Generator) :
    ∃ text, (start .builtin sink random).interpret input = (.ok text, start .builtin sink random) ∧
      ∀ (otherSink : Sink) (otherRandom : Generator),
        (start .builtin otherSink otherRandom).interpret text =
          (.ok text, start .builtin otherSink otherRandom) := by
  have unbound : ∀ name, Scope.empty.get? name = none := fun _ => rfl
  obtain ⟨result, evaluated, simplified, isArithmetic, names⟩ :=
    @evaluate_unbound ⟨.empty, sink, random⟩ _ unbound arithmetic
  refine ⟨result.text, interpret_of_ok read evaluated rfl, fun otherSink otherRandom => ?_⟩
  have identifiers : ∀ name, result.Mentions name → isIdentifier name = true := fun name mentions =>
    (Expr.readable_of_readExpr read).identifiers name (names name mentions)
  -- The text is read as the result with its signs in front, and that evaluates to the result.
  have printable := isArithmetic.printable_plain identifiers
  have sameText : result.plain.text = result.text := by
    rw [Expr.text, Expr.text, Expr.phrase_plain]
  have reread : readExpr result.text = .ok result.plain.unsigned := by
    rw [← sameText]
    exact (Expr.Printable.expression printable).readExpr_text
  obtain ⟨again, evaluatedAgain, simplifiedAgain, _⟩ :=
    @evaluate_unbound ⟨.empty, otherSink, otherRandom⟩ _ unbound isArithmetic.plain.unsigned
  have same : again = result.plain := Except.ok.inj <|
    simplifiedAgain.symm.trans (simplify_unsigned_plain unbound (settled_simplify simplified))
  rw [same] at evaluatedAgain
  exact interpret_of_ok reread evaluatedAgain sameText

/-- A negative number and a negative zero, of which only one shows its sign. -/
theorem Session.interpret_arithmetic_fixed_signs :
    readExpr "-3 / x ^ -0" =
      .ok (.op "/" [.negate (.num 3), .op "^" [.var "x", .negate (.num 0)]]) ∧
    ((start .builtin (.recording []) (.ofSeed 7)).interpret "-3 / x ^ -0").1 = .ok "-3 / x ^ 0" ∧
    ((start .builtin (.recording []) (.ofSeed 8)).interpret "-3 / x ^ 0").1 = .ok "-3 / x ^ 0" := by
  -- The input is read once, and the two sessions differ in their seeds only.
  have read : readExpr "-3 / x ^ -0" =
      .ok (.op "/" [.negate (.num 3), .op "^" [.var "x", .negate (.num 0)]]) :=
    readExpr_ofList rfl rfl
  have result : (start .builtin (.recording []) (.ofSeed 7)).interpret "-3 / x ^ -0" =
      (.ok "-3 / x ^ 0", start .builtin (.recording []) (.ofSeed 7)) :=
    @interpret_of_ok (start .builtin (.recording []) (.ofSeed 7)) _ _ _
      (.op "/" [.num (-3), .op "^" [.var "x", .num (-0)]]) _ read rfl rfl
  obtain ⟨text, first, again⟩ := interpret_arithmetic_fixed "-3 / x ^ -0" _ read
    (.binary (by decide) (.unary (by decide) (.num 3))
      (.binary (by decide) (.var "x") (.unary (by decide) (.num 0)))) (.recording []) (.ofSeed 7)
  rw [result] at first
  cases first
  exact ⟨read, congrArg Prod.fst result, congrArg Prod.fst (again _ _)⟩

end Calculator
