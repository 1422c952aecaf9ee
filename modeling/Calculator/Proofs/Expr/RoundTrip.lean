import Calculator.Expr.Printer
import Calculator.Proofs.Grammar.Language
import Calculator.Proofs.Number.Reading

/-! Printed expressions read back as themselves, a negative number as a negation. -/

namespace Calculator

open Grammar

/-- The name is read as one identifier. -/
def isIdentifier (name : String) : Bool :=
  match name.toList with
  | [] => false
  | first :: rest => startsName first && rest.all continuesName

namespace Expr

/-- Where an expression stands: only a statement may be an assignment. -/
inductive Standing where
  | statement
  | operand

/-- The expression has a text of its own at the place where it stands. -/
inductive Printable : Standing → Expr → Prop
  | number {value : Float} (finite : value.isFinite = true) (notNegativeZero : value ≠ -0.0) :
      Printable .operand (.num value)
  | variableName {name : String} (identifier : isIdentifier name = true) :
      Printable .operand (.var name)
  | binary {operator : Operator} {left right : Expr} (arithmetic : operator ≠ .assign) :
      Printable .operand left → Printable .operand right →
      Printable .operand (.op operator.symbol [left, right])
  | negation {operand : Expr} : Printable .operand operand → Printable .operand (.negate operand)
  | call {name : String} {operands : List Expr} (identifier : isIdentifier name = true)
      (notNegation : ¬ (name = "negate" ∧ operands.length = 1)) :
      (∀ operand ∈ operands, Printable .statement operand) →
      Printable .operand (.op name operands)
  | assignment {name : String} {value : Expr} (identifier : isIdentifier name = true) :
      Printable .operand value → Printable .statement (.assign name value)
  | expression {value : Expr} : Printable .operand value → Printable .statement value

mutual

/-- The expression with every negative number written as the negation of its opposite. -/
def unsigned : Expr → Expr
  | .num value => if value < 0 then .negate (.num (-value)) else .num value
  | .var name => .var name
  | .op name operands => .op name (unsignedAll operands)

/-- The expressions with every negative number written as the negation of its opposite. -/
def unsignedAll : List Expr → List Expr
  | [] => []
  | first :: rest => first.unsigned :: unsignedAll rest

end

mutual

/-- The numbers in an expression, from left to right. -/
def numbers : Expr → List Float
  | .num value => [value]
  | .var _ => []
  | .op _ operands => numbersOf operands

/-- The numbers in several expressions, from left to right. -/
def numbersOf : List Expr → List Float
  | [] => []
  | first :: rest => first.numbers ++ numbersOf rest

end

mutual

/-- Without negative numbers there is nothing to rewrite. -/
theorem unsigned_eq_self (expr : Expr) (nonnegative : ∀ value ∈ expr.numbers, ¬ value < 0) :
    expr.unsigned = expr := by
  -- No number has a sign to take out, in the tree and in its operands.
  cases expr with
  | num value =>
    have positive := nonnegative value (by simp [numbers])
    simp [unsigned, positive]
  | var name => simp [unsigned]
  | op name operands =>
    rw [unsigned, unsignedAll_eq_self operands (by simpa [numbers] using nonnegative)]

theorem unsignedAll_eq_self (operands : List Expr)
    (nonnegative : ∀ value ∈ numbersOf operands, ¬ value < 0) :
    unsignedAll operands = operands := by
  -- The operands are looked at one by one.
  cases operands with
  | nil => simp [unsignedAll]
  | cons first rest =>
    simp only [numbersOf, List.mem_append] at nonnegative
    rw [unsignedAll, unsigned_eq_self first fun value member => nonnegative value (.inl member),
      unsignedAll_eq_self rest fun value member => nonnegative value (.inr member)]

end

end Expr

/-- An identifier is spelled as a name. -/
theorem spells_identifier {name : String} (identifier : isIdentifier name = true) :
    Spells name.toList (.name name) := by
  -- Its first character starts a name, and the others go on with it.
  unfold isIdentifier at identifier
  split at identifier
  · exact absurd identifier (by simp)
  · rename_i first rest chars
    simp only [Bool.and_eq_true, List.all_eq_true] at identifier
    rw [chars, ← String.ofList_toList (s := name), chars]
    exact .name identifier.1 identifier.2

/-- No operator's sign is an identifier. -/
theorem ofSymbol?_identifier {name : String} (identifier : isIdentifier name = true) :
    Operator.ofSymbol? name = none := by
  -- The sign of each operator starts with a mark.
  rw [Operator.ofSymbol?, List.find?_eq_none]
  intro operator _ same
  rw [beq_iff_eq] at same
  subst same
  cases operator <;> exact absurd identifier (by decide)

namespace Operator

/-- The token of an operator's sign. -/
def token : Operator → Token
  | assign => .assign
  | add => .plus
  | subtract => .minus
  | multiply => .times
  | divide => .slash
  | power => .caret

/-- An operator's sign spells its token. -/
theorem spells_symbol (operator : Operator) : Spells operator.symbol.toList operator.token := by
  -- Each operator has one spelling.
  cases operator <;> constructor

/-- Arithmetic binds tighter than an assignment. -/
theorem strength_pos {operator : Operator} (arithmetic : operator ≠ assign) :
    1 ≤ operator.strength := by
  -- Only the assignment is as weak as that.
  cases operator with
  | assign => exact absurd rfl arithmetic
  | _ => decide

/-- An operator is found by its sign. -/
theorem ofSymbol?_symbol (operator : Operator) : ofSymbol? operator.symbol = some operator := by
  -- No two operators share a symbol.
  cases operator <;> decide

end Operator

namespace Grammar

/-- The layer of the grammar whose phrases bind with a given strength. -/
def layer (strength : Nat) (value : Expr) : Form :=
  match strength with
  | 0 => .statement value
  | 1 => .sum value
  | 2 => .product value
  | 3 => .unary value
  | 4 => .power value
  | _ => .atom value

/-- A phrase that binds tighter stands wherever a looser one does. -/
theorem Derives.loosen {value : Expr} {tokens : List Token} {loose tight : Nat}
    (ordered : loose ≤ tight) (derives : Derives (layer tight value) tokens) :
    Derives (layer loose value) tokens := by
  -- Each layer holds the phrases of the next tighter one.
  induction ordered with
  | refl => exact derives
  | @step tight _ ih =>
    apply ih
    match tight with
    | 0 => exact .expression derives
    | 1 => exact .product derives
    | 2 => exact .unary derives
    | 3 => exact .power derives
    | 4 => exact .atom derives
    | _ + 5 => exact derives

/-- The text spells the expression as a phrase that binds with a given strength. -/
def Writes (strength : Nat) (text : List Char) (value : Expr) : Prop :=
  ∃ tokens, Spelled text tokens ∧ Derives (layer strength value) tokens

/-- What is written tightly is written loosely too. -/
theorem Writes.loosen {loose tight : Nat} {text : List Char} {value : Expr}
    (writes : Writes tight text value) (ordered : loose ≤ tight) : Writes loose text value := by
  -- A text that binds tightly may stand where a looser one is asked for.
  obtain ⟨tokens, spelled, derives⟩ := writes
  exact ⟨tokens, spelled, derives.loosen ordered⟩

end Grammar

namespace Phrase

/-- The phrase spells the expression with the strength that it states. -/
def Prints (phrase : Phrase) (value : Expr) : Prop := Writes phrase.strength phrase.chars value

variable {phrase left right : Phrase} {value l r : Expr}

/-- In parentheses every phrase but an assignment is an atom. -/
theorem Prints.guarded {strength : Nat} (prints : phrase.Prints value)
    (positive : 1 ≤ phrase.strength) (bound : strength ≤ Operator.atomStrength)
    (parenthesised : Bool) (bare : parenthesised = false → strength ≤ phrase.strength) :
    Writes strength (phrase.guarded parenthesised) value := by
  unfold Phrase.guarded
  -- Inside parentheses a sum is enough; bare, the phrase must bind tightly enough itself.
  split
  · obtain ⟨tokens, spelled, derives⟩ := prints.loosen positive
    have enclosed := Spelled.token .opening (spelled.append Spells.closing.spelled)
    have atom : Writes Operator.atomStrength ('(' :: phrase.chars ++ [')']) value :=
      ⟨_, enclosed, .parentheses derives⟩
    exact atom.loosen bound
  · rename_i plain
    exact prints.loosen (bare (by simpa using plain))

/-- Two phrases with an arithmetic operator between them make up one that binds as it does. -/
theorem derives_binary {operator : Operator} {before after : List Token}
    (arithmetic : operator ≠ .assign)
    (first : Derives (layer (operator.strength + operator.groupsRight.toNat) l) before)
    (second : Derives (layer (operator.strength + (!operator.groupsRight).toNat) r) after) :
    Derives (layer operator.strength (.op operator.symbol [l, r]))
      (before ++ operator.token :: after) := by
  -- Each operator has its own production, with the sides that it groups by.
  cases operator with
  | assign => exact absurd rfl arithmetic
  | add => exact .add first second
  | subtract => exact .subtract first second
  | multiply => exact .multiply first second
  | divide => exact .divide first second
  | power => exact .raised first (.power second)

/-- A token with a blank on either side, before other text. -/
theorem spelled_between {chars text : List Char} {token : Token} {tokens : List Token}
    (spells : Spells chars token) (spelled : Spelled text tokens) :
    Spelled (' ' :: (chars ++ ' ' :: text)) (token :: tokens) :=
  .blank rfl (.token spells (.blank rfl spelled))

/-- Parentheses stand exactly where the grammar needs them. -/
theorem Prints.binary {operator : Operator} (arithmetic : operator ≠ .assign)
    (first : left.Prints l) (second : right.Prints r) (leftBinds : 1 ≤ left.strength)
    (rightBinds : 1 ≤ right.strength) :
    (Phrase.binary operator left right).Prints (.op operator.symbol [l, r]) := by
  have bounds : operator.strength + operator.groupsRight.toNat ≤ Operator.atomStrength ∧
      operator.strength + (!operator.groupsRight).toNat ≤ Operator.atomStrength := by
    cases operator <;> decide
  -- An operand without parentheses binds at least as tightly as its side asks for.
  obtain ⟨before, spelledLeft, derivesLeft⟩ := first.guarded leftBinds bounds.1
    (left.strength < operator.strength ||
      operator.groupsRight && left.strength == operator.strength)
    (by cases operator.groupsRight <;> grind)
  obtain ⟨after, spelledRight, derivesRight⟩ := second.guarded rightBinds bounds.2
    (right.strength < operator.strength ||
      !operator.groupsRight && right.strength == operator.strength)
    (by cases operator.groupsRight <;> grind)
  have spelled := spelledLeft.append
    (spelled_between operator.spells_symbol spelledRight)
  refine ⟨_, ?_, derives_binary arithmetic derivesLeft derivesRight⟩
  simpa [Phrase.binary] using spelled

/-- A target before the value that it is to have. -/
theorem Prints.assignment {name : String} (identifier : isIdentifier name = true)
    (prints : phrase.Prints value) (binds : 1 ≤ phrase.strength) :
    (Phrase.binary .assign (.variableName name) phrase).Prints (.assign name value) := by
  obtain ⟨tokens, spelled, derives⟩ := prints.loosen binds
  have whole := (spells_identifier identifier).spelled.append
    (spelled_between Operator.assign.spells_symbol spelled)
  refine ⟨_, ?_, .assignment derives⟩
  -- Neither side binds as loosely as the assignment.
  have tighter : ¬ phrase.strength = 0 := by omega
  simpa [Phrase.binary, Phrase.guarded, variableName, Operator.strength, Operator.atomStrength,
    Operator.token, tighter] using whole

/-- A minus sign before a phrase negates it. -/
theorem Prints.negation (prints : phrase.Prints value) (binds : 1 ≤ phrase.strength) :
    (Phrase.negation phrase).Prints (.negate value) := by
  -- The operand is put into parentheses unless it binds as tightly as the sign.
  obtain ⟨tokens, spelled, derives⟩ := prints.guarded binds
    (by decide : Operator.negationStrength ≤ Operator.atomStrength)
    (phrase.strength < Operator.negationStrength) (by simp)
  exact ⟨_, .token .minus spelled, .negation derives⟩

/-- A number is printed as a literal, behind a minus sign where it is negative. -/
theorem prints_number {number : Float} (finite : number.isFinite = true)
    (notNegativeZero : number ≠ -0.0) :
    (Phrase.number number).Prints (Expr.num number).unsigned := by
  -- The sign is printed apart from the literal of the magnitude.
  unfold Phrase.number Expr.unsigned
  split
  · rename_i negative
    obtain ⟨chars, isFinite, positive, notZero⟩ := numberChars_of_neg finite negative
    obtain ⟨numeral, literal, reads⟩ := exists_literal_numberChars isFinite positive notZero
    have spells := Spells.number literal
    rw [reads] at spells
    rw [chars]
    exact ⟨_, .token .minus spells.spelled, .negation (.power (.atom .number))⟩
  · rename_i positive
    obtain ⟨numeral, literal, reads⟩ := exists_literal_numberChars finite positive notNegativeZero
    have spells := Spells.number literal
    rw [reads] at spells
    exact ⟨_, spells.spelled, .number⟩

/-- Arguments are printed with commas between them. -/
theorem derives_commaSeparated (operands : List Expr) (some : operands ≠ [])
    (prints : ∀ operand ∈ operands, Writes 0 operand.phrase.chars operand.unsigned) :
    ∃ tokens, Spelled (commaSeparated (Expr.phrases operands)) tokens ∧
      Derives (.arguments (Expr.unsignedAll operands)) tokens := by
  -- The last argument has no comma behind it.
  induction operands with
  | nil => exact absurd rfl some
  | cons first rest ih =>
    obtain ⟨tokens, spelled, derives⟩ := prints first (by simp)
    cases rest with
    | nil => exact ⟨tokens, spelled, .lastArgument derives⟩
    | cons second rest =>
      obtain ⟨further, spelledRest, derivesRest⟩ := ih (by simp) fun operand member =>
        prints operand (List.mem_cons_of_mem _ member)
      exact ⟨_, spelled.append (.token .comma (.blank rfl spelledRest)),
        .moreArguments derives derivesRest⟩

/-- A name before its arguments in parentheses is a call. -/
theorem prints_call {name : String} {operands : List Expr} (identifier : isIdentifier name = true)
    (prints : ∀ operand ∈ operands, Writes 0 operand.phrase.chars operand.unsigned) :
    (Phrase.call name (Expr.phrases operands)).Prints (.op name (Expr.unsignedAll operands)) := by
  -- Without arguments the parentheses stand side by side.
  by_cases none : operands = []
  · subst none
    have enclosed := Spelled.token (spells_identifier identifier)
      (.token .opening Spells.closing.spelled)
    exact ⟨_, by simpa [Phrase.call, commaSeparated, Expr.phrases] using enclosed, .emptyCall⟩
  · obtain ⟨tokens, spelled, derives⟩ := derives_commaSeparated operands none prints
    have enclosed := Spelled.token (spells_identifier identifier)
      (.token .opening (spelled.append Spells.closing.spelled))
    exact ⟨_, by simpa [Phrase.call] using enclosed, .call derives⟩

/-- A name of its own, with any number of operands, is printed as a call. -/
theorem operation_identifier {name : String} {operands : List Phrase}
    (identifier : isIdentifier name = true)
    (notNegation : ¬ (name = "negate" ∧ operands.length = 1)) :
    operation name operands = call name operands := by
  -- The name is no operator's sign, and the negation is excluded.
  have noSymbol := ofSymbol?_identifier identifier
  unfold operation
  split
  · rename_i found
    rw [noSymbol] at found
    exact nomatch found
  · exact if_neg fun negate => notNegation ⟨negate, rfl⟩
  · rfl

end Phrase

namespace Expr

/-- Every operand is printed as one phrase. -/
theorem length_phrases (operands : List Expr) : (phrases operands).length = operands.length := by
  -- Each operand has one phrase.
  induction operands with
  | nil => rfl
  | cons first rest ih => simp [phrases, ih]

/-- An operation with an operator's sign is printed with the sign between its operands. -/
theorem phrase_binary (operator : Operator) (left right : Expr) :
    (Expr.op operator.symbol [left, right]).phrase =
      .binary operator left.phrase right.phrase := by
  -- The symbol of an operator with two operands is printed between them.
  simp [phrase, phrases, Phrase.operation, operator.ofSymbol?_symbol]

/-- An operation with a name of its own is printed as a call. -/
theorem phrase_call {name : String} {operands : List Expr} (identifier : isIdentifier name = true)
    (notNegation : ¬ (name = "negate" ∧ operands.length = 1)) :
    (Expr.op name operands).phrase = .call name (phrases operands) := by
  -- A name that is no operator is printed in front of its operands.
  rw [phrase]
  exact Phrase.operation_identifier identifier (by rwa [length_phrases])

/-- A printable expression is printed as a phrase of the strength that the printer gives it. -/
theorem Printable.prints {standing : Standing} {expr : Expr} (printable : Printable standing expr) :
    expr.phrase.Prints expr.unsigned ∧ (standing = .operand → 1 ≤ expr.phrase.strength) := by
  have atomBinds : 1 ≤ Operator.atomStrength := by decide
  have negationBinds : 1 ≤ Operator.negationStrength := by decide
  -- Strength is carried along, since what binds as an assignment needs a statement around it.
  induction printable with
  | number finite notNegativeZero =>
    refine ⟨Phrase.prints_number finite notNegativeZero, fun _ => ?_⟩
    simp only [phrase, Phrase.number]
    split <;> decide
  | variableName identifier =>
    exact ⟨⟨_, (spells_identifier identifier).spelled, .variableName⟩, fun _ => atomBinds⟩
  | @binary operator left right arithmetic _ _ first second =>
    rw [phrase_binary]
    exact ⟨first.1.binary arithmetic second.1 (first.2 rfl) (second.2 rfl),
      fun _ => Operator.strength_pos arithmetic⟩
  | negation _ inner => exact ⟨inner.1.negation (inner.2 rfl), fun _ => negationBinds⟩
  | @call name operands identifier notNegation _ inner =>
    rw [phrase_call identifier notNegation]
    exact ⟨Phrase.prints_call identifier fun operand member =>
      (inner operand member).1.loosen (Nat.zero_le _), fun _ => atomBinds⟩
  | assignment identifier _ inner => exact ⟨inner.1.assignment identifier (inner.2 rfl), nofun⟩
  | expression _ inner => exact ⟨inner.1, nofun⟩

/-- The text of a printable statement reads as the statement. -/
theorem Printable.readExpr_text {expr : Expr} (printable : Printable .statement expr) :
    readExpr expr.text = .ok expr.unsigned := by
  -- Trimming takes no token away from a text.
  obtain ⟨tokens, spelled, derives⟩ := printable.prints.1.loosen (Nat.zero_le _)
  rw [readExpr_eq_ok_iff, text, String.toList_ofList]
  exact ⟨tokens, spelled.trim, derives⟩

/--
Printing and reading undo each other.

A printable expression reads back with its negative numbers as negations; without negative
numbers it reads back as itself, so no two such expressions have the same text.
-/
theorem readExpr_text_printable :
    (∀ expr : Expr, Printable .statement expr → readExpr expr.text = .ok expr.unsigned) ∧
    (∀ expr : Expr, Printable .statement expr → (∀ value ∈ expr.numbers, ¬ value < 0) →
      readExpr expr.text = .ok expr) ∧
    ∀ left right : Expr, Printable .statement left → Printable .statement right →
      (∀ value ∈ left.numbers, ¬ value < 0) → (∀ value ∈ right.numbers, ¬ value < 0) →
      left.text = right.text → left = right := by
  -- Without negative numbers the tree that is read is the one that was printed.
  have back : ∀ expr : Expr, Printable .statement expr → (∀ value ∈ expr.numbers, ¬ value < 0) →
      readExpr expr.text = .ok expr := by
    intro expr printable nonnegative
    rw [printable.readExpr_text, unsigned_eq_self expr nonnegative]
  refine ⟨fun _ printable => printable.readExpr_text, back, ?_⟩
  intro left right leftPrintable rightPrintable leftNonnegative rightNonnegative same
  have read := back left leftPrintable leftNonnegative
  rw [same, back right rightPrintable rightNonnegative] at read
  exact (Except.ok.inj read).symm

/-- A negative number reads back as a negation, and parentheses tell two groupings apart. -/
theorem readExpr_text_printable_samples :
    readExpr "f(x := -3, a ^ (-b))" = .ok (.op "f" [.assign "x" (.negate (.num 3)),
      .op "^" [.var "a", .negate (.var "b")]]) ∧
    readExpr "a - (b - 2)" = .ok (.op "-" [.var "a", .op "-" [.var "b", .num 2]]) ∧
    (Expr.op "-" [.op "-" [.var "a", .var "b"], .num 2]).text ≠
      (Expr.op "-" [.var "a", .op "-" [.var "b", .num 2]]).text := by
  -- The trees are printable by the rules for their parts.
  have a : Printable .operand (.var "a") := .variableName (by decide)
  have b : Printable .operand (.var "b") := .variableName (by decide)
  have two : Printable .operand (.num 2) := .number rfl (by decide)
  have three : Printable .operand (.num (-3)) := .number rfl (by decide)
  have nonnegative : ¬ (2 : Float) < 0 := by decide
  have call : Printable .statement (.op "f" [.assign "x" (.num (-3)),
      .op "^" [.var "a", .negate (.var "b")]]) := by
    refine .expression (.call (by decide) (by simp) ?_)
    simp only [List.mem_cons, List.not_mem_nil, or_false, forall_eq_or_imp, forall_eq]
    exact ⟨.assignment (by decide) three,
      .expression (@Printable.binary .power _ _ (by decide) a (.negation b))⟩
  have minus : ∀ left right : Expr, Printable .operand left → Printable .operand right →
      Printable .operand (.op "-" [left, right]) :=
    fun _ _ => @Printable.binary .subtract _ _ (by decide)
  have left : Printable .statement (.op "-" [.op "-" [.var "a", .var "b"], .num 2]) :=
    .expression (minus _ _ (minus _ _ a b) two)
  have right : Printable .statement (.op "-" [.var "a", .op "-" [.var "b", .num 2]]) :=
    .expression (minus _ _ a (minus _ _ b two))
  obtain ⟨reads, same, injective⟩ := readExpr_text_printable
  have leftNonnegative : ∀ value ∈ numbers (.op "-" [.op "-" [.var "a", .var "b"], .num 2]),
      ¬ value < 0 := by
    simp [numbers, numbersOf, nonnegative]
  have rightNonnegative : ∀ value ∈ numbers (.op "-" [.var "a", .op "-" [.var "b", .num 2]]),
      ¬ value < 0 := by
    simp [numbers, numbersOf, nonnegative]
  have callBack := reads _ call
  have rightBack := same _ right rightNonnegative
  refine ⟨callBack, rightBack, fun text => ?_⟩
  exact absurd (injective _ _ left right leftNonnegative rightNonnegative text) (by simp)

end Expr

end Calculator
