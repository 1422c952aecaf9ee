import Calculator.Proofs.Expr.Parts
import Calculator.Proofs.Expr.RoundTrip
import Calculator.Proofs.Number.Sign

/-! Expressions that were read can be printed and read again, unless an assignment is negated. -/

namespace Calculator

open Grammar

namespace Expr

/-- Reading can give the expression at the place where it stands. A call may negate an assignment,
though no sign before parentheses does. -/
inductive Readable : Standing → Expr → Prop
  | number {value : Float} (unsigned : ¬ value < 0) (notNegativeZero : value ≠ -0.0) :
      Readable .operand (.num value)
  | variableName {name : String} (identifier : isIdentifier name = true) :
      Readable .operand (.var name)
  | binary {operator : Operator} {left right : Expr} (arithmetic : operator ≠ .assign) :
      Readable .operand left → Readable .operand right →
      Readable .operand (.op operator.symbol [left, right])
  | negation {operand : Expr} : Readable .operand operand → Readable .operand (.negate operand)
  | call {name : String} {operands : List Expr} (identifier : isIdentifier name = true) :
      (∀ operand ∈ operands, Readable .statement operand) → Readable .operand (.op name operands)
  | assignment {name : String} {value : Expr} (identifier : isIdentifier name = true) :
      Readable .operand value → Readable .statement (.assign name value)
  | expression {value : Expr} : Readable .operand value → Readable .statement value

/-- Somewhere in the expression an assignment is negated. -/
def NegatesAssignment (expr : Expr) : Prop :=
  ∃ name value, IsPart (.negate (.assign name value)) expr

/-- The numbers in several expressions are the numbers in each of them. -/
theorem mem_numbersOf {value : Float} {operands : List Expr} :
    value ∈ numbersOf operands ↔ ∃ operand ∈ operands, value ∈ operand.numbers := by
  -- The operands are looked at one by one.
  induction operands with
  | nil => simp [numbersOf]
  | cons first rest ih => simp [numbersOf, ih]

/-- The numbers in an operation are the numbers in its operands. -/
theorem mem_numbers_op {value : Float} {name : String} {operands : List Expr} :
    value ∈ (Expr.op name operands).numbers ↔ ∃ operand ∈ operands, value ∈ operand.numbers := by
  -- The numbers of an operation are those of its operands.
  rw [numbers, mem_numbersOf]

/-- The numbers in an operand are finite where those in the operation are. -/
theorem finite_operand {name : String} {operands : List Expr}
    (finite : ∀ value ∈ (Expr.op name operands).numbers, value.isFinite = true) :
    ∀ operand ∈ operands, ∀ value ∈ operand.numbers, value.isFinite = true := by
  -- A number in an operand is one in the operation.
  intro operand member value inside
  exact finite value (mem_numbers_op.mpr ⟨operand, member, inside⟩)

/-- Nothing is negated in a number. -/
@[simp] theorem not_negatesAssignment_num (value : Float) :
    ¬ (Expr.num value).NegatesAssignment := by
  -- A number has no parts but itself.
  rintro ⟨_, _, part⟩
  cases part

/-- Nothing is negated in a variable. -/
@[simp] theorem not_negatesAssignment_var (name : String) :
    ¬ (Expr.var name).NegatesAssignment := by
  -- A variable has no parts but itself.
  rintro ⟨_, _, part⟩
  cases part

/-- An operation negates an assignment if it does so itself or in an operand. -/
@[simp] theorem negatesAssignment_op {name : String} {operands : List Expr} :
    (Expr.op name operands).NegatesAssignment ↔
      (∃ operand ∈ operands, operand.NegatesAssignment) ∨
        ∃ target value, name = "negate" ∧ operands = [.assign target value] := by
  -- The negation is the whole tree, or it stands in one of the operands.
  constructor
  · rintro ⟨target, value, part⟩
    cases part with
    | whole => exact .inr ⟨target, value, rfl, rfl⟩
    | operand member part => exact .inl ⟨_, member, target, value, part⟩
  · rintro (⟨operand, member, target, value, part⟩ | ⟨target, value, rfl, rfl⟩)
    · exact ⟨target, value, .operand member part⟩
    · exact ⟨target, value, .whole⟩

/-- A printable statement that is no assignment stands as an operand too. -/
theorem Printable.statement_cases {expr : Expr} (printable : Printable .statement expr) :
    (∃ name value, expr = .assign name value) ∨ Printable .operand expr := by
  -- A statement is an assignment or an expression.
  cases printable with
  | assignment => exact .inl ⟨_, _, rfl⟩
  | expression operand => exact .inr operand

namespace Readable

variable {standing : Standing} {expr : Expr}

/-- No number that was read is below zero. -/
theorem nonnegative (readable : Readable standing expr) : ∀ value ∈ expr.numbers, ¬ value < 0 := by
  -- Numbers stand at the leaves, and there they are as they were read.
  induction readable with
  | number unsigned => simpa [numbers] using unsigned
  | variableName => simp [numbers]
  | expression _ ih => exact ih
  | binary _ _ _ left right =>
    intro value member
    simp only [mem_numbers_op, List.mem_cons, List.not_mem_nil, or_false, exists_eq_or_imp,
      exists_eq_left] at member
    rcases member with member | member
    · exact left value member
    · exact right value member
  | negation _ ih => simpa [negate, numbers, numbersOf] using ih
  | assignment _ _ ih => simpa [assign, numbers, numbersOf] using ih
  | call _ _ ih =>
    intro value member
    obtain ⟨operand, isOperand, member⟩ := mem_numbers_op.mp member
    exact ih operand isOperand value member

/-- What was read is printable if its numbers are finite and no assignment is negated. -/
theorem printable (readable : Readable standing expr)
    (finite : ∀ value ∈ expr.numbers, value.isFinite = true) (plain : ¬ expr.NegatesAssignment) :
    Printable standing expr := by
  -- Both conditions are handed down to the operands of an operation.
  have plainOperand : ∀ {name : String} {operands : List Expr},
      ¬ (Expr.op name operands).NegatesAssignment →
      ∀ operand ∈ operands, ¬ operand.NegatesAssignment := by
    intro name operands plain operand member negates
    exact plain (negatesAssignment_op.mpr (.inl ⟨operand, member, negates⟩))
  induction readable with
  | number unsigned notNegativeZero =>
    exact .number (finite _ (by simp [numbers])) notNegativeZero
  | variableName identifier => exact .variableName identifier
  | expression _ ih => exact .expression (ih finite plain)
  | @binary operator left right arithmetic _ _ leftIh rightIh =>
    apply Printable.binary arithmetic
    · exact leftIh (finite_operand finite left (by simp)) (plainOperand plain left (by simp))
    · exact rightIh (finite_operand finite right (by simp)) (plainOperand plain right (by simp))
  | @negation operand _ ih =>
    apply Printable.negation
    exact ih (finite_operand finite operand (by simp)) (plainOperand plain operand (by simp))
  | @assignment name value identifier _ ih =>
    apply Printable.assignment identifier
    exact ih (finite_operand finite value (by simp)) (plainOperand plain value (by simp))
  | @call name operands identifier _ ih =>
    have inner : ∀ operand ∈ operands, Printable .statement operand := fun operand member =>
      ih operand member (finite_operand finite operand member) (plainOperand plain operand member)
    by_cases negation : name = "negate" ∧ operands.length = 1
    · -- A called negation is printed with a sign, and its operand is no assignment.
      obtain ⟨rfl, single⟩ := negation
      obtain ⟨operand, rfl⟩ := List.length_eq_one_iff.mp single
      rcases (inner operand (by simp)).statement_cases with ⟨target, value, rfl⟩ | printable
      · exact absurd ⟨target, value, .whole⟩ plain
      · exact .negation printable
    · exact .call identifier negation inner

end Readable

end Expr

namespace Grammar

/-- What the names and numbers of a text are: identifiers, and doubles without a sign. -/
def Token.IsWritten : Token → Prop
  | .name text => isIdentifier text = true
  | .number value => ¬ value < 0 ∧ value ≠ -0.0
  | _ => True

/-- A token that is spelled is one that can be written. -/
theorem Spells.isWritten {chars : List Char} {token : Token} (spells : Spells chars token) :
    token.IsWritten := by
  cases spells with
  | number literal => exact Numeral.toFloat_unsigned _
  | name starts continues =>
    -- The characters of the name are those that an identifier is made of.
    simp only [Token.IsWritten, isIdentifier, String.toList_ofList, Bool.and_eq_true,
      List.all_eq_true]
    exact ⟨starts, continues⟩
  | _ => trivial

/-- All tokens of a text are ones that can be written. -/
theorem Spelled.isWritten {text : List Char} {tokens : List Token} (spelled : Spelled text tokens) :
    ∀ token ∈ tokens, token.IsWritten := by
  -- Each token is written by the characters that spell it.
  induction spelled with
  | nil => simp
  | blank _ _ ih => exact ih
  | token spells _ ih => exact List.forall_mem_cons.mpr ⟨spells.isWritten, ih⟩

/-- What a phrase of the form has read. -/
def Form.IsReadable : Form → Prop
  | .statement value => value.Readable .statement
  | .sum value | .product value | .unary value | .power value | .atom value =>
    value.Readable .operand
  | .arguments values => ∀ value ∈ values, value.Readable .statement

/-- Phrases spell readable expressions. -/
theorem Derives.isReadable {form : Form} {tokens : List Token} (derives : Derives form tokens)
    (written : ∀ token ∈ tokens, token.IsWritten) : form.IsReadable := by
  -- Each production takes its words from the tokens, and its parts are read already.
  have split {before after : List Token} {joint : Token}
      (all : ∀ token ∈ before ++ joint :: after, token.IsWritten) :
      (∀ token ∈ before, token.IsWritten) ∧ joint.IsWritten ∧ ∀ token ∈ after, token.IsWritten := by
    simpa only [List.forall_mem_append, List.forall_mem_cons] using all
  induction derives with
  | expression _ ih => exact .expression (ih written)
  | product _ ih | unary _ ih | power _ ih | atom _ ih => exact ih written
  | assignment _ ih =>
    simp only [List.forall_mem_cons] at written
    exact .assignment written.1 (ih written.2.2)
  | add _ _ left right =>
    obtain ⟨before, _, after⟩ := split written
    exact @Expr.Readable.binary .add _ _ (by decide) (left before) (right after)
  | subtract _ _ left right =>
    obtain ⟨before, _, after⟩ := split written
    exact @Expr.Readable.binary .subtract _ _ (by decide) (left before) (right after)
  | multiply _ _ left right =>
    obtain ⟨before, _, after⟩ := split written
    exact @Expr.Readable.binary .multiply _ _ (by decide) (left before) (right after)
  | divide _ _ left right =>
    obtain ⟨before, _, after⟩ := split written
    exact @Expr.Readable.binary .divide _ _ (by decide) (left before) (right after)
  | raised _ _ left right =>
    obtain ⟨before, _, after⟩ := split written
    exact @Expr.Readable.binary .power _ _ (by decide) (left before) (right after)
  | negation _ ih => exact .negation (ih (List.forall_mem_cons.mp written).2)
  | number =>
    obtain ⟨unsigned, notNegativeZero⟩ := written _ List.mem_cons_self
    exact .number unsigned notNegativeZero
  | variableName => exact .variableName (written _ List.mem_cons_self)
  | parentheses _ ih =>
    obtain ⟨inside, _⟩ := split (List.forall_mem_cons.mp written).2
    exact ih inside
  | emptyCall => exact .call (written _ List.mem_cons_self) (by simp)
  | call _ ih =>
    obtain ⟨isName, written⟩ := List.forall_mem_cons.mp written
    obtain ⟨inside, _⟩ := split (List.forall_mem_cons.mp written).2
    exact .call isName (ih inside)
  | lastArgument _ ih => exact List.forall_mem_singleton.mpr (ih written)
  | moreArguments _ _ first rest =>
    obtain ⟨before, _, after⟩ := split written
    exact List.forall_mem_cons.mpr ⟨first before, rest after⟩

section Patterns

variable {pattern before after : List Token} {joint : Token}

/-- A pattern in front of some tokens that a joint is no part of ends before the joint. -/
theorem prefix_of_append (apart : joint ∉ pattern) (found : pattern <+: before ++ joint :: after) :
    pattern <+: before := by
  -- The pattern is followed token by token; it never gets as far as the joint.
  induction before generalizing pattern with
  | nil =>
    cases pattern with
    | nil => exact List.nil_prefix
    | cons first rest =>
      obtain ⟨rfl, _⟩ := List.cons_prefix_cons.mp found
      simp at apart
  | cons token before ih =>
    cases pattern with
    | nil => exact List.nil_prefix
    | cons first rest =>
      obtain ⟨same, tail⟩ := List.cons_prefix_cons.mp found
      simp only [List.mem_cons, not_or] at apart
      exact List.cons_prefix_cons.mpr ⟨same, ih apart.2 tail⟩

/-- A pattern that a joint can only begin stands before the joint, or from it on. -/
theorem infix_of_append {first : Token} (apart : joint ∉ pattern)
    (found : first :: pattern <:+: before ++ joint :: after) :
    first :: pattern <:+: before ∨ first :: pattern <:+: joint :: after := by
  induction before with
  | nil => exact .inr found
  | cons token before ih =>
    rw [List.cons_append, List.infix_cons_iff] at found
    rw [List.infix_cons_iff]
    rcases found with front | later
    · -- A pattern in front ends before the joint.
      obtain ⟨same, tail⟩ := List.cons_prefix_cons.mp front
      exact .inl (.inl (List.cons_prefix_cons.mpr ⟨same, prefix_of_append apart tail⟩))
    · rcases ih later with found | found
      · exact .inl (.inr found)
      · exact .inr found

end Patterns

/-- Somewhere a sign stands before a parenthesis that an assignment follows. -/
def SignsAssignment (tokens : List Token) : Prop :=
  ∃ target, [.minus, .opening, .name target, .assign] <:+: tokens

/-- The token is none of those that start an assignment in parentheses. -/
def Token.cuts : Token → Bool
  | .opening | .name _ | .assign => false
  | _ => true

/-- A token that cuts does not stand in the start of an assignment in parentheses. -/
theorem Token.not_mem_of_cuts {joint : Token} (cuts : joint.cuts = true) (target : String) :
    joint ∉ [.opening, .name target, .assign] := by
  -- The tokens that cut are none of these three.
  cases joint <;> simp_all [Token.cuts]

/-- Only statements and arguments start with an assignment. -/
def Form.allowsAssignment : Form → Bool
  | .statement _ | .arguments _ => true
  | _ => false

section Refusal

variable {form : Form} {tokens : List Token}

/-- No phrase starts with an assignment in parentheses, and few start with an assignment. -/
theorem Derives.not_opens (derives : Derives form tokens) (target : String) :
    ¬ [.opening, .name target, .assign] <+: tokens ∧
      (form.allowsAssignment = false → ¬ [.name target, .assign] <+: tokens) := by
  -- What stands before an operator or a comma decides how the whole starts.
  have cut {before after : List Token} {joint : Token} (cuts : joint.cuts = true) :
      ([.opening, .name target, .assign] <+: before ++ joint :: after →
          [.opening, .name target, .assign] <+: before) ∧
        ([.name target, .assign] <+: before ++ joint :: after →
          [.name target, .assign] <+: before) := by
    have apart := Token.not_mem_of_cuts cuts target
    exact ⟨prefix_of_append apart, prefix_of_append (List.not_mem_of_not_mem_cons apart)⟩
  induction derives with
  | expression _ ih | lastArgument _ ih => exact ⟨ih.1, nofun⟩
  | product _ ih | unary _ ih | power _ ih | atom _ ih => exact ⟨ih.1, fun _ => ih.2 rfl⟩
  | add _ _ ih _ | subtract _ _ ih _ | multiply _ _ ih _ | divide _ _ ih _ | raised _ _ ih _ =>
    exact ⟨fun found => ih.1 ((cut rfl).1 found), fun _ found => ih.2 rfl ((cut rfl).2 found)⟩
  | moreArguments _ _ ih _ => exact ⟨fun found => ih.1 ((cut rfl).1 found), nofun⟩
  | assignment => simp [Form.allowsAssignment]
  | negation | number | variableName | emptyCall | call => simp
  | parentheses _ ih =>
    -- Parentheses hold a sum, which no assignment starts.
    refine ⟨fun found => ?_, by simp⟩
    exact ih.2 rfl ((cut rfl).2 (List.cons_prefix_cons.mp found).2)

/-- No phrase negates an assignment in parentheses. -/
theorem Derives.not_signsAssignment (derives : Derives form tokens) : ¬ SignsAssignment tokens := by
  rintro ⟨target, found⟩
  have apart {joint : Token} (cuts : joint.cuts = true) := Token.not_mem_of_cuts cuts target
  -- Only a sign begins the pattern, and what follows the sign is a phrase.
  have signed {rest : List Token} {form : Form} (derives : Derives form rest)
      (found : [.minus, .opening, .name target, .assign] <:+: .minus :: rest) :
      [.minus, .opening, .name target, .assign] <:+: rest := by
    rcases List.infix_cons_iff.mp found with front | later
    · exact absurd (List.cons_prefix_cons.mp front).2 (derives.not_opens target).1
    · exact later
  have unsigned {first : Token} {rest : List Token} (other : Token.minus ≠ first)
      (found : [.minus, .opening, .name target, .assign] <:+: first :: rest) :
      [.minus, .opening, .name target, .assign] <:+: rest := by
    rcases List.infix_cons_iff.mp found with front | later
    · exact absurd (List.cons_prefix_cons.mp front).1 other
    · exact later
  induction derives with
  | expression _ ih | product _ ih | unary _ ih | power _ ih | atom _ ih | lastArgument _ ih =>
    exact ih found
  | assignment _ ih => exact ih (unsigned (by simp) (unsigned (by simp) found))
  | negation inner ih => exact ih (signed inner found)
  | add _ _ left right | multiply _ _ left right | divide _ _ left right
  | raised _ _ left right | moreArguments _ _ left right =>
    rcases infix_of_append (apart rfl) found with found | found
    · exact left found
    · exact right (unsigned (by simp) found)
  | subtract _ behind left right =>
    rcases infix_of_append (apart rfl) found with found | found
    · exact left found
    · exact right (signed behind found)
  | number | variableName | emptyCall => simp [List.infix_cons_iff] at found
  | parentheses _ ih =>
    rcases infix_of_append (apart rfl) (unsigned (by simp) found) with found | found
    · exact ih found
    · simp [List.infix_cons_iff] at found
  | call _ ih =>
    have inside := unsigned (by simp) (unsigned (by simp) found)
    rcases infix_of_append (apart rfl) inside with found | found
    · exact ih found
    · simp [List.infix_cons_iff] at found

end Refusal

/-- The text is split into the tokens, and no two words among them run together. -/
def ReadsAs (text : List Char) (tokens : List Token) : Prop :=
  Spelled text tokens ∧ tokens.IsChain Token.Apart

/-- The tokens, in parentheses when asked. -/
def Token.guarded (tokens : List Token) (parenthesised : Bool) : List Token :=
  if parenthesised then .opening :: tokens ++ [.closing] else tokens

/-- Parentheses leave the tokens between them as they are. -/
theorem Token.infix_guarded (tokens : List Token) (parenthesised : Bool) :
    tokens <:+: Token.guarded tokens parenthesised := by
  -- Parentheses stand around the tokens, if at all.
  cases parenthesised with
  | false => exact List.infix_rfl
  | true => exact ⟨[.opening], [.closing], rfl⟩

namespace ReadsAs

variable {text more : List Char} {before after tokens : List Token} {joint : Token}

/-- One token is split from nothing. -/
theorem single {token : Token} (spells : Spells text token) : ReadsAs text [token] :=
  ⟨spells.spelled, .singleton _⟩

/-- A mark between two texts keeps their tokens apart. -/
theorem join {mark : List Char} (first : ReadsAs text before) (spelled : Spelled mark [joint])
    (isMark : joint.isWord = false) (second : ReadsAs more after) :
    ReadsAs (text ++ (mark ++ more)) (before ++ joint :: after) :=
  ⟨first.1.append (spelled.append second.1), Derives.isChain_append first.2 second.2 isMark⟩

/-- A phrase, in parentheses where they are asked for. -/
theorem guarded {phrase : Phrase} (reads : ReadsAs phrase.chars tokens) (parenthesised : Bool) :
    ReadsAs (phrase.guarded parenthesised) (Token.guarded tokens parenthesised) := by
  -- A parenthesis is a token on each side, and neither of them joins with its neighbour.
  cases parenthesised with
  | false => exact reads
  | true =>
    have closed := reads.join Spells.closing.spelled rfl ⟨.nil, .nil⟩
    exact join ⟨.nil, .nil⟩ Spells.opening.spelled rfl closed

/-- An operator between its operands, of which each is in parentheses or not. -/
theorem binary {left right : Phrase} (operator : Operator) (first : ReadsAs left.chars before)
    (second : ReadsAs right.chars after) :
    ReadsAs (Phrase.binary operator left right).chars
      (Token.guarded before (left.strength < operator.strength ||
          operator.groupsRight && left.strength == operator.strength) ++ operator.token ::
        Token.guarded after (right.strength < operator.strength ||
          !operator.groupsRight && right.strength == operator.strength)) := by
  -- The symbol stands between blanks, so that it joins with neither side.
  have mark : operator.token.isWord = false := by cases operator <;> rfl
  have spelled : Spelled (' ' :: (operator.symbol.toList ++ [' '])) [operator.token] :=
    Phrase.spelled_between operator.spells_symbol .nil
  have joined (leftParenthesised rightParenthesised : Bool) :=
    (first.guarded leftParenthesised).join spelled mark (second.guarded rightParenthesised)
  simpa [Phrase.binary] using joined _ _

end ReadsAs

/-- A pattern in some tokens is one in all tokens around them. -/
theorem SignsAssignment.mono {tokens around : List Token} (signs : SignsAssignment tokens)
    (inside : tokens <:+: around) : SignsAssignment around := by
  -- What is found within is found around it.
  obtain ⟨target, found⟩ := signs
  exact ⟨target, found.trans inside⟩

end Grammar

namespace Expr

/-- The tokens of a printed expression, and what they show of its assignments. -/
structure Shows (expr : Expr) (tokens : List Token) : Prop where
  reads : ReadsAs expr.phrase.chars tokens
  signs : expr.NegatesAssignment → SignsAssignment tokens
  assigns : ∀ name value, expr = .assign name value →
    expr.phrase.strength = 0 ∧ [.name name, .assign] <+: tokens

namespace Shows

/-- A negated expression shows a sign, and before an assignment it shows parentheses too. -/
theorem negate {operand : Expr} {tokens : List Token} (shown : Shows operand tokens) :
    ∃ around, Shows operand.negate around := by
  have guarded := shown.reads.guarded (operand.phrase.strength < Operator.negationStrength)
  have signed := ReadsAs.join ⟨.nil, .nil⟩ Spells.minus.spelled rfl guarded
  refine ⟨_, signed, fun negates => ?_, by simp [Expr.negate, assign]⟩
  rcases negatesAssignment_op.mp negates with ⟨_, member, negates⟩ | ⟨target, value, _, same⟩
  · -- The pattern stands in the operand already.
    rw [List.mem_singleton.mp member] at negates
    apply (shown.signs negates).mono
    exact (Token.infix_guarded _ _).trans (List.suffix_cons _ _).isInfix
  · -- An assignment binds looser than a sign, so it stands in parentheses.
    obtain ⟨loose, rest, starts⟩ := shown.assigns target value (List.singleton_inj.mp same)
    refine ⟨target, [], rest ++ [.closing], ?_⟩
    simp [loose, Operator.negationStrength, Token.guarded, ← starts]

/-- A part that negates an assignment shows it on either side of an operator. -/
theorem signs_binary {left right : Expr} {before after : List Token} {operator : Operator}
    {leftParenthesised rightParenthesised : Bool} (first : Shows left before)
    (second : Shows right after)
    (negates : (Expr.op operator.symbol [left, right]).NegatesAssignment) :
    SignsAssignment (Token.guarded before leftParenthesised ++
      operator.token :: Token.guarded after rightParenthesised) := by
  -- A negated assignment stands on the left or on the right, and parentheses do not hide it.
  rcases negatesAssignment_op.mp negates with ⟨operand, member, inner⟩ | ⟨_, _, _, same⟩
  · simp only [List.mem_cons, List.not_mem_nil, or_false] at member
    rcases member with rfl | rfl
    · apply (first.signs inner).mono
      exact (Token.infix_guarded _ _).trans (List.prefix_append _ _).isInfix
    · apply (second.signs inner).mono
      apply (Token.infix_guarded _ _).trans
      exact ((List.suffix_cons _ _).trans (List.suffix_append _ _)).isInfix
  · simp at same

/-- An arithmetic operator stands between what its operands show. -/
theorem binary {operator : Operator} {left right : Expr} {before after : List Token}
    (arithmetic : operator ≠ .assign) (first : Shows left before) (second : Shows right after) :
    ∃ tokens, Shows (.op operator.symbol [left, right]) tokens := by
  have reads := first.reads.binary operator second.reads
  rw [← phrase_binary] at reads
  refine ⟨_, reads, first.signs_binary second, fun name value same => ?_⟩
  -- No arithmetic sign is that of an assignment.
  rw [assign, Expr.op.injEq] at same
  cases operator with
  | assign => exact absurd rfl arithmetic
  | _ => exact absurd same.1 (by decide)

/-- A variable shows its name. -/
theorem variableName {name : String} (identifier : isIdentifier name = true) :
    Shows (.var name) [.name name] := by
  -- A variable is one token and has no operation in it.
  exact ⟨.single (spells_identifier identifier), by simp, nofun⟩

/-- An assignment shows its target first. -/
theorem assignment {name : String} {value : Expr} {tokens : List Token}
    (identifier : isIdentifier name = true) (shown : Shows value tokens) :
    ∃ around, Shows (.assign name value) around := by
  have target := variableName identifier
  have reads := target.reads.binary .assign shown.reads
  rw [← phrase_binary] at reads
  refine ⟨_, reads, @signs_binary _ _ _ _ .assign _ _ target shown, fun other _ same => ⟨?_, ?_⟩⟩
  · exact congrArg Phrase.strength (phrase_binary .assign (.var name) value)
  · -- A name binds tighter than an assignment, so it needs no parentheses.
    simp only [assign, Expr.op.injEq, List.cons.injEq, Expr.var.injEq] at same
    rw [← same.2.1]
    exact List.prefix_append [Token.name name, .assign] _

/-- Arguments show what each of them does, with commas between them. -/
theorem commaSeparated {operands : List Expr}
    (shown : ∀ operand ∈ operands, ∃ tokens, Shows operand tokens) :
    ∃ tokens, ReadsAs (Phrase.commaSeparated (phrases operands)) tokens ∧
      ((∃ operand ∈ operands, operand.NegatesAssignment) → SignsAssignment tokens) := by
  -- The last argument has no comma behind it.
  induction operands with
  | nil => exact ⟨[], ⟨.nil, .nil⟩, by simp⟩
  | cons first rest ih =>
    obtain ⟨tokens, shows⟩ := shown first (by simp)
    cases rest with
    | nil => exact ⟨tokens, shows.reads, by simpa using shows.signs⟩
    | cons second rest =>
      obtain ⟨further, reads, signs⟩ := ih fun operand member =>
        shown operand (List.mem_cons_of_mem _ member)
      have spelled : Spelled [',', ' '] [.comma] := .token .comma (.blank rfl .nil)
      refine ⟨_, shows.reads.join spelled rfl reads, ?_⟩
      rintro ⟨operand, member, negates⟩
      rcases List.mem_cons.mp member with rfl | member
      · exact (shows.signs negates).mono (List.prefix_append _ _).isInfix
      · apply (signs ⟨operand, member, negates⟩).mono
        exact ((List.suffix_cons _ _).trans (List.suffix_append _ _)).isInfix

/-- A call shows its name before its arguments in parentheses. -/
theorem call {name : String} {operands : List Expr} (identifier : isIdentifier name = true)
    (notNegation : ¬ (name = "negate" ∧ operands.length = 1))
    (shown : ∀ operand ∈ operands, ∃ tokens, Shows operand tokens) :
    ∃ tokens, Shows (.op name operands) tokens := by
  obtain ⟨inside, reads, signs⟩ := commaSeparated shown
  have closed := reads.join Spells.closing.spelled rfl ⟨.nil, .nil⟩
  have named := ReadsAs.single (spells_identifier identifier)
  have opened := named.join Spells.opening.spelled rfl closed
  have whole : ReadsAs (Expr.op name operands).phrase.chars
      ([.name name, .opening] ++ (inside ++ [.closing])) := by
    simpa [phrase_call identifier notNegation, Phrase.call] using opened
  refine ⟨_, whole, fun negates => ?_, fun target value same => ?_⟩
  · rcases negatesAssignment_op.mp negates with negates | ⟨_, _, rfl, rfl⟩
    · apply (signs negates).mono
      exact (List.prefix_append _ _).isInfix.trans (List.suffix_append _ _).isInfix
    · exact absurd ⟨rfl, rfl⟩ notNegation
  · -- The sign of an assignment is no identifier.
    rw [assign, Expr.op.injEq] at same
    rw [same.1] at identifier
    exact absurd identifier (by decide)

end Shows

/-- What was read and holds finite numbers only is printed as tokens that show its assignments. -/
theorem Readable.exists_shows {standing : Standing} {expr : Expr}
    (readable : Readable standing expr)
    (finite : ∀ value ∈ expr.numbers, value.isFinite = true) : ∃ tokens, Shows expr tokens := by
  induction readable with
  | @number value unsigned notNegativeZero =>
    obtain ⟨numeral, literal, _⟩ :=
      exists_literal_numberChars (finite value (by simp [numbers])) unsigned notNegativeZero
    exact ⟨_, .single (.number literal), by simp, nofun⟩
  | variableName identifier => exact ⟨_, .variableName identifier⟩
  | expression _ ih => exact ih finite
  | @binary operator left right arithmetic _ _ leftIh rightIh =>
    obtain ⟨_, first⟩ := leftIh (finite_operand finite left (by simp))
    obtain ⟨_, second⟩ := rightIh (finite_operand finite right (by simp))
    exact first.binary arithmetic second
  | @negation operand _ ih =>
    obtain ⟨_, shown⟩ := ih (finite_operand finite operand (by simp))
    exact shown.negate
  | @assignment name value identifier _ ih =>
    obtain ⟨_, shown⟩ := ih (finite_operand finite value (by simp))
    exact shown.assignment identifier
  | @call name operands identifier _ ih =>
    have inner : ∀ operand ∈ operands, ∃ tokens, Shows operand tokens := fun operand member =>
      ih operand member (finite_operand finite operand member)
    by_cases negation : name = "negate" ∧ operands.length = 1
    · -- A called negation is printed with a sign.
      obtain ⟨rfl, single⟩ := negation
      obtain ⟨operand, rfl⟩ := List.length_eq_one_iff.mp single
      obtain ⟨_, shown⟩ := inner operand (by simp)
      exact shown.negate
    · exact Shows.call identifier negation inner

/-- What an input was read as is readable. -/
theorem readable_of_readExpr {input : String} {expr : Expr} (read : readExpr input = .ok expr) :
    Readable .statement expr := by
  -- What is read was derived from tokens that are written.
  obtain ⟨tokens, spelled, derives⟩ := (readExpr_eq_ok_iff input expr).mp read
  exact derives.isReadable spelled.isWritten

/-- The text of an expression that negates an assignment is refused. -/
theorem Shows.refused {expr : Expr} {tokens : List Token} (shown : Shows expr tokens)
    (negates : expr.NegatesAssignment) : ∃ error, readExpr expr.text = .error (.parse error) := by
  -- The tokens of the text are known, and no phrase is made of them.
  have refuses : ∀ value, ¬ Denotes (trim expr.text.toList) value := by
    intro value denotes
    obtain ⟨other, spelled, derives⟩ := denotes
    have same : other = tokens := by
      rw [← spelled.tokensOf_eq derives.isChain_apart]
      rw [text, String.toList_ofList]
      exact shown.reads.1.trim.tokensOf_eq shown.reads.2
    rw [same] at derives
    exact derives.not_signsAssignment (shown.signs negates)
  cases read : readExpr expr.text with
  | ok value => exact absurd ((readExpr_eq_ok_iff _ value).mp read) (refuses value)
  | error failure =>
    rcases readExpr_eq_error read with ⟨empty, _⟩ | ⟨_, rfl⟩
    · -- The text is not empty, since the sign stands in it.
      have spelled := shown.reads.1.trim
      rw [text, String.toList_ofList] at empty
      rw [empty] at spelled
      have none : tokens = [] := (spelled.tokensOf_eq shown.reads.2).symm
      obtain ⟨_, found⟩ := shown.signs negates
      simp [none] at found
    · exact ⟨_, rfl⟩

/--
What was read can be printed and read again, unless an assignment is negated in it.

A call may negate an assignment, as in `negate(x := y)`, but it is printed with a sign before
parentheses, and parentheses hold no assignment: that text is refused. All else with finite numbers
is read again as it was.
-/
theorem readExpr_text_of_readExpr (input : String) (expr : Expr) (read : readExpr input = .ok expr)
    (finite : ∀ value ∈ expr.numbers, value.isFinite = true) :
    (readExpr expr.text = .ok expr ↔ ¬ expr.NegatesAssignment) ∧
      (expr.NegatesAssignment → ∃ error, readExpr expr.text = .error (.parse error)) := by
  -- The tree is printed as its tokens, and these are refused if an assignment is negated.
  have readable := readable_of_readExpr read
  obtain ⟨tokens, shown⟩ := readable.exists_shows finite
  refine ⟨⟨fun back negates => ?_, fun plain => ?_⟩, shown.refused⟩
  · obtain ⟨error, refused⟩ := shown.refused negates
    rw [back] at refused
    cases refused
  · rw [(readable.printable finite plain).readExpr_text,
      unsigned_eq_self expr readable.nonnegative]

/-- A called negation and an assigned argument are read again from another text than the first. -/
theorem readExpr_text_of_readExpr_call :
    readExpr "f(a:=2, negate(b)^c)" =
      .ok (.op "f" [.assign "a" (.num 2), .op "^" [.negate (.var "b"), .var "c"]]) ∧
    readExpr "f(a := 2, (-b) ^ c)" =
      .ok (.op "f" [.assign "a" (.num 2), .op "^" [.negate (.var "b"), .var "c"]]) := by
  -- The tree is read from the text, and no assignment is negated in it.
  have read : readExpr "f(a:=2, negate(b)^c)" =
      .ok (.op "f" [.assign "a" (.num 2), .op "^" [.negate (.var "b"), .var "c"]]) :=
    readExpr_ofList rfl rfl
  have finite : ∀ value ∈ (Expr.op "f" [.assign "a" (.num 2),
      .op "^" [.negate (.var "b"), .var "c"]]).numbers, value.isFinite = true := by
    simp only [assign, negate, numbers, numbersOf, List.nil_append, List.append_nil,
      List.forall_mem_singleton]
    rfl
  have plain : ¬ (Expr.op "f" [.assign "a" (.num 2),
      .op "^" [.negate (.var "b"), .var "c"]]).NegatesAssignment := by
    simp [assign, negate]
  exact ⟨read, (readExpr_text_of_readExpr _ _ read finite).1.mpr plain⟩

/-- A negated assignment is read from a call, and what it is printed as is refused. -/
theorem readExpr_text_negated_assignment :
    readExpr "negate(x := y)" = .ok (.negate (.assign "x" (.var "y"))) ∧
    (Expr.negate (.assign "x" (.var "y"))).numbers = [] ∧
    (Expr.negate (.assign "x" (.var "y"))).text = "-(x := y)" ∧
    ∃ error, readExpr "-(x := y)" = .error (.parse error) := by
  -- The printed text is an assignment in parentheses behind a sign.
  have printed : (Expr.negate (.assign "x" (.var "y"))).text = "-(x := y)" := by decide
  refine ⟨readExpr_ofList rfl rfl, rfl, printed, ?_⟩
  obtain ⟨_, shown⟩ := (Shows.variableName (by decide : isIdentifier "y" = true)).assignment
    (by decide : isIdentifier "x" = true)
  obtain ⟨_, shown⟩ := shown.negate
  rw [← printed]
  exact shown.refused ⟨"x", .var "y", .whole⟩

end Expr

end Calculator
