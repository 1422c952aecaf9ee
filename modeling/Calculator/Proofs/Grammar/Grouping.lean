import Calculator.Proofs.Grammar.Derivation
import Calculator.Reading

/-! Climbing by binding strength groups a flat row of pieces as the layers of the grammar do. -/

namespace Calculator.Grammar

/-- The value and the rest of a climb, without the bound. -/
def Climbed.outcome {α : Type} {bound : Nat} (climbed : Climbed α bound) : α × List (Term α) :=
  (climbed.value, climbed.rest)

section Climb

variable {α : Type} {operators : Operators α}

/-- What a climb comes to. -/
def climbOutcome (operators : Operators α) (floor : Nat) (row : List (Term α)) :
    Except Fault (α × List (Term α)) :=
  (climb operators floor row).map Climbed.outcome

/-- What extending a value comes to. -/
def extendOutcome (operators : Operators α) (floor : Nat) (left : α) (row : List (Term α)) :
    Except Fault (α × List (Term α)) :=
  (extend operators floor left row).map Climbed.outcome

/-- A larger bound changes nothing about the outcome. -/
theorem map_outcome_map_widen {bound larger : Nat} (atMost : bound ≤ larger)
    (result : Except Fault (Climbed α bound)) :
    (result.map (·.widen atMost)).map Climbed.outcome = result.map Climbed.outcome := by
  -- Widening keeps both the value and the rest.
  cases result <;> rfl

/-- A climb with an outcome ended with this value and this rest. -/
theorem climb_eq_ok {floor : Nat} {row rest : List (Term α)} {value : α}
    (outcome : climbOutcome operators floor row = .ok (value, rest)) :
    ∃ shorter, climb operators floor row = .ok ⟨value, rest, shorter⟩ := by
  -- The outcome of a fault is a fault, so the climb ended well.
  unfold climbOutcome at outcome
  cases ended : climb operators floor row with
  | error fault =>
    rw [ended] at outcome
    exact nomatch outcome
  | ok climbed =>
    rw [ended] at outcome
    obtain ⟨rfl, rfl⟩ := Prod.mk.inj (Except.ok.inj outcome)
    exact ⟨climbed.shorter, rfl⟩

variable {floor : Nat} {term : Term α} {rest last : List (Term α)} {left right operand : α}

/-- A climb starts from the operand at the front and extends it. -/
theorem climbOutcome_operand (noOperator : Binding.ofRule? term.piece.rule = none)
    (worth : term.operand = .ok operand) :
    climbOutcome operators floor (term :: rest) = extendOutcome operators floor operand rest := by
  -- The other branches need an operator at the front or a fault inside the operand.
  rw [climbOutcome, climb]
  split <;> simp_all [extendOutcome]

/-- A leading operator takes the operand behind it, and the climb extends what comes of them. -/
theorem climbOutcome_lead {strength : Nat}
    (leads : Binding.ofRule? term.piece.rule = some ⟨.leading, strength⟩)
    (behind : climbOutcome operators (strength - 1) rest = .ok (operand, last)) :
    climbOutcome operators floor (term :: rest) =
      extendOutcome operators floor (operators.lead term.piece operand) last := by
  -- The climb behind the operator has its own floor, just below the operator's strength.
  obtain ⟨shorter, climbed⟩ := climb_eq_ok behind
  rw [climbOutcome, climb, leads]
  simp only [climbed, map_outcome_map_widen]
  rfl

/-- Nothing extends a value at the end of the row. -/
theorem extendOutcome_nil : extendOutcome operators floor left [] = .ok (left, []) := by
  -- The end of the row binds less than any floor.
  rw [extendOutcome, extend]
  rfl

/-- What binds no tighter than the floor is left in the row. -/
theorem extendOutcome_of_le {binding : Binding}
    (stands : Binding.ofRule? term.piece.rule = some binding) (loose : binding.strength ≤ floor) :
    extendOutcome operators floor left (term :: rest) = .ok (left, term :: rest) := by
  -- The comparison with the floor fails.
  rw [extendOutcome, extend, stands]
  simp only [if_neg (Nat.not_lt.2 loose)]
  rfl

/-- What binds tighter than the floor joins the operand behind it, and the climb goes on. -/
theorem extendOutcome_join {binding : Binding} {rightFloor : Nat}
    (stands : Binding.ofRule? term.piece.rule = some binding) (tight : floor < binding.strength)
    (between : binding.rightFloor? = some rightFloor)
    (behind : climbOutcome operators rightFloor rest = .ok (right, last)) :
    extendOutcome operators floor left (term :: rest) =
      extendOutcome operators floor (operators.join left term.piece right) last := by
  -- The right operand is climbed with the floor that the operator's grouping asks for.
  obtain ⟨shorter, climbed⟩ := climb_eq_ok behind
  rw [extendOutcome, extend, stands]
  simp only [if_pos tight, between, climbed, map_outcome_map_widen]
  rfl

end Climb

/-- The row ends, or goes on with an operator that binds no tighter than a strength. -/
def Loose {α : Type} (strength : Nat) (row : List (Term α)) : Prop :=
  ∀ term ∈ row.head?, ∃ binding, Binding.ofRule? term.piece.rule = some binding ∧
    binding.strength ≤ strength

/-- What binds no tighter than one strength binds no tighter than a larger one. -/
theorem Loose.mono {α : Type} {strength larger : Nat} {row : List (Term α)}
    (loose : Loose strength row) (atMost : strength ≤ larger) : Loose larger row := by
  -- The operator at the front is the same.
  intro term first
  obtain ⟨binding, stands, bounded⟩ := loose term first
  exact ⟨binding, stands, Nat.le_trans bounded atMost⟩

open Building

/-- A climb from a floor below `ceiling` groups the row to the expression and goes on behind it, if
what follows there is no tighter than `strength`. -/
def ClimbsTo (ceiling strength : Nat) (pieces : List Piece) (value : Expr) : Prop :=
  ∀ floor < ceiling, ∀ rest, Loose strength rest →
    climbOutcome operators floor (row pieces ++ rest) =
      extendOutcome operators floor (.ok value) rest

/-- What is looser than the floor ends a climb. -/
theorem ClimbsTo.ends {ceiling strength floor : Nat} {pieces : List Piece} {value : Expr}
    (climbs : ClimbsTo ceiling strength pieces value) (below : floor < ceiling)
    (atMost : strength ≤ floor) {rest : List (Term (Except Failure Expr))}
    (loose : Loose strength rest) :
    climbOutcome operators floor (row pieces ++ rest) = .ok (.ok value, rest) := by
  -- Behind the value the row is at its end, or its next operator is left there.
  rw [climbs floor below rest loose]
  cases rest with
  | nil => exact extendOutcome_nil
  | cons term rest =>
    obtain ⟨binding, stands, bounded⟩ := loose term rfl
    exact extendOutcome_of_le stands (Nat.le_trans bounded atMost)

/-- A row that climbs in wider contexts climbs in narrower ones. -/
theorem ClimbsTo.mono {ceiling strength lower weaker : Nat} {pieces : List Piece} {value : Expr}
    (climbs : ClimbsTo ceiling strength pieces value) (atMost : lower ≤ ceiling)
    (looser : weaker ≤ strength) : ClimbsTo lower weaker pieces value := by
  -- Fewer floors and fewer followers are left to consider.
  intro floor below rest loose
  exact climbs floor (Nat.lt_of_lt_of_le below atMost) rest (loose.mono looser)

/-- What the pieces of a phrase are worth: a row climbs to the value of its layer, and the other
phrases are built as they are. -/
def Groups : Form → List Piece → Prop
  | .atom value, pieces => ∃ piece, pieces = [piece] ∧ Binding.ofRule? piece.rule = none ∧
      piece.operand = pure value
  | .power value, pieces | .unary value, pieces => ClimbsTo 50 30 pieces value
  | .product value, pieces => ClimbsTo 30 30 pieces value
  | .sum value, pieces => ClimbsTo 20 20 pieces value
  | .statement value, pieces => ∃ piece, pieces = [piece] ∧ piece.statement = pure value
  | .arguments values, pieces => statements pieces = pure values

/-- The piece of an operator. -/
def Piece.operator (rule : Rule) (token : Token) : Piece := .mk rule [token] []

/-- The piece of a name. -/
def Piece.named (name : String) : Piece := .mk .identifier [.name name] []

/-- The text of the piece of a name is the name. -/
theorem Piece.text_named (name : String) : (named name).text = name := by
  -- A single token is joined with nothing.
  simp [text, named, tokens, Token.text, String.join]

/-- The row of two parts is the rows of the parts. -/
theorem row_append (before after : List Piece) :
    row (before ++ after) = row before ++ row after := by
  -- Each piece of the first part keeps its place before the second.
  induction before with
  | nil => simp [row]
  | cons piece before ih => simp [row, ih]

/-- A row of a sum is grouped whole, with nothing left over. -/
theorem grouped_row {pieces : List Piece} {value : Expr} (climbs : ClimbsTo 20 20 pieces value) :
    grouped (row pieces) = pure value := by
  -- Nothing follows the row, so the climb from the lowest floor ends with its value.
  have outcome := climbs 0 (by decide) [] nofun
  rw [List.append_nil, extendOutcome_nil] at outcome
  obtain ⟨_, climbed⟩ := climb_eq_ok outcome
  rw [grouped, climbed]
  rfl

namespace Groups

variable {left right value : Expr} {values : List Expr} {before after pieces : List Piece}

/-- The row of an operator between two parts is the operator between their rows. -/
theorem row_operator (operator : Piece) (rest : List (Term (Except Failure Expr))) :
    row (before ++ operator :: after) ++ rest =
      row before ++ ⟨operator, operator.operand⟩ :: (row after ++ rest) := by
  -- Each piece keeps its place.
  rw [row_append, row, List.append_assoc, List.cons_append]

/-- An operator that groups to the left joins a row of its own layer to one of the layer inside. -/
theorem joinLeft {rule : Rule} {token : Token} {name : String} {strength ceiling : Nat}
    (stands : Binding.ofRule? rule = some ⟨.groupingLeft, strength⟩)
    (named : operators.join (.ok left) (.operator rule token) (.ok right) =
      .ok (.op name [left, right]))
    (first : ClimbsTo strength strength before left) (tighter : strength < ceiling)
    (second : ClimbsTo ceiling 30 after right) (atMost : strength ≤ 30) :
    ClimbsTo strength strength (before ++ .operator rule token :: after)
      (.op name [left, right]) := by
  intro floor below rest loose
  -- The right operand ends before an operator of the same strength, which extends the whole.
  have behind : climbOutcome operators strength (row after ++ rest) = .ok (.ok right, rest) :=
    (second.mono (Nat.le_refl _) atMost).ends tighter (Nat.le_refl _) loose
  let operator : Piece := .operator rule token
  have next : Loose strength (⟨operator, operator.operand⟩ :: (row after ++ rest)) := by
    rintro _ ⟨⟩
    exact ⟨_, stands, Nat.le_refl _⟩
  calc climbOutcome operators floor (row (before ++ operator :: after) ++ rest)
      = climbOutcome operators floor
          (row before ++ ⟨operator, operator.operand⟩ :: (row after ++ rest)) := by
        rw [row_operator]
    _ = extendOutcome operators floor (.ok left)
          (⟨operator, operator.operand⟩ :: (row after ++ rest)) := first floor below _ next
    _ = extendOutcome operators floor (operators.join (.ok left) operator (.ok right)) rest :=
        extendOutcome_join stands below rfl behind
    _ = extendOutcome operators floor (.ok (.op name [left, right])) rest := by rw [named]

/-- A sum goes on with a further product. -/
theorem additive {rule : Rule} {token : Token} {name : String}
    (stands : Binding.ofRule? rule = some ⟨.groupingLeft, 20⟩)
    (named : operators.join (.ok left) (.operator rule token) (.ok right) =
      .ok (.op name [left, right]))
    (first : Groups (.sum left) before) (second : Groups (.product right) after) :
    Groups (.sum (.op name [left, right])) (before ++ .operator rule token :: after) :=
  joinLeft stands named first (by decide) second (by decide)

/-- A product goes on with a further unary. -/
theorem multiplicative {rule : Rule} {token : Token} {name : String}
    (stands : Binding.ofRule? rule = some ⟨.groupingLeft, 30⟩)
    (named : operators.join (.ok left) (.operator rule token) (.ok right) =
      .ok (.op name [left, right]))
    (first : Groups (.product left) before) (second : Groups (.unary right) after) :
    Groups (.product (.op name [left, right])) (before ++ .operator rule token :: after) :=
  joinLeft stands named first (by decide) second (by decide)

/-- A product is a sum. -/
theorem sum (grouped : Groups (.product value) pieces) : Groups (.sum value) pieces :=
  ClimbsTo.mono grouped (by decide) (by decide)

/-- A unary is a product. -/
theorem product (grouped : Groups (.unary value) pieces) : Groups (.product value) pieces :=
  ClimbsTo.mono grouped (by decide) (by decide)

/-- A minus sign takes the unary behind it. -/
theorem negation (grouped : Groups (.unary value) pieces) :
    Groups (.unary (.negate value)) (.operator .negate .minus :: pieces) := by
  intro floor below rest loose
  -- A sign's operand is climbed from just below the strength of signs, where products end it.
  have behind : climbOutcome operators 39 (row pieces ++ rest) = .ok (.ok value, rest) :=
    ClimbsTo.ends grouped (by decide) (by decide) loose
  rw [row, List.cons_append, climbOutcome_lead rfl behind]
  rfl

/-- An atom extends as it is. -/
theorem power (grouped : Groups (.atom value) pieces) : Groups (.power value) pieces := by
  -- A piece that is an operand is climbed to in one step.
  intro floor below rest loose
  obtain ⟨piece, rfl, noOperator, worth⟩ := grouped
  rw [row, row, List.cons_append, List.nil_append, climbOutcome_operand noOperator worth]

/-- A caret takes the unary behind it before anything else can. -/
theorem raised (base : Groups (.atom left) before) (exponent : Groups (.unary right) after) :
    Groups (.power (.op "^" [left, right])) (before ++ .operator .power .caret :: after) := by
  intro floor below rest loose
  -- A power groups to the right: its exponent is climbed from just below its own strength.
  have behind : climbOutcome operators 49 (row after ++ rest) = .ok (.ok right, rest) :=
    ClimbsTo.ends exponent (by decide) (by decide) loose
  obtain ⟨piece, rfl, noOperator, worth⟩ := base
  rw [row_operator, row, row, List.cons_append, List.nil_append,
    climbOutcome_operand noOperator worth, extendOutcome_join rfl below rfl behind]
  rfl

/-- A number is worth its value. -/
theorem number (number : Float) :
    Groups (.atom (.num number)) [.mk .number [.number number] []] :=
  ⟨_, rfl, rfl, rfl⟩

/-- A name is a variable. -/
theorem variableName (name : String) : Groups (.atom (.var name)) [.named name] := by
  -- A name is a piece of its own, which no operator stands for.
  refine ⟨_, rfl, rfl, ?_⟩
  rw [Piece.named, Piece.operand, ← Piece.named, Piece.text_named]

/-- A row in parentheses is worth what it is grouped to. -/
theorem parentheses (tokens : List Token) (grouped : Groups (.sum value) pieces) :
    Groups (.atom value) [.mk .expr tokens pieces] := by
  -- The pieces between the parentheses are climbed as a row of their own.
  refine ⟨_, rfl, rfl, ?_⟩
  rw [Piece.operand, grouped_row grouped]

/-- A call is worth the operation on its arguments. -/
theorem call (name : String) (tokens : List Token) (grouped : Groups (.arguments values) pieces) :
    Groups (.atom (.op name values)) [.mk .call tokens (.named name :: pieces)] := by
  -- The arguments behind the name are built one by one.
  have built : statements pieces = pure values := grouped
  refine ⟨_, rfl, rfl, ?_⟩
  rw [Piece.operand, built, Piece.text_named, pure_bind]

/-- An assignment is worth the assignment of what its row is grouped to. -/
theorem assignment (name : String) (tokens inner : List Token)
    (grouped : Groups (.sum value) pieces) :
    Groups (.statement (.assign name value))
      [.mk .assignment tokens [.named name, .mk .expr inner pieces]] := by
  -- The value behind the name is climbed as a row of its own.
  refine ⟨_, rfl, ?_⟩
  rw [Piece.statement, grouped_row grouped, Piece.text_named, pure_bind]

/-- A row is a statement that is worth what it is grouped to. -/
theorem expression (tokens : List Token) (grouped : Groups (.sum value) pieces) :
    Groups (.statement value) [.mk .expr tokens pieces] := by
  -- A statement that is no assignment is climbed as a row.
  refine ⟨_, rfl, ?_⟩
  rw [Piece.statement, grouped_row grouped]

/-- No arguments are worth nothing. -/
theorem noArguments : Groups (.arguments []) [] := rfl

/-- An argument comes before the others. -/
theorem moreArguments (first : Groups (.statement value) before)
    (others : Groups (.arguments values) after) :
    Groups (.arguments (value :: values)) (before ++ after) := by
  -- The first argument is one piece, and the others are built behind it.
  obtain ⟨piece, rfl, built⟩ := first
  have builtOthers : statements after = pure values := others
  change statements (piece :: after) = pure (value :: values)
  rw [statements, built, builtOthers, pure_bind, pure_bind]

/-- A whole input is worth what its statement is. -/
theorem program (tokens : List Token) (ending : Piece)
    (grouped : Groups (.statement value) pieces) :
    build [.mk .program tokens (pieces ++ [ending])] = pure value := by
  -- The program has one statement before its end.
  obtain ⟨piece, rfl, built⟩ := grouped
  exact built

end Groups

end Calculator.Grammar
