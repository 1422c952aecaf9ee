import Calculator.Proofs.Grammar.Recognition
import Calculator.Proofs.Grammar.Spelling
import Calculator.Reading

/-! The language of inputs: reading accepts exactly the texts of the layered grammar. -/

namespace Calculator

namespace Grammar

/-- The text spells the tokens of a statement, which has the expression as its value. -/
def Denotes (text : List Char) (value : Expr) : Prop :=
  ∃ tokens, Spelled text tokens ∧ Derives (.statement value) tokens

/-- A text denotes what its tokens spell. -/
theorem denotes_iff (text : List Char) (value : Expr) :
    Denotes text value ↔ Derives (.statement value) (tokensOf text) := by
  -- The tokens of a statement are never strays, and no two of them run together.
  constructor
  · rintro ⟨tokens, spelled, derives⟩
    rwa [spelled.tokensOf_eq derives.isChain_apart]
  · intro derives
    exact ⟨tokensOf text, spelled_tokensOf text derives.not_isStray, derives⟩

/-- Scanning a text and reading its tokens in layers gives the expression that it denotes. -/
theorem parse?_tokensOf_eq_some_iff (text : List Char) (value : Expr) :
    parse? (tokensOf text) = some value ↔ Denotes text value := by
  -- Parsing follows the derivations, and a text denotes what its tokens derive.
  rw [parse?_eq_some_iff, denotes_iff]

/-- A text denotes at most one expression. -/
theorem Denotes.unique {text : List Char} {value other : Expr} (denotes : Denotes text value)
    (also : Denotes text other) : value = other := by
  -- Both are what reading in layers gives.
  rw [← parse?_tokensOf_eq_some_iff] at denotes also
  exact Option.some.inj (denotes.symm.trans also)

/-- The tokens of a text have pieces exactly when it denotes something. -/
theorem isSome_pieces?_iff (text : List Char) :
    (pieces? (tokensOf text)).isSome = true ↔ ∃ value, Denotes text value := by
  -- Without pieces the tokens spell nothing, and with pieces they spell something.
  simp only [denotes_iff]
  cases found : pieces? (tokensOf text) with
  | none => simpa using (pieces?_eq_none_iff _).1 found
  | some pieces => simpa using exists_derives_of_pieces? found

/-- An empty text denotes nothing. -/
theorem not_denotes_nil (value : Expr) : ¬ Denotes [] value := by
  -- There is no statement without tokens.
  rw [← parse?_tokensOf_eq_some_iff]
  exact fun read => nomatch read

end Grammar

open Grammar

/-- Reading gives the expression that the trimmed input denotes. -/
theorem readExpr_of_denotes {input : String} {value : Expr}
    (denotes : Denotes (trim input.toList) value) : readExpr input = .ok value := by
  -- The tokens have pieces, and these are built to what the tokens spell.
  obtain ⟨pieces, found, built⟩ := ((denotes_iff _ _).1 denotes).build_pieces
  unfold readExpr
  split
  · rename_i empty
    exact absurd (empty ▸ denotes) (not_denotes_nil value)
  · unfold tokensOf at found
    rw [found]
    simp only [built]
    rfl

/-- An input that denotes nothing is empty or a failure to parse. -/
theorem readExpr_of_not_denotes {input : String}
    (refused : ∀ value, ¬ Denotes (trim input.toList) value) :
    (trim input.toList = [] ∧ readExpr input = .error .emptyInput) ∨
      (trim input.toList ≠ [] ∧
        readExpr input = .error (.parse (ParseError.ofText (trim input.toList)))) := by
  -- Tokens that spell nothing have no pieces, so there is nothing to build.
  have none : pieces? (tokensOf (trim input.toList)) = none :=
    (pieces?_eq_none_iff _).2 fun value derives => refused value ((denotes_iff _ _).2 derives)
  unfold readExpr
  split
  · exact .inl ⟨‹_›, rfl⟩
  · unfold tokensOf at none
    rw [none]
    exact .inr ⟨‹_›, rfl⟩

/-- Reading gives an expression exactly when the trimmed input denotes it. -/
theorem readExpr_eq_ok_iff (input : String) (value : Expr) :
    readExpr input = .ok value ↔ Denotes (trim input.toList) value := by
  refine ⟨fun read => ?_, readExpr_of_denotes⟩
  -- Whatever the input denotes is what reading gives, and reading gives one thing.
  by_cases denotes : ∃ other, Denotes (trim input.toList) other
  · obtain ⟨other, denotes⟩ := denotes
    rw [readExpr_of_denotes denotes] at read
    exact Except.ok.inj read ▸ denotes
  · rcases readExpr_of_not_denotes (not_exists.1 denotes) with ⟨_, failed⟩ | ⟨_, failed⟩ <;>
      exact nomatch read.symm.trans failed

/-- An input is read as what its tokens parse to. -/
theorem readExpr_ofList {chars text : List Char} {value : Expr} (trimmed : trim chars = text)
    (parsed : parse? (tokensOf text) = some value) :
    readExpr (String.ofList chars) = .ok value := by
  -- What the trimmed input denotes is what its tokens parse to.
  rw [readExpr_eq_ok_iff, ← parse?_tokensOf_eq_some_iff, String.toList_ofList, trimmed, parsed]

/-- Reading fails on an empty input or on one that does not parse. -/
theorem readExpr_eq_error {input : String} {failure : Failure}
    (failed : readExpr input = .error failure) :
    (trim input.toList = [] ∧ failure = .emptyInput) ∨
      (trim input.toList ≠ [] ∧ failure = .parse (ParseError.ofText (trim input.toList))) := by
  -- What denotes something would be read.
  have refused : ∀ value, ¬ Denotes (trim input.toList) value := fun value denotes =>
    nomatch failed.symm.trans (readExpr_of_denotes denotes)
  rcases readExpr_of_not_denotes refused with ⟨empty, same⟩ | ⟨present, same⟩
  · exact .inl ⟨empty, Except.error.inj (failed.symm.trans same)⟩
  · exact .inr ⟨present, Except.error.inj (failed.symm.trans same)⟩

/--
Reading accepts exactly the language of the layered grammar.

An accepted input gives the only expression that its trimmed text denotes. A refused one is empty
or fails to parse. Reading matches an input as flat pieces, by trying alternatives in order and
repeating greedily, and then climbs over these by binding strength. Pieces are found exactly for
the texts that denote something, and building them gives the tree of the layers: no fault in the
order of the pieces and no failure to build them is ever met.
-/
theorem readExpr_decides_language :
    (∀ (input : String) (value : Expr),
      readExpr input = .ok value ↔ Denotes (trim input.toList) value) ∧
    (∀ (text : List Char) (value other : Expr),
      Denotes text value → Denotes text other → value = other) ∧
    (∀ input : String, (∀ value, ¬ Denotes (trim input.toList) value) →
      (trim input.toList = [] → readExpr input = .error .emptyInput) ∧
      (trim input.toList ≠ [] → ∃ error, readExpr input = .error (.parse error))) ∧
    (∀ (input : String) (error : EvalError), readExpr input ≠ .error (.evaluation error)) ∧
    (∀ (input : String) (fault : Fault), readExpr input ≠ .error (.outOfOrder fault)) ∧
    (∀ text : List Char, (pieces? (tokensOf text)).isSome = true ↔ ∃ value, Denotes text value) ∧
    ∀ (tokens : List Token) (pieces : List Piece), pieces? tokens = some pieces →
      ∃ value, build pieces = pure value ∧ parse? tokens = some value ∧
        Derives (.statement value) tokens := by
  refine ⟨readExpr_eq_ok_iff, fun _ _ _ => Denotes.unique, ?_, ?_, ?_, isSome_pieces?_iff, ?_⟩
  · intro input refused
    -- Reading an input that denotes nothing cannot succeed, and only two failures are left.
    rcases readExpr_of_not_denotes refused with ⟨empty, failed⟩ | ⟨present, failed⟩
    · exact ⟨fun _ => failed, fun present => absurd empty present⟩
    · exact ⟨fun empty => absurd empty present, fun _ => ⟨_, failed⟩⟩
  · intro input error failed
    rcases readExpr_eq_error failed with ⟨_, wrong⟩ | ⟨_, wrong⟩ <;> exact nomatch wrong
  · intro input fault failed
    rcases readExpr_eq_error failed with ⟨_, wrong⟩ | ⟨_, wrong⟩ <;> exact nomatch wrong
  · intro tokens pieces found
    obtain ⟨value, derives⟩ := exists_derives_of_pieces? found
    exact ⟨value, (build_eq_pure_iff found value).2 derives,
      (parse?_eq_some_iff tokens value).2 derives, derives⟩

/-- A sign binds looser than the power behind it, blanks are no input, and names need an operator
between them. The pieces of the first input are built to its tree, while two names in a row, which
are the pieces of no text, would be a fault. -/
theorem readExpr_decides_language_samples :
    (readExpr " -x ^ -y\n" = .ok (.negate (.op "^" [.var "x", .negate (.var "y")])) ∧
      ∀ other, Denotes (trim " -x ^ -y\n".toList) other →
        other = .negate (.op "^" [.var "x", .negate (.var "y")])) ∧
    readExpr " \t" = .error .emptyInput ∧ (∃ error, readExpr "x y" = .error (.parse error)) ∧
    (∃ pieces, pieces? (tokensOf (trim " -x ^ -y\n".toList)) = some pieces ∧
      build pieces = pure (.negate (.op "^" [.var "x", .negate (.var "y")]))) ∧
    (build [.mk .program [] [.mk .expr [] [.named "x", .named "y"]]]).run =
      .error (.notOperator .identifier) := by
  have trimmed : trim " -x ^ -y\n".toList = ['-', 'x', ' ', '^', ' ', '-', 'y'] := by decide
  have x : Spells ['x'] (.name "x") := .name rfl (by simp)
  have y : Spells ['y'] (.name "y") := .name rfl (by simp)
  have spelled : Spelled ['-', 'x', ' ', '^', ' ', '-', 'y']
      [.minus, .name "x", .caret, .minus, .name "y"] :=
    .token .minus <| .token x <| .blank rfl <| .token .caret <| .blank rfl <| .token .minus <|
      .token y .nil
  have raised : Derives (.power (.op "^" [.var "x", .negate (.var "y")]))
      ([.name "x"] ++ .caret :: [.minus, .name "y"]) :=
    .raised .variableName (.negation (.power (.atom .variableName)))
  have denotes : Denotes (trim " -x ^ -y\n".toList)
      (.negate (.op "^" [.var "x", .negate (.var "y")])) :=
    ⟨_, trimmed ▸ spelled, .expression (.product (.unary (.negation (.power raised))))⟩
  have nothing : ∀ value, ¬ Denotes (trim " \t".toList) value := not_denotes_nil
  have refused : ∀ value, ¬ Denotes (trim "x y".toList) value := by
    intro value
    rw [← parse?_tokensOf_eq_some_iff, show parse? (tokensOf (trim "x y".toList)) = none by decide]
    exact nofun
  obtain ⟨reads, unique, fails, _, _, found, built⟩ := readExpr_decides_language
  -- The pieces are built to something that the text denotes, and it denotes nothing else.
  obtain ⟨pieces, arePieces⟩ := Option.isSome_iff_exists.1 ((found _).2 ⟨_, denotes⟩)
  obtain ⟨value, build, _, derives⟩ := built _ _ arePieces
  obtain rfl := unique _ _ _ ((denotes_iff _ _).2 derives) denotes
  refine ⟨⟨(reads _ _).2 denotes, fun other also => unique _ _ _ also denotes⟩,
    (fails _ nothing).1 rfl, (fails _ refused).2 (by decide), ⟨pieces, arePieces, build⟩, ?_⟩
  -- Behind the first name the climb looks for an operator.
  have stuck : climb Building.operators 0 (row [.named "x", .named "y"]) =
      .error (.notOperator .identifier) := by
    rw [row, row, row, climb]
    change extend Building.operators 0 _ _ = _
    rw [extend]
    rfl
  change (climb Building.operators 0 (row [.named "x", .named "y"])).map (·.value) = _
  rw [stuck]
  rfl

end Calculator
