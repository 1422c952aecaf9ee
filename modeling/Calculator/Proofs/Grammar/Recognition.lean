import Calculator.Proofs.Grammar.Grouping
import Calculator.Proofs.Grammar.Parsing

/-! The recognizer accepts exactly the phrases of the layered grammar, although it tries its
alternatives in order and repeats greedily, and its pieces are worth what the phrases spell. -/

namespace Calculator.Grammar

namespace Recognizer

/-- The recognizer takes some tokens as some pieces and leaves the rest, whatever has failed
before. -/
def Takes (recognizer : Recognizer) (used rest : List Token) (pieces : List Piece) : Prop :=
  ∀ position before furthest, ∃ noted, recognizer ⟨position, used ++ rest, before⟩ furthest =
    (some ⟨position + used.length, rest, before ++ pieces⟩, noted)

/-- The recognizer does not accept the front of the tokens. -/
def Refuses (recognizer : Recognizer) (tokens : List Token) : Prop :=
  ∀ position before furthest, ∃ noted,
    recognizer ⟨position, tokens, before⟩ furthest = (none, noted)

/-- What the recognizer takes off the front of its tokens has a property. -/
def Ensures (recognizer : Recognizer) (property : List Token → Prop) : Prop :=
  ∀ cursor furthest next noted, recognizer cursor furthest = (some next, noted) →
    ∃ used, cursor.rest = used ++ next.rest ∧ property used

section Combinators

variable {first second part : Recognizer} {accepts : Token → Bool}
variable {used more rest tokens : List Token} {pieces others : List Piece}

/-- A token that is accepted is taken, and is no piece of its own. -/
theorem takes_token {token : Token} (accepted : accepts token = true) :
    Takes (Recognizer.token accepts) [token] rest [] := by
  -- The token is accepted, and nothing else is looked at.
  intro position before furthest
  exact ⟨furthest, by simp [Recognizer.token, accepted]⟩

/-- Where no accepted token comes first, nothing is taken. -/
theorem refuses_token (refused : ∀ token ∈ tokens.head?, accepts token = false) :
    Refuses (Recognizer.token accepts) tokens := by
  -- There is no token, or the first one is not accepted.
  intro position before furthest
  cases tokens with
  | nil => exact ⟨furthest, rfl⟩
  | cons token tokens =>
    exact ⟨furthest, by simp [Recognizer.token, refused token (by simp)]⟩

/-- Two recognizers take one text after the other. -/
theorem Takes.andThen (taken : Takes first used (more ++ rest) pieces)
    (then_ : Takes second more rest others) :
    Takes (first.andThen second) (used ++ more) rest (pieces ++ others) := by
  -- The second part starts where the first one has stopped.
  intro position before furthest
  obtain ⟨noted, firstRuns⟩ := taken position before furthest
  obtain ⟨notedLast, secondRuns⟩ := then_ (position + used.length) (before ++ pieces) noted
  exact ⟨notedLast, by simp [Recognizer.andThen, firstRuns, secondRuns, Nat.add_assoc]⟩

/-- The second recognizer may take nothing. -/
theorem Takes.andThen_nothing (taken : Takes first used rest pieces)
    (then_ : Takes second [] rest []) : Takes (first.andThen second) used rest pieces := by
  -- The second part takes nothing, so the tokens are those of the first.
  rw [← List.append_nil used, ← List.append_nil pieces]
  exact Takes.andThen taken then_

/-- A sequence is refused where its first part is. -/
theorem Refuses.andThen (refused : Refuses first tokens) :
    Refuses (first.andThen second) tokens := by
  -- Where the first part refuses, the second is not tried.
  intro position before furthest
  obtain ⟨noted, runs⟩ := refused position before furthest
  exact ⟨noted, by simp [Recognizer.andThen, runs]⟩

/-- A sequence is refused where its second part is, behind the first. -/
theorem Takes.andThen_refuses (taken : Takes first used rest pieces)
    (refused : Refuses second rest) : Refuses (first.andThen second) (used ++ rest) := by
  -- The first part takes its tokens, and the second refuses what is behind them.
  intro position before furthest
  obtain ⟨noted, firstRuns⟩ := taken position before furthest
  obtain ⟨notedLast, secondRuns⟩ := refused (position + used.length) (before ++ pieces) noted
  exact ⟨notedLast, by simp [Recognizer.andThen, firstRuns, secondRuns]⟩

/-- The first alternative that takes something settles the choice. -/
theorem Takes.orElse (taken : Takes first used rest pieces) :
    Takes (first.orElse second) used rest pieces := by
  -- The first choice takes the tokens, so the second is not tried.
  intro position before furthest
  obtain ⟨noted, runs⟩ := taken position before furthest
  exact ⟨noted, by simp [Recognizer.orElse, runs]⟩

/-- The second alternative is tried where the first is refused. -/
theorem Refuses.orElse_takes (refused : Refuses first (used ++ rest))
    (taken : Takes second used rest pieces) : Takes (first.orElse second) used rest pieces := by
  -- The second choice is tried where the first one refuses.
  intro position before furthest
  obtain ⟨noted, firstRuns⟩ := refused position before furthest
  obtain ⟨notedLast, secondRuns⟩ := taken position before noted
  exact ⟨notedLast, by simp [Recognizer.orElse, firstRuns, secondRuns]⟩

/-- A choice is refused where both alternatives are. -/
theorem Refuses.orElse (refused : Refuses first tokens) (also : Refuses second tokens) :
    Refuses (first.orElse second) tokens := by
  -- Both choices are tried at the same place, and both refuse.
  intro position before furthest
  obtain ⟨noted, firstRuns⟩ := refused position before furthest
  obtain ⟨notedLast, secondRuns⟩ := also position before noted
  exact ⟨notedLast, by simp [Recognizer.orElse, firstRuns, secondRuns]⟩

/-- A named rule takes what its body takes, as one piece around those of the body. -/
theorem Takes.rule (name : Rule) (taken : Takes part used rest pieces) :
    Takes (Recognizer.rule name part) used rest [.mk name used pieces] := by
  -- The pieces inside become the inner pieces of the one that is left.
  intro position before furthest
  obtain ⟨noted, runs⟩ := taken position [] furthest
  exact ⟨noted, by simp [Recognizer.rule, runs]⟩

/-- A named rule is refused where its body is; only the failure is noted under its name. -/
theorem Refuses.rule (name : Rule) (refused : Refuses part tokens) :
    Refuses (Recognizer.rule name part) tokens := by
  -- A rule that refuses is noted, and it leaves no piece.
  intro position before furthest
  obtain ⟨noted, runs⟩ := refused position [] furthest
  exact ⟨_, by simp [Recognizer.rule, runs]; rfl⟩

/-- Taking nothing succeeds at once. -/
theorem takes_nothing : Takes (fun cursor furthest => (some cursor, furthest)) [] rest [] := by
  -- The cursor stays where it is.
  intro position before furthest
  exact ⟨furthest, by simp⟩

/-- An option takes what its part takes. -/
theorem Takes.optional (taken : Takes part used rest pieces) :
    Takes part.optional used rest pieces :=
  taken.orElse

/-- An option takes nothing where its part is refused. -/
theorem Refuses.optional_takes (refused : Refuses part rest) : Takes part.optional [] rest [] :=
  refused.orElse_takes takes_nothing

/-- A repetition ends where its part is refused. -/
theorem Refuses.upTo_takes (refused : Refuses part rest) (limit : Nat) :
    Takes (part.upTo limit) [] rest [] := by
  -- No repetition is needed, and one more is not possible.
  cases limit with
  | zero => exact takes_nothing
  | succ limit => exact refused.andThen.optional_takes

/-- A repetition takes its part and goes on. -/
theorem Takes.upTo {limit : Nat} (taken : Takes part used (more ++ rest) pieces)
    (then_ : Takes (part.upTo limit) more rest others) :
    Takes (part.upTo (limit + 1)) (used ++ more) rest (pieces ++ others) :=
  (taken.andThen then_).optional

/-- A repetition takes its part once if it is refused behind it. -/
theorem Takes.upTo_last (taken : Takes part used rest pieces) (refused : Refuses part rest)
    (limit : Nat) : Takes (part.upTo (limit + 1)) used rest pieces := by
  -- After the last repetition there is no other.
  have stops := refused.upTo_takes limit
  rw [← List.append_nil used, ← List.append_nil pieces]
  exact Takes.upTo taken stops

/-- A repetition takes nothing where its part is refused. -/
theorem Refuses.many_takes (refused : Refuses part rest) : Takes part.many [] rest [] :=
  fun position before furthest => refused.upTo_takes _ position before furthest

/-- Repeating without a limit is repeating up to one more than there are tokens. -/
theorem Takes.many (taken : Takes (part.upTo ((used ++ rest).length + 1)) used rest pieces) :
    Takes part.many used rest pieces :=
  fun position before furthest => taken position before furthest

variable {property further whole : List Token → Prop}

/-- A token that was taken is one that is accepted. -/
theorem ensures_token :
    Ensures (Recognizer.token accepts) fun used => ∃ token, used = [token] ∧ accepts token := by
  -- The token that is taken is the first one, and it was accepted.
  rintro ⟨position, tokens, before⟩ furthest next noted runs
  cases tokens with
  | nil => exact absurd runs (by simp [Recognizer.token])
  | cons token tokens =>
    simp only [Recognizer.token, Prod.mk.injEq] at runs
    split at runs
    · simp only [Option.some.injEq] at runs
      obtain ⟨rfl, rfl⟩ := runs
      exact ⟨[token], rfl, token, rfl, ‹_›⟩
    · exact absurd runs.1 (by simp)

/-- What a sequence takes is what its parts take. -/
theorem Ensures.andThen (first_ : Ensures first property) (second_ : Ensures second further) :
    Ensures (first.andThen second) fun used =>
      ∃ before after, used = before ++ after ∧ property before ∧ further after := by
  -- The tokens that both parts take stand one after another.
  intro cursor furthest next noted runs
  unfold Recognizer.andThen at runs
  split at runs
  · rename_i middle _ firstRuns
    obtain ⟨before, split, holds⟩ := first_ _ _ _ _ firstRuns
    obtain ⟨after, splitAfter, holdsAfter⟩ := second_ _ _ _ _ runs
    exact ⟨before ++ after, by rw [split, splitAfter, List.append_assoc],
      before, after, rfl, holds, holdsAfter⟩
  · exact absurd runs (by simp)

/-- What both alternatives ensure, the choice ensures. -/
theorem Ensures.orElse (first_ : Ensures first property) (second_ : Ensures second property) :
    Ensures (first.orElse second) property := by
  -- Either the first choice has taken the tokens, or the second one has.
  intro cursor furthest next noted runs
  unfold Recognizer.orElse at runs
  split at runs
  · rename_i firstRuns
    simp only [Prod.mk.injEq, Option.some.injEq] at runs
    obtain ⟨rfl, rfl⟩ := runs
    exact first_ _ _ _ _ firstRuns
  · exact second_ _ _ _ _ runs

/-- A named rule ensures what its body ensures. -/
theorem Ensures.rule (name : Rule) (body : Ensures part property) :
    Ensures (Recognizer.rule name part) property := by
  -- The rule takes what its part takes.
  intro cursor furthest next noted runs
  unfold Recognizer.rule at runs
  split at runs
  · rename_i taken _ partRuns
    simp only [Prod.mk.injEq, Option.some.injEq] at runs
    obtain ⟨rfl, rfl⟩ := runs
    exact body ⟨cursor.position, cursor.rest, []⟩ _ taken _ partRuns
  · exact absurd runs (by simp)

/-- A property may be weakened. -/
theorem Ensures.mono (ensures : Ensures part property)
    (weaken : ∀ {tokens}, property tokens → further tokens) : Ensures part further := by
  -- The tokens are the same, and less is asked of them.
  intro cursor furthest next noted runs
  obtain ⟨used, split, holds⟩ := ensures _ _ _ _ runs
  exact ⟨used, split, weaken holds⟩

/-- An option ensures what its part does, if that holds of nothing too. -/
theorem Ensures.optional (ensures : Ensures part property) (empty : property []) :
    Ensures part.optional property := by
  -- Either the part has taken the tokens, or there are none.
  refine ensures.orElse ?_
  intro cursor furthest next noted runs
  simp only [Prod.mk.injEq, Option.some.injEq] at runs
  obtain ⟨rfl, rfl⟩ := runs
  exact ⟨[], rfl, empty⟩

/-- A repetition has every property that starts empty and survives each part. -/
theorem Ensures.many (ensures : Ensures part property) (empty : whole [])
    (step : ∀ {before after}, property before → whole after → whole (before ++ after)) :
    Ensures part.many whole := by
  -- Each round adds a part in front of what the rounds after it take.
  have bounded : ∀ limit, Ensures (part.upTo limit) whole := by
    intro limit
    induction limit with
    | zero =>
      intro cursor furthest next noted runs
      simp only [Recognizer.upTo, Prod.mk.injEq, Option.some.injEq] at runs
      obtain ⟨rfl, rfl⟩ := runs
      exact ⟨[], rfl, empty⟩
    | succ limit ih =>
      refine ((ensures.andThen ih).mono ?_).optional empty
      rintro _ ⟨before, after, rfl, holds, holdsAfter⟩
      exact step holds holdsAfter
  exact fun cursor => bounded _ cursor

end Combinators

end Recognizer

/-- The rule of an operator between operands. -/
def Token.operatorRule? : Token → Option Rule
  | .plus => some .add
  | .minus => some .subtract
  | .times => some .multiply
  | .slash => some .divide
  | .caret => some .power
  | _ => none

/-- An operator can stand after an atom. -/
theorem Token.endsAtom_of_operatorRule? {token : Token} {rule : Rule}
    (joins : token.operatorRule? = some rule) : token.endsAtom = true := by
  -- Every operator ends the atom before it.
  cases token <;> simp_all [operatorRule?, endsAtom, endsUnary, endsProduct]

/-- What ends a sum ends its last atom. -/
theorem Token.endsAtom_of_endsSum {token : Token} (ends : token.endsSum = true) :
    token.endsAtom = true :=
  endsAtom_of_endsUnary (endsUnary_of_endsProduct (endsProduct_of_endsSum ends))

namespace Derives

/-- A power behind a unary goes to its last atom. -/
theorem append_caret {form : Form} {tokens more : List Token} {exponent : Expr}
    (derives : Derives form tokens) (raises : Derives (.unary exponent) more) :
    match form with
    | .sum _ => ∃ value, Derives (.sum value) (tokens ++ .caret :: more)
    | .product _ => ∃ value, Derives (.product value) (tokens ++ .caret :: more)
    | .unary _ => ∃ value, Derives (.unary value) (tokens ++ .caret :: more)
    | .power _ => ∃ value, Derives (.power value) (tokens ++ .caret :: more)
    | _ => True := by
  -- The last atom lies in the last part of every production down to the powers.
  induction derives with
  | add left _ _ right =>
    obtain ⟨value, derived⟩ := right
    exact ⟨_, by simpa using Derives.add left derived⟩
  | subtract left _ _ right =>
    obtain ⟨value, derived⟩ := right
    exact ⟨_, by simpa using Derives.subtract left derived⟩
  | product _ ih =>
    obtain ⟨value, derived⟩ := ih
    exact ⟨value, .product derived⟩
  | multiply left _ _ right =>
    obtain ⟨value, derived⟩ := right
    exact ⟨_, by simpa using Derives.multiply left derived⟩
  | divide left _ _ right =>
    obtain ⟨value, derived⟩ := right
    exact ⟨_, by simpa using Derives.divide left derived⟩
  | unary _ ih =>
    obtain ⟨value, derived⟩ := ih
    exact ⟨value, .unary derived⟩
  | negation _ ih =>
    obtain ⟨value, derived⟩ := ih
    exact ⟨_, .negation derived⟩
  | power _ ih =>
    obtain ⟨value, derived⟩ := ih
    exact ⟨value, .power derived⟩
  | raised base _ _ exponent =>
    obtain ⟨value, derived⟩ := exponent
    exact ⟨_, by simpa using Derives.raised base derived⟩
  | atom derived _ => exact ⟨_, .raised derived raises⟩
  | _ => trivial

/-- A multiplicative operator behind a sum goes to its last product. -/
theorem append_multiplicative {value factor : Expr} {tokens more : List Token} {joint : Token}
    (derives : Derives (.sum value) tokens) (factored : Derives (.unary factor) more)
    (isJoint : joint = .times ∨ joint = .slash) :
    ∃ value, Derives (.sum value) (tokens ++ joint :: more) := by
  -- A product takes the new factor as it is, and a sum hands it to the product at its end.
  have product : ∀ {value tokens}, Derives (.product value) tokens →
      ∃ value, Derives (.product value) (tokens ++ joint :: more) := by
    intro value tokens derived
    rcases isJoint with rfl | rfl
    · exact ⟨_, .multiply derived factored⟩
    · exact ⟨_, .divide derived factored⟩
  cases derives with
  | add left right =>
    obtain ⟨_, derived⟩ := product right
    exact ⟨_, by simpa using Derives.add left derived⟩
  | subtract left right =>
    obtain ⟨_, derived⟩ := product right
    exact ⟨_, by simpa using Derives.subtract left derived⟩
  | product only =>
    obtain ⟨_, derived⟩ := product only
    exact ⟨_, .product derived⟩

/-- Whatever operator and operand follow a sum, together they are a sum again. -/
theorem append_operator {value operand : Expr} {tokens more : List Token} {joint : Token}
    {rule : Rule} (derives : Derives (.sum value) tokens)
    (operand_ : Derives (.unary operand) more) (joins : joint.operatorRule? = some rule) :
    ∃ value, Derives (.sum value) (tokens ++ joint :: more) := by
  -- The stronger the operator, the deeper at the end of the sum it goes.
  cases joint with
  | plus => exact ⟨_, .add derives (.unary operand_)⟩
  | minus => exact ⟨_, .subtract derives (.unary operand_)⟩
  | times => exact derives.append_multiplicative operand_ (.inl rfl)
  | slash => exact derives.append_multiplicative operand_ (.inr rfl)
  | caret => exact derives.append_caret operand_
  | _ => exact absurd joins (by simp [Token.operatorRule?])

end Derives

namespace Recognizer

/-- A recognizer of one given token takes just that token. -/
theorem ensures_mark (mark : Token) :
    Ensures (Recognizer.token (· == mark)) fun used => used = [mark] :=
  ensures_token.mono fun ⟨_, single, same⟩ => by rw [single, eq_of_beq same]

/-- An identifier is a name. -/
theorem ensures_identifier : Ensures identifier fun used => ∃ name, used = [.name name] := by
  -- The only tokens that are accepted are names.
  refine (ensures_token.mono ?_).rule _
  rintro _ ⟨token, rfl, accepted⟩
  cases token <;> simp_all

/-- A number is a number token. -/
theorem ensures_number : Ensures number fun used => ∃ value, used = [.number value] := by
  -- The only tokens that are accepted are numbers.
  refine (ensures_token.mono ?_).rule _
  rintro _ ⟨token, rfl, accepted⟩
  cases token <;> simp_all

/-- An operator is one of the operators between operands. -/
theorem ensures_operator :
    Ensures operator fun used =>
      ∃ token name, used = [token] ∧ token.operatorRule? = some name := by
  -- Every alternative is one mark.
  have mark : ∀ (name : Rule) (token : Token), token.operatorRule? = some name →
      Ensures (rule name (Recognizer.token (· == token)))
        fun used => ∃ token name, used = [token] ∧ token.operatorRule? = some name :=
    fun name token joins => ((ensures_mark token).mono fun single =>
      ⟨token, name, single, joins⟩).rule name
  exact (mark _ _ rfl).orElse <| (mark _ _ rfl).orElse <| (mark _ _ rfl).orElse <|
    (mark _ _ rfl).orElse (mark _ _ rfl)

section Nesting

variable {expression : Recognizer}
variable (sound : Ensures expression fun used => ∃ value, Derives (.sum value) used)

include sound

/-- What a statement takes is a statement. -/
theorem ensures_statement :
    Ensures (statement expression) fun used => ∃ value, Derives (.statement value) used := by
  -- A statement is an assignment if the first choice takes it, and an expression otherwise.
  refine Ensures.orElse ((Ensures.andThen ensures_identifier
    ((ensures_mark .assign).andThen sound)).mono ?_ |>.rule _) (sound.mono ?_)
  · rintro _ ⟨_, _, rfl, ⟨name, rfl⟩, _, _, rfl, rfl, value, derived⟩
    exact ⟨_, .assignment derived⟩
  · rintro _ ⟨value, derived⟩
    exact ⟨value, .expression derived⟩

/-- What arguments take are arguments. -/
theorem ensures_arguments :
    Ensures (arguments expression) fun used => ∃ values, Derives (.arguments values) used := by
  -- What follows the first argument is nothing, or a comma and arguments again.
  have others : Ensures ((token (· == .comma)).andThen (statement expression)).many fun used =>
      used = [] ∨ ∃ values more, used = .comma :: more ∧ Derives (.arguments values) more := by
    refine ((ensures_mark .comma).andThen (ensures_statement sound)).many (.inl rfl) ?_
    rintro _ _ ⟨_, more, rfl, rfl, value, derived⟩ (rfl | ⟨values, following, rfl, others⟩)
    · exact .inr ⟨_, more, by simp, .lastArgument derived⟩
    · exact .inr ⟨_, more ++ .comma :: following, rfl, .moreArguments derived others⟩
  refine ((ensures_statement sound).andThen others).mono ?_
  rintro _ ⟨before, _, rfl, ⟨value, derived⟩, rfl | ⟨values, following, rfl, others⟩⟩
  · exact ⟨_, by simpa using Derives.lastArgument derived⟩
  · exact ⟨_, .moreArguments derived others⟩

/-- What a call takes is an atom. -/
theorem ensures_call :
    Ensures (call expression) fun used => ∃ value, Derives (.atom value) used := by
  -- The call has arguments between its parentheses, or none.
  have inside : Ensures (arguments expression).optional fun used =>
      used = [] ∨ ∃ values, Derives (.arguments values) used :=
    ((ensures_arguments sound).mono Or.inr).optional (.inl rfl)
  refine ((ensures_identifier.andThen ((ensures_mark .opening).andThen
    (inside.andThen (ensures_mark .closing)))).mono ?_).rule _
  rintro _ ⟨_, _, rfl, ⟨name, rfl⟩, _, _, rfl, rfl, _, _, rfl, rfl | ⟨values, derived⟩, rfl⟩
  · exact ⟨_, .emptyCall⟩
  · exact ⟨_, .call derived⟩

/-- What a primary takes is an atom. -/
theorem ensures_primary :
    Ensures (primary expression) fun used => ∃ value, Derives (.atom value) used := by
  -- The four choices are a call, a number, a name and an expression in parentheses.
  refine (ensures_call sound).orElse <| (ensures_number.mono ?_).orElse <|
    (ensures_identifier.mono ?_).orElse <| ((ensures_mark .opening).andThen
      (sound.andThen (ensures_mark .closing))).mono ?_
  · rintro _ ⟨value, rfl⟩
    exact ⟨_, .number⟩
  · rintro _ ⟨name, rfl⟩
    exact ⟨_, .variableName⟩
  · rintro _ ⟨_, _, rfl, rfl, tokens, _, rfl, ⟨value, derived⟩, rfl⟩
    exact ⟨value, .parentheses derived⟩

/-- What an operand takes is a unary. -/
theorem ensures_operand :
    Ensures (operand expression) fun used => ∃ value, Derives (.unary value) used := by
  -- Signs before a unary are a unary again.
  have signs : Ensures (rule .negate (token (· == .minus))).many fun used =>
      ∀ tokens value, Derives (.unary value) tokens →
        ∃ value, Derives (.unary value) (used ++ tokens) := by
    refine ((ensures_mark .minus).rule _).many (fun _ _ derived => ⟨_, derived⟩) ?_
    rintro _ signs rfl before tokens value derived
    obtain ⟨_, signed⟩ := before tokens value derived
    exact ⟨_, .negation signed⟩
  refine (signs.andThen (ensures_primary sound)).mono ?_
  rintro _ ⟨signs, tokens, rfl, before, value, derived⟩
  exact before tokens value (.power (.atom derived))

end Nesting

/-- What an expression takes is a sum, however its operators follow each other. -/
theorem ensures_expression (depth : Nat) :
    Ensures (expression depth) fun used => ∃ value, Derives (.sum value) used := by
  -- Parentheses and arguments hold expressions of one depth less.
  induction depth with
  | zero =>
    intro cursor furthest next noted runs
    exact absurd runs (by simp [expression, refuse])
  | succ depth ih =>
    -- Each further operator and operand turns the sum before it into another sum.
    have others : Ensures (operator.andThen (operand (expression depth))).many fun used =>
        ∀ tokens value, Derives (.sum value) tokens →
          ∃ value, Derives (.sum value) (tokens ++ used) := by
      refine (ensures_operator.andThen (ensures_operand ih)).many ?_ ?_
      · intro tokens value derived
        exact ⟨value, by simpa using derived⟩
      · rintro _ after ⟨_, more, rfl, ⟨joint, _, rfl, joins⟩, _, operand⟩ continues
        intro tokens value derived
        obtain ⟨_, extended⟩ := derived.append_operator operand joins
        simpa using continues _ _ extended
    refine (((ensures_operand ih).andThen others).mono ?_).rule _
    rintro _ ⟨before, after, rfl, ⟨value, derived⟩, continues⟩
    exact continues _ _ (.product (.unary derived))

/-- Operands with operators between them, each operand an atom behind any number of signs, with
their pieces. -/
inductive Flat (isAtom : List Token → List Piece → Prop) : List Token → List Piece → Prop
  | operand (signs : Nat) {tokens : List Token} {pieces : List Piece}
      (atom : isAtom tokens pieces) :
      Flat isAtom (List.replicate signs .minus ++ tokens)
        (List.replicate signs (.operator .negate .minus) ++ pieces)
  | join (signs : Nat) {tokens more : List Token} {pieces others : List Piece} {joint : Token}
      {rule : Rule} (atom : isAtom tokens pieces) (joins : joint.operatorRule? = some rule)
      (flat : Flat isAtom more others) :
      Flat isAtom (List.replicate signs .minus ++ tokens ++ joint :: more)
        (List.replicate signs (.operator .negate .minus) ++ pieces ++
          .operator rule joint :: others)

section Flat

variable {isAtom : List Token → List Piece → Prop} {tokens more : List Token}
variable {pieces others : List Piece}

/-- A sign joins the signs of the first operand. -/
theorem Flat.minus (flat : Flat isAtom tokens pieces) :
    Flat isAtom (.minus :: tokens) (.operator .negate .minus :: pieces) := by
  -- The sign is added to those of the first operand.
  cases flat with
  | operand signs atom => exact .operand (signs + 1) atom
  | join signs atom joins others => exact .join (signs + 1) atom joins others

/-- Rows with an operator between them are one row. -/
theorem Flat.append {joint : Token} {rule : Rule} (flat : Flat isAtom tokens pieces)
    (joins : joint.operatorRule? = some rule) (following : Flat isAtom more others) :
    Flat isAtom (tokens ++ joint :: more) (pieces ++ .operator rule joint :: others) := by
  -- By induction on the joints of the first part; the new one comes behind its last operand.
  induction flat with
  | operand signs atom => exact .join signs atom joins following
  | join signs atom inner _ ih =>
    simpa using Flat.join signs atom inner ih

end Flat

/-- The tokens are taken whole as a primary, which does not start with a sign. -/
structure TakenAsAtom (depth : Nat) (used : List Token) (pieces : List Piece) : Prop where
  unsigned : ∀ token ∈ used.head?, token ≠ .minus
  present : used ≠ []
  takes : ∀ rest, Follows Token.endsAtom rest →
    Takes (primary (expression depth)) used rest pieces

/-- A mark is taken where it stands. -/
theorem takes_mark (mark : Token) (rest : List Token) :
    Takes (token (· == mark)) [mark] rest [] :=
  takes_token (by simp)

/-- A mark is refused where another token stands. -/
theorem refuses_mark {mark : Token} {tokens : List Token}
    (other : ∀ token ∈ tokens.head?, token ≠ mark) : Refuses (token (· == mark)) tokens :=
  refuses_token fun token first => by simpa using other token first

/-- Every operator is taken, as a piece of its rule. -/
theorem takes_operator {joint : Token} {name : Rule} (joins : joint.operatorRule? = some name)
    (rest : List Token) : Takes operator [joint] rest [.operator name joint] := by
  -- The alternatives before the right one are refused.
  have takes := (takes_mark joint rest).rule name
  have skips : ∀ (name : Rule) (mark : Token), joint ≠ mark →
      Refuses (rule name (token (· == mark))) ([joint] ++ rest) :=
    fun name mark other => (refuses_mark (by simpa using other)).rule name
  cases joint with
  | plus =>
    obtain rfl := Option.some.inj joins
    exact takes.orElse
  | minus =>
    obtain rfl := Option.some.inj joins
    exact (skips _ .plus nofun).orElse_takes takes.orElse
  | times =>
    obtain rfl := Option.some.inj joins
    exact (skips _ .plus nofun).orElse_takes <| (skips _ .minus nofun).orElse_takes takes.orElse
  | slash =>
    obtain rfl := Option.some.inj joins
    exact (skips _ .plus nofun).orElse_takes <| (skips _ .minus nofun).orElse_takes <|
      (skips _ .times nofun).orElse_takes takes.orElse
  | caret =>
    obtain rfl := Option.some.inj joins
    exact (skips _ .plus nofun).orElse_takes <| (skips _ .minus nofun).orElse_takes <|
      (skips _ .times nofun).orElse_takes <| (skips _ .slash nofun).orElse_takes takes
  | _ => exact absurd joins (by simp [Token.operatorRule?])

/-- No operator is taken where a sum ends. -/
theorem refuses_operator {rest : List Token} (follows : Follows Token.endsSum rest) :
    Refuses operator rest := by
  -- No mark among the alternatives ends a sum.
  have skips : ∀ (name : Rule) {mark : Token}, mark.endsSum = false →
      Refuses (rule name (token (· == mark))) rest := by
    intro name mark noEnd
    refine (refuses_mark fun token first same => ?_).rule name
    rw [same] at first
    exact absurd (follows mark first) (by simp [noEnd])
  exact (skips _ rfl).orElse <| (skips _ rfl).orElse <| (skips _ rfl).orElse <|
    (skips _ rfl).orElse (skips _ rfl)

/-- Signs and the atom behind them are taken as an operand. -/
theorem TakenAsAtom.takes_operand {depth : Nat} {used rest : List Token} {pieces : List Piece}
    (taken : TakenAsAtom depth used pieces) (signs : Nat) (follows : Follows Token.endsAtom rest) :
    Takes (operand (expression depth)) (List.replicate signs .minus ++ used) rest
      (List.replicate signs (.operator .negate .minus) ++ pieces) := by
  -- The signs end where the atom starts.
  have first : ∀ token ∈ (used ++ rest).head?, token ≠ .minus := by
    intro token isFirst
    rw [List.head?_append_of_ne_nil _ taken.present] at isFirst
    exact taken.unsigned token isFirst
  have repeated : ∀ signs limit, signs ≤ limit →
      Takes ((rule .negate (token (· == .minus))).upTo limit) (List.replicate signs .minus)
        (used ++ rest) (List.replicate signs (.operator .negate .minus)) := by
    intro signs
    induction signs with
    | zero => exact fun limit _ => ((refuses_mark first).rule _).upTo_takes limit
    | succ signs ih =>
      intro limit enough
      obtain ⟨limit, rfl⟩ : ∃ fewer, limit = fewer + 1 := ⟨limit - 1, by omega⟩
      exact ((takes_mark .minus _).rule _).upTo (ih limit (by omega))
  refine Takes.andThen (Takes.many (repeated signs _ ?_)) (taken.takes rest follows)
  simp only [List.length_append, List.length_replicate]
  omega

/-- Further operators and operands are taken up to what ends a sum. -/
theorem Flat.takes_others {depth : Nat} {used rest : List Token} {pieces : List Piece}
    (flat : Flat (TakenAsAtom depth) used pieces) (follows : Follows Token.endsSum rest) :
    ∀ (joint : Token) (name : Rule) (limit : Nat), joint.operatorRule? = some name →
      used.length < limit →
      Takes ((operator.andThen (Recognizer.operand (expression depth))).upTo limit)
        (joint :: used) rest (.operator name joint :: pieces) := by
  -- Each round takes an operator with its operand and leaves the next operator in front.
  induction flat with
  | @operand signs tokens _ atom =>
    intro joint name limit joins within
    obtain ⟨limit, rfl⟩ : ∃ fewer, limit = fewer + 1 := ⟨limit - 1, by omega⟩
    have ends : Follows Token.endsAtom rest := follows.mono Token.endsAtom_of_endsSum
    have round := (takes_operator joins _).andThen (atom.takes_operand signs ends)
    exact round.upTo_last (refuses_operator follows).andThen limit
  | @join signs tokens more _ _ next _ atom isNext _ ih =>
    intro joint name limit joins within
    obtain ⟨limit, rfl⟩ : ∃ fewer, limit = fewer + 1 := ⟨limit - 1, by omega⟩
    simp only [List.length_append, List.length_cons] at within
    have ends : Follows Token.endsAtom (next :: (more ++ rest)) :=
      follows_cons.2 (Token.endsAtom_of_operatorRule? isNext)
    have round := (takes_operator joins _).andThen (atom.takes_operand signs ends)
    simpa using round.upTo (ih next _ limit isNext (by omega))

/-- A flat row of operands is taken whole as an expression, whose piece holds the row. -/
theorem Flat.takes_expression {depth : Nat} {used rest : List Token} {pieces : List Piece}
    (flat : Flat (TakenAsAtom depth) used pieces) (follows : Follows Token.endsSum rest) :
    Takes (expression (depth + 1)) used rest [.mk .expr used pieces] := by
  -- The first operand is taken by itself, and the others follow it one by one.
  refine Takes.rule _ ?_
  cases flat with
  | operand signs atom =>
    have ends : Follows Token.endsAtom rest := follows.mono Token.endsAtom_of_endsSum
    exact (atom.takes_operand signs ends).andThen_nothing
      (refuses_operator follows).andThen.many_takes
  | @join signs tokens more _ _ next _ atom isNext others =>
    have ends : Follows Token.endsAtom (next :: (more ++ rest)) :=
      follows_cons.2 (Token.endsAtom_of_operatorRule? isNext)
    refine (atom.takes_operand signs ends).andThen (Takes.many ?_)
    refine others.takes_others follows next _ _ isNext ?_
    simp only [List.length_append, List.length_cons]
    omega

/-- A name is taken as an identifier. -/
theorem takes_identifier (name : String) (rest : List Token) :
    Takes identifier [.name name] rest [.named name] :=
  (takes_token rfl).rule _

/-- Only a name is taken as an identifier. -/
theorem refuses_identifier {tokens : List Token}
    (other : ∀ token ∈ tokens.head?, ∀ name, token ≠ .name name) : Refuses identifier tokens := by
  -- Only a name would be accepted.
  refine (refuses_token fun token first => ?_).rule _
  cases token with
  | name name => exact absurd rfl (other _ first name)
  | _ => rfl

/-- No expression starts with a closing parenthesis. -/
theorem refuses_statement_closing (depth : Nat) (rest : List Token) :
    Refuses (statement (expression (depth + 1))) (.closing :: rest) := by
  -- Nothing that an expression can start with is a closing parenthesis.
  have noName : Refuses identifier (.closing :: rest) := refuses_identifier (by simp)
  have noNumber : Refuses number (.closing :: rest) := (refuses_token (by simp)).rule _
  have noOpening : Refuses (token (· == .opening)) (.closing :: rest) := refuses_mark (by simp)
  have noSign : Refuses (rule .negate (token (· == .minus))) (.closing :: rest) :=
    (refuses_mark (by simp)).rule _
  have noPrimary : Refuses (primary (expression depth)) (.closing :: rest) :=
    (noName.andThen.rule _).orElse <| noNumber.orElse <| noName.orElse noOpening.andThen
  have noOperand : Refuses (operand (expression depth)) (.closing :: rest) :=
    noSign.many_takes.andThen_refuses noPrimary
  exact (noName.andThen.rule _).orElse (noOperand.andThen.rule _)

/-- A sum and what may follow it never start with a name and an assignment sign. -/
theorem refuses_assignment {value : Expr} {used rest : List Token} (recognizer : Recognizer)
    (derives : Derives (.sum value) used) (follows : Follows Token.endsSum rest) :
    Refuses (assignment recognizer) (used ++ rest) := by
  have read := Parser.reads_sum (Parser.completes derives _ (Nat.le_refl _)) rest follows
  by_cases named : ∃ name more, used ++ rest = .name name :: more
  · obtain ⟨name, more, same⟩ := named
    rw [same]
    refine ((takes_identifier name more).andThen_refuses (Refuses.andThen ?_)).rule _
    refine refuses_mark fun token first isAssign => ?_
    -- The parser would leave the assignment sign behind the name, but it leaves what follows.
    subst isAssign
    obtain ⟨more, rfl⟩ := List.head?_eq_some_iff.1 first
    rw [same, Parser.expression_name_assign, Option.some.injEq, Prod.mk.injEq] at read
    rw [← read.2, follows_cons] at follows
    exact absurd follows (by simp [Token.endsSum])
  · refine (refuses_identifier fun token first name isName => named ?_).andThen.rule _
    subst isName
    obtain ⟨more, same⟩ := List.head?_eq_some_iff.1 first
    exact ⟨name, more, same⟩

/-- What the recognizer does with a phrase of a form, when it may nest at least `depth` deep. -/
def Recognized (form : Form) (used : List Token) (depth : Nat) (pieces : List Piece) : Prop :=
  match form with
  | .atom _ => TakenAsAtom depth used pieces
  | .power _ | .unary _ | .product _ | .sum _ => Flat (TakenAsAtom depth) used pieces
  | .statement _ => ∀ rest, Follows Token.endsSum rest →
      Takes (statement (expression (depth + 1))) used rest pieces
  | .arguments _ => ∀ rest,
      Takes (arguments (expression (depth + 1))) used (.closing :: rest) pieces ∧
      ∀ limit, used.length < limit →
        Takes (((token (· == .comma)).andThen (statement (expression (depth + 1)))).upTo limit)
          (.comma :: used) (.closing :: rest) pieces

/-- The recognizer takes every phrase of the grammar whole, as pieces that are worth what the phrase
spells. -/
theorem recognized {form : Form} {used : List Token} (derives : Derives form used) :
    ∀ depth, used.length ≤ depth → ∃ pieces, Recognized form used depth pieces ∧
      Groups form pieces := by
  -- Down to the atoms every production is a flat row; atoms are recognized one level deeper.
  induction derives with
  | @assignment target _ tokens _ ih =>
    intro depth enough
    simp only [List.length_cons] at enough
    obtain ⟨pieces, flat, groups⟩ := ih depth (by omega)
    refine ⟨_, fun rest follows => ?_,
      groups.assignment target (.name target :: .assign :: tokens) tokens⟩
    exact (((takes_identifier _ _).andThen ((takes_mark .assign _).andThen
      (Flat.takes_expression flat follows))).rule _).orElse
  | @expression _ tokens derived ih =>
    intro depth enough
    obtain ⟨pieces, flat, groups⟩ := ih depth enough
    refine ⟨_, fun rest follows => ?_, groups.expression tokens⟩
    exact (refuses_assignment _ derived follows).orElse_takes (Flat.takes_expression flat follows)
  | add _ _ left right | subtract _ _ left right =>
    intro depth enough
    simp only [List.length_append, List.length_cons] at enough
    obtain ⟨before, flat, groups⟩ := left depth (by omega)
    obtain ⟨after, flatAfter, groupsAfter⟩ := right depth (by omega)
    exact ⟨_, Flat.append flat rfl flatAfter, .additive rfl rfl groups groupsAfter⟩
  | multiply _ _ left right | divide _ _ left right =>
    intro depth enough
    simp only [List.length_append, List.length_cons] at enough
    obtain ⟨before, flat, groups⟩ := left depth (by omega)
    obtain ⟨after, flatAfter, groupsAfter⟩ := right depth (by omega)
    exact ⟨_, Flat.append flat rfl flatAfter, .multiplicative rfl rfl groups groupsAfter⟩
  | raised _ _ base exponent =>
    intro depth enough
    simp only [List.length_append, List.length_cons] at enough
    obtain ⟨before, taken, groups⟩ := base depth (by omega)
    obtain ⟨after, flatAfter, groupsAfter⟩ := exponent depth (by omega)
    exact ⟨_, Flat.append (.operand 0 taken) rfl flatAfter, .raised groups groupsAfter⟩
  | product _ ih =>
    intro depth enough
    obtain ⟨pieces, flat, groups⟩ := ih depth enough
    exact ⟨pieces, flat, groups.sum⟩
  | unary _ ih =>
    intro depth enough
    obtain ⟨pieces, flat, groups⟩ := ih depth enough
    exact ⟨pieces, flat, groups.product⟩
  | power _ ih => exact ih
  | negation _ ih =>
    intro depth enough
    simp only [List.length_cons] at enough
    obtain ⟨pieces, flat, groups⟩ := ih depth (by omega)
    exact ⟨_, Flat.minus flat, groups.negation⟩
  | atom _ ih =>
    intro depth enough
    obtain ⟨pieces, taken, groups⟩ := ih depth enough
    exact ⟨pieces, .operand 0 taken, groups.power⟩
  | @number value =>
    intro depth _
    refine ⟨_, ⟨by simp, by simp, fun rest _ => ?_⟩, .number value⟩
    have noName : Refuses identifier ([.number value] ++ rest) := refuses_identifier (by simp)
    exact (noName.andThen.rule _).orElse_takes ((takes_token rfl).rule _).orElse
  | @variableName name =>
    intro depth _
    refine ⟨_, ⟨by simp, by simp, fun rest follows => ?_⟩, .variableName name⟩
    -- Without a parenthesis behind it the name is no call.
    have noCall : Refuses (call (expression depth)) ([.name name] ++ rest) := by
      refine ((takes_identifier name rest).andThen_refuses (Refuses.andThen ?_)).rule _
      refine refuses_mark fun token first isOpening => ?_
      have ends := follows token first
      rw [isOpening] at ends
      exact absurd ends
        (by simp [Token.endsAtom, Token.endsUnary, Token.endsProduct, Token.endsSum])
    have noNumber : Refuses number ([.name name] ++ rest) := (refuses_token (by simp)).rule _
    exact noCall.orElse_takes (noNumber.orElse_takes (takes_identifier name rest).orElse)
  | @parentheses _ tokens _ ih =>
    intro depth enough
    simp only [List.length_cons, List.length_append] at enough
    obtain ⟨depth, rfl⟩ : ∃ fewer, depth = fewer + 1 := ⟨depth - 1, by omega⟩
    obtain ⟨pieces, flat, groups⟩ := ih depth (by omega)
    refine ⟨_, ⟨by simp, by simp, fun rest _ => ?_⟩, groups.parentheses tokens⟩
    have noName : Refuses identifier (.opening :: (tokens ++ [.closing]) ++ rest) :=
      refuses_identifier (by simp)
    have noNumber : Refuses number (.opening :: (tokens ++ [.closing]) ++ rest) :=
      (refuses_token (by simp)).rule _
    refine (noName.andThen.rule _).orElse_takes <| noNumber.orElse_takes <| noName.orElse_takes ?_
    exact (takes_mark .opening _).andThen
      ((Flat.takes_expression flat (follows_cons.2 rfl)).andThen (takes_mark .closing rest))
  | @emptyCall name =>
    intro depth enough
    simp only [List.length_cons] at enough
    obtain ⟨depth, rfl⟩ : ∃ fewer, depth = fewer + 1 := ⟨depth - 1, by omega⟩
    refine ⟨_, ⟨by simp, by simp, fun rest _ => Takes.orElse (Takes.rule _ ?_)⟩,
      Groups.noArguments.call name [.name name, .opening, .closing]⟩
    have empty : Refuses (arguments (expression (depth + 1))) ([.closing] ++ rest) :=
      (refuses_statement_closing depth rest).andThen
    exact (takes_identifier name _).andThen ((takes_mark .opening _).andThen
      (empty.optional_takes.andThen (takes_mark .closing rest)))
  | @call name _ tokens _ ih =>
    intro depth enough
    simp only [List.length_cons, List.length_append] at enough
    obtain ⟨depth, rfl⟩ : ∃ fewer, depth = fewer + 1 := ⟨depth - 1, by omega⟩
    obtain ⟨pieces, taken, groups⟩ := ih depth (by omega)
    refine ⟨_, ⟨by simp, by simp, fun rest _ => Takes.orElse (Takes.rule _ ?_)⟩,
      groups.call name (.name name :: .opening :: (tokens ++ [.closing]))⟩
    have inside := (takes_identifier name _).andThen ((takes_mark .opening _).andThen
      ((taken rest).1.optional.andThen (takes_mark .closing rest)))
    simpa using inside
  | lastArgument _ ih =>
    intro depth enough
    obtain ⟨pieces, takes, groups⟩ := ih depth enough
    refine ⟨pieces ++ [], fun rest => ?_, .moreArguments groups .noArguments⟩
    rw [List.append_nil]
    have taken := takes (.closing :: rest) (follows_cons.2 rfl)
    have ended : Refuses ((token (· == .comma)).andThen (statement (expression (depth + 1))))
        (.closing :: rest) := (refuses_mark (by simp)).andThen
    refine ⟨taken.andThen_nothing ended.many_takes, fun limit within => ?_⟩
    obtain ⟨limit, rfl⟩ : ∃ fewer, limit = fewer + 1 := ⟨limit - 1, by omega⟩
    exact ((takes_mark .comma _).andThen taken).upTo_last ended limit
  | @moreArguments _ _ before after _ _ first more =>
    intro depth enough
    simp only [List.length_append, List.length_cons] at enough
    obtain ⟨pieces, takes, groups⟩ := first depth (by omega)
    obtain ⟨others, takesOthers, groupsOthers⟩ := more depth (by omega)
    refine ⟨pieces ++ others, fun rest => ?_, .moreArguments groups groupsOthers⟩
    have taken := takes (.comma :: (after ++ .closing :: rest)) (follows_cons.2 rfl)
    refine ⟨taken.andThen (Takes.many ((takesOthers rest).2 _ ?_)), fun limit within => ?_⟩
    · simp only [List.length_append, List.length_cons]
      omega
    · simp only [List.length_append, List.length_cons] at within
      obtain ⟨limit, rfl⟩ : ∃ fewer, limit = fewer + 1 := ⟨limit - 1, by omega⟩
      exact ((takes_mark .comma _).andThen taken).upTo ((takesOthers rest).2 limit (by omega))

/-- Only where nothing is left does the input end. -/
theorem rest_eq_nil_of_endOfInput {cursor next : Cursor} {furthest noted : Furthest}
    (runs : endOfInput cursor furthest = (some next, noted)) : cursor.rest = [] := by
  -- The end is accepted only where no token is left.
  by_contra present
  simp [endOfInput, rule, present] at runs

end Recognizer

/-- Tokens that have pieces are a statement. -/
theorem exists_derives_of_pieces? {tokens : List Token} {pieces : List Piece}
    (found : pieces? tokens = some pieces) : ∃ value, Derives (.statement value) tokens := by
  -- The statement takes everything, because the input ends behind it.
  obtain ⟨next, runs, _⟩ := Option.map_eq_some_iff.1 found
  simp only [Recognizer.program, Recognizer.rule, Recognizer.andThen] at runs
  split at runs
  · rename_i finished _ both
    split at both
    · rename_i middle noted statementRuns
      have ended := Recognizer.rest_eq_nil_of_endOfInput both
      obtain ⟨used, split, derived⟩ := Recognizer.ensures_statement
        (Recognizer.ensures_expression _) _ _ _ _ statementRuns
      rw [ended, List.append_nil] at split
      obtain rfl : tokens = used := split
      exact derived
    · exact absurd both (by simp)
  · exact absurd runs (by simp)

/-- A statement has pieces, and they are built to what it spells: no operator stands where an
operand must, no operand where an operator must, and no piece where none of its rule can. -/
theorem Derives.build_pieces {tokens : List Token} {value : Expr}
    (derives : Derives (.statement value) tokens) :
    ∃ pieces, pieces? tokens = some pieces ∧ build pieces = pure value := by
  -- The whole input is one piece, which holds the statement and the end of the input.
  obtain ⟨pieces, takes, groups⟩ :=
    Recognizer.recognized derives tokens.length (Nat.le_refl _)
  have taken := takes [] (by simp [Follows])
  have ended : Recognizer.Takes Recognizer.endOfInput [] [] [.mk .endOfInput [] []] :=
    Recognizer.Takes.rule _ fun position before furthest => ⟨furthest, by simp⟩
  obtain ⟨noted, runs⟩ := (taken.andThen ended).rule .program 0 [] .start
  simp only [List.append_nil] at runs
  refine ⟨[.mk .program tokens (pieces ++ [.mk .endOfInput [] []])], ?_, groups.program _ _⟩
  rw [pieces?, Recognizer.program, runs]
  rfl

/-- The pieces of tokens are built to an expression exactly when the tokens spell it. -/
theorem build_eq_pure_iff {tokens : List Token} {pieces : List Piece}
    (found : pieces? tokens = some pieces) (value : Expr) :
    build pieces = pure value ↔ Derives (.statement value) tokens := by
  -- What has pieces spells something, and its pieces are built to that and to nothing else.
  constructor
  · intro built
    obtain ⟨other, derives⟩ := exists_derives_of_pieces? found
    obtain ⟨same, foundAgain, builtAgain⟩ := derives.build_pieces
    obtain rfl := Option.some.inj (found.symm.trans foundAgain)
    obtain rfl : value = other := Except.ok.inj (Except.ok.inj (built.symm.trans builtAgain))
    exact derives
  · intro derives
    obtain ⟨same, foundAgain, built⟩ := derives.build_pieces
    obtain rfl := Option.some.inj (found.symm.trans foundAgain)
    exact built

/-- Tokens without pieces are no statement. -/
theorem pieces?_eq_none_iff (tokens : List Token) :
    pieces? tokens = none ↔ ∀ value, ¬ Derives (.statement value) tokens := by
  -- A statement has pieces, and what has pieces is a statement.
  constructor
  · intro refused value derives
    obtain ⟨pieces, found, _⟩ := derives.build_pieces
    exact nomatch refused.symm.trans found
  · intro none
    cases found : pieces? tokens with
    | none => rfl
    | some pieces =>
      obtain ⟨value, derives⟩ := exists_derives_of_pieces? found
      exact absurd derives (none value)

end Calculator.Grammar
