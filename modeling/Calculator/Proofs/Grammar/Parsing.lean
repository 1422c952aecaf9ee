import Calculator.Proofs.Grammar.Parser
import Calculator.Proofs.Grammar.Derivation

/-! The parser reads exactly the phrases of the layered grammar. -/

namespace Calculator.Grammar

namespace Parser

/-- What a parser takes off the front of its tokens is a phrase that spells the result. -/
def Sound {α : Type} (form : α → Form) (parser : Parser α) : Prop :=
  ∀ {tokens : List Token} {value : α} {rest : List Token}, parser tokens = some (value, rest) →
    ∃ used, tokens = used ++ rest ∧ Derives (form value) used

/-- An additive operator joins a sum and a product. -/
theorem derives_additive {token : Token} {operator : Operator}
    (stands : additive? token = some operator) {left right : Expr} {before after : List Token}
    (sum : Derives (.sum left) before) (product : Derives (.product right) after) :
    Derives (.sum (.op operator.symbol [left, right])) (before ++ token :: after) := by
  -- Only two tokens stand for additive operators.
  cases token <;> simp only [additive?, Option.some.injEq, reduceCtorEq] at stands <;> subst stands
  · exact .add sum product
  · exact .subtract sum product

/-- A multiplicative operator joins a product and a unary. -/
theorem derives_multiplicative {token : Token} {operator : Operator}
    (stands : multiplicative? token = some operator) {left right : Expr}
    {before after : List Token} (product : Derives (.product left) before)
    (unary : Derives (.unary right) after) :
    Derives (.product (.op operator.symbol [left, right])) (before ++ token :: after) := by
  -- Only two tokens stand for multiplicative operators.
  cases token <;> simp only [multiplicative?, Option.some.injEq, reduceCtorEq] at stands <;>
    subst stands
  · exact .multiply product unary
  · exact .divide product unary

section Chain

variable {operator? : Token → Option Operator} {operand : Parser Expr} {outer inner : Expr → Form}

/-- Further operands of a chain extend the phrase that was read before them. -/
theorem chainRest_sound (sound : Sound inner operand)
    (join : ∀ {token : Token} {operator : Operator}, operator? token = some operator →
      ∀ {left right : Expr} {before after : List Token}, Derives (outer left) before →
        Derives (inner right) after →
        Derives (outer (.op operator.symbol [left, right])) (before ++ token :: after))
    (limit : Nat) {left value : Expr} {before tokens rest : List Token}
    (derived : Derives (outer left) before)
    (read : chainRest operator? operand limit left tokens = some (value, rest)) :
    ∃ used, before ++ tokens = used ++ rest ∧ Derives (outer value) used := by
  -- Each round joins one operand to the phrase so far, which is then the new left operand.
  induction limit generalizing left before tokens with
  | zero =>
    simp only [chainRest, Option.some.injEq, Prod.mk.injEq] at read
    obtain ⟨rfl, rfl⟩ := read
    exact ⟨before, rfl, derived⟩
  | succ limit ih =>
    unfold chainRest at read
    split at read
    · simp only [Option.some.injEq, Prod.mk.injEq] at read
      obtain ⟨rfl, rfl⟩ := read
      exact ⟨before, rfl, derived⟩
    · rename_i token following
      split at read
      · simp only [Option.some.injEq, Prod.mk.injEq] at read
        obtain ⟨rfl, rfl⟩ := read
        exact ⟨before, rfl, derived⟩
      · rename_i operator stands
        split at read
        · exact absurd read (by simp)
        · rename_i right remaining operandRead
          obtain ⟨after, rfl, operandDerived⟩ := sound operandRead
          obtain ⟨used, same, whole⟩ := ih (join stands derived operandDerived) read
          exact ⟨used, by rw [← same]; simp, whole⟩

/-- A chain of phrases is a phrase of the layer around them. -/
theorem chain_sound (sound : Sound inner operand)
    (embed : ∀ {value : Expr} {tokens : List Token}, Derives (inner value) tokens →
      Derives (outer value) tokens)
    (join : ∀ {token : Token} {operator : Operator}, operator? token = some operator →
      ∀ {left right : Expr} {before after : List Token}, Derives (outer left) before →
        Derives (inner right) after →
        Derives (outer (.op operator.symbol [left, right])) (before ++ token :: after)) :
    Sound outer (chain operator? operand) := by
  intro tokens value rest read
  -- The first operand alone is the phrase that the rest of the chain extends.
  unfold chain at read
  split at read
  · exact absurd read (by simp)
  · rename_i first following firstRead
    obtain ⟨before, rfl, derived⟩ := sound firstRead
    exact chainRest_sound sound join _ (embed derived) read

end Chain

/-- Signs and powers around sound atoms are unary phrases. -/
theorem signedPower_sound {atom : Parser Expr} (sound : Sound .atom atom) (limit : Nat) :
    Sound .unary (signedPower atom limit) := by
  -- Each step takes a sign or a base, and the rest is read with one step less.
  induction limit with
  | zero =>
    intro tokens value rest read
    exact absurd read (by simp [signedPower])
  | succ limit ih =>
    intro tokens value rest read
    unfold signedPower at read
    split at read
    · simp only [Option.map_eq_some_iff, Prod.mk.injEq, Prod.exists] at read
      obtain ⟨operand, _, operandRead, rfl, rfl⟩ := read
      obtain ⟨used, rfl, derived⟩ := ih operandRead
      exact ⟨.minus :: used, rfl, .negation derived⟩
    · split at read
      · rename_i base following baseRead
        simp only [Option.map_eq_some_iff, Prod.mk.injEq, Prod.exists] at read
        obtain ⟨exponent, _, exponentRead, rfl, rfl⟩ := read
        obtain ⟨before, rfl, baseDerived⟩ := sound baseRead
        obtain ⟨after, rfl, exponentDerived⟩ := ih exponentRead
        exact ⟨before ++ .caret :: after, by simp, .power (.raised baseDerived exponentDerived)⟩
      · obtain ⟨used, rfl, derived⟩ := sound read
        exact ⟨used, rfl, .power (.atom derived)⟩

/-- Sums of products of sound atoms are sums. -/
theorem sum_sound {atom : Parser Expr} (sound : Sound .atom atom) : Sound .sum (sum atom) := by
  -- Two chains, one in the other, around signs and powers.
  refine chain_sound (chain_sound ?_ .unary derives_multiplicative) .product derives_additive
  intro tokens value rest read
  exact signedPower_sound sound _ read

section Nesting

variable {expression : Parser Expr} (sound : Sound .sum expression)

include sound

/-- Statements around sound expressions are statements. -/
theorem statement_sound : Sound .statement (statement expression) := by
  intro tokens value rest read
  -- A name and an assignment sign at the front make it an assignment.
  unfold statement at read
  split at read
  · rename_i target following
    simp only [Option.map_eq_some_iff, Prod.mk.injEq, Prod.exists] at read
    obtain ⟨assigned, _, valueRead, rfl, rfl⟩ := read
    obtain ⟨used, rfl, derived⟩ := sound valueRead
    exact ⟨.name target :: .assign :: used, rfl, .assignment derived⟩
  · obtain ⟨used, rfl, derived⟩ := sound read
    exact ⟨used, rfl, .expression derived⟩

/-- Further arguments, each after a comma, end at the closing parenthesis. -/
theorem argumentsRest_sound (limit : Nat) {tokens rest : List Token} {values : List Expr}
    (read : argumentsRest expression limit tokens = some (values, rest)) :
    (values = [] ∧ tokens = .closing :: rest) ∨
      ∃ used, tokens = .comma :: (used ++ .closing :: rest) ∧
        Derives (.arguments values) used := by
  -- The first token says whether an argument follows; the arguments after it are read alike.
  induction limit generalizing tokens values with
  | zero =>
    unfold argumentsRest at read
    split at read
    · simp only [Option.some.injEq, Prod.mk.injEq] at read
      obtain ⟨rfl, rfl⟩ := read
      exact .inl ⟨rfl, rfl⟩
    · rename_i impossible
      exact absurd impossible (by simp)
    · exact absurd read (by simp)
  | succ limit ih =>
    unfold argumentsRest at read
    split at read
    · simp only [Option.some.injEq, Prod.mk.injEq] at read
      obtain ⟨rfl, rfl⟩ := read
      exact .inl ⟨rfl, rfl⟩
    · rename_i same
      obtain rfl := Nat.succ.inj same
      right
      split at read
      · exact absurd read (by simp)
      · rename_i first following firstRead
        simp only [Option.map_eq_some_iff, Prod.mk.injEq, Prod.exists] at read
        obtain ⟨more, _, moreRead, rfl, rfl⟩ := read
        obtain ⟨before, rfl, firstDerived⟩ := statement_sound sound firstRead
        rcases ih moreRead with ⟨rfl, rfl⟩ | ⟨after, rfl, moreDerived⟩
        · exact ⟨before, rfl, .lastArgument firstDerived⟩
        · exact ⟨before ++ .comma :: after, by simp, .moreArguments firstDerived moreDerived⟩
    · exact absurd read (by simp)

/-- The arguments of a call end at its closing parenthesis. -/
theorem arguments_sound {tokens rest : List Token} {values : List Expr}
    (read : arguments expression tokens = some (values, rest)) :
    (values = [] ∧ tokens = .closing :: rest) ∨
      ∃ used, tokens = used ++ .closing :: rest ∧ Derives (.arguments values) used := by
  -- Either the parenthesis closes at once, or a first argument has others behind it.
  unfold arguments at read
  split at read
  · simp only [Option.some.injEq, Prod.mk.injEq] at read
    obtain ⟨rfl, rfl⟩ := read
    exact .inl ⟨rfl, rfl⟩
  · right
    split at read
    · exact absurd read (by simp)
    · rename_i first following firstRead
      simp only [Option.map_eq_some_iff, Prod.mk.injEq, Prod.exists] at read
      obtain ⟨more, _, moreRead, rfl, rfl⟩ := read
      obtain ⟨before, rfl, firstDerived⟩ := statement_sound sound firstRead
      rcases argumentsRest_sound sound _ moreRead with ⟨rfl, rfl⟩ | ⟨after, rfl, moreDerived⟩
      · exact ⟨before, rfl, .lastArgument firstDerived⟩
      · exact ⟨before ++ .comma :: after, by simp, .moreArguments firstDerived moreDerived⟩

/-- Atoms around sound expressions are atoms. -/
theorem atom_sound : Sound .atom (atom expression) := by
  intro tokens value rest read
  unfold atom at read
  -- A number, a call, a name, parentheses, or nothing that starts an atom.
  split at read
  · simp only [Option.some.injEq, Prod.mk.injEq] at read
    obtain ⟨rfl, rfl⟩ := read
    exact ⟨[_], rfl, .number⟩
  · simp only [Option.map_eq_some_iff, Prod.mk.injEq, Prod.exists] at read
    obtain ⟨operands, _, argumentsRead, rfl, rfl⟩ := read
    rcases arguments_sound sound argumentsRead with ⟨rfl, rfl⟩ | ⟨used, rfl, derived⟩
    · exact ⟨[_, _, _], rfl, .emptyCall⟩
    · exact ⟨_, by simp, .call derived⟩
  · simp only [Option.some.injEq, Prod.mk.injEq] at read
    obtain ⟨rfl, rfl⟩ := read
    exact ⟨[_], rfl, .variableName⟩
  · split at read
    · rename_i inner _ innerRead
      simp only [Option.some.injEq, Prod.mk.injEq] at read
      obtain ⟨rfl, rfl⟩ := read
      obtain ⟨used, rfl, derived⟩ := sound innerRead
      exact ⟨_, by simp, .parentheses derived⟩
    · exact absurd read (by simp)
  · exact absurd read (by simp)

end Nesting

/-- Expressions of any depth are sums. -/
theorem expression_sound (depth : Nat) : Sound .sum (expression depth) := by
  -- Parentheses and arguments hold expressions of one depth less.
  induction depth with
  | zero =>
    intro tokens value rest read
    exact absurd read (by simp [expression])
  | succ depth ih => exact sum_sound (atom_sound ih)

end Parser

namespace Token

/-- The token can stand after a statement. -/
def endsSum : Token → Bool
  | .closing | .comma => true
  | _ => false

/-- The token can stand after a product. -/
def endsProduct : Token → Bool
  | .plus | .minus => true
  | token => token.endsSum

/-- The token can stand after a unary. -/
def endsUnary : Token → Bool
  | .times | .slash => true
  | token => token.endsProduct

/-- The token can stand after an atom. -/
def endsAtom : Token → Bool
  | .caret => true
  | token => token.endsUnary

/-- What ends a sum ends its last product. -/
theorem endsProduct_of_endsSum {token : Token} (ends : token.endsSum = true) :
    token.endsProduct = true := by
  -- What ends a sum ends the products in it.
  cases token <;> simp_all [endsSum, endsProduct]

/-- What ends a product ends its last unary. -/
theorem endsUnary_of_endsProduct {token : Token} (ends : token.endsProduct = true) :
    token.endsUnary = true := by
  -- What ends a product ends the signed operands in it.
  cases token <;> simp_all [endsProduct, endsUnary]

/-- What ends a unary ends its last atom. -/
theorem endsAtom_of_endsUnary {token : Token} (ends : token.endsUnary = true) :
    token.endsAtom = true := by
  -- What ends a signed operand ends the atoms in it.
  cases token <;> simp_all [endsUnary, endsAtom]

end Token

/-- Nothing follows, or a token that cannot go on with the phrase before it. -/
def Follows (ends : Token → Bool) (rest : List Token) : Prop :=
  ∀ token ∈ rest.head?, ends token = true

/-- What follows a wider phrase follows the phrase at its end. -/
theorem Follows.mono {ends weaker : Token → Bool} {rest : List Token}
    (follows : Follows ends rest) (weaken : ∀ {token}, ends token = true → weaker token = true) :
    Follows weaker rest :=
  fun token first => weaken (follows token first)

/-- Only the first token matters to what follows. -/
theorem follows_cons {ends : Token → Bool} {token : Token} {rest : List Token} :
    Follows ends (token :: rest) ↔ ends token = true := by
  -- Only the first token behind is asked for.
  simp [Follows]

namespace Parser

section Chain

variable {operator? : Token → Option Operator} {operand : Parser Expr}
variable {ends outerEnds : Token → Bool}

/-- The parser reads a phrase whole, whatever may follow it. -/
def Reads {α : Type} (parser : Parser α) (ends : Token → Bool) (used : List Token) (value : α) :
    Prop :=
  ∀ rest, Follows ends rest → parser (used ++ rest) = some (value, rest)

/-- A chain reads a phrase as its operands so far and then goes on behind it. -/
def Continues (operator? : Token → Option Operator) (operand : Parser Expr) (ends : Token → Bool)
    (used : List Token) (value : Expr) : Prop :=
  ∀ rest, Follows ends rest → ∃ limit, rest.length ≤ limit ∧
    chain operator? operand (used ++ rest) = chainRest operator? operand limit value rest

/-- A chain goes on behind its first operand. -/
theorem Reads.continues {used : List Token} {value : Expr} (reads : Reads operand ends used value) :
    Continues operator? operand ends used value := by
  intro rest follows
  -- Everything behind the operand is left to the limit.
  exact ⟨rest.length, Nat.le_refl _, by simp [chain, reads rest follows]⟩

/-- A chain goes on behind each further operand. -/
theorem Continues.join (token : Token) (operator : Operator) {left right : Expr}
    {before after : List Token} (stands : operator? token = some operator)
    (apart : ends token = true) (continues : Continues operator? operand ends before left)
    (reads : Reads operand ends after right) :
    Continues operator? operand ends (before ++ token :: after)
      (.op operator.symbol [left, right]) := by
  -- The limit covers the operator and its operand, so at least one round is left for them.
  intro rest follows
  obtain ⟨limit, enough, read⟩ := continues (token :: (after ++ rest)) (follows_cons.2 apart)
  obtain ⟨limit, rfl⟩ : ∃ fewer, limit = fewer + 1 :=
    ⟨limit - 1, by simp only [List.length_cons] at enough; omega⟩
  refine ⟨limit, by simp only [List.length_cons, List.length_append] at enough; omega, ?_⟩
  rw [List.append_assoc, List.cons_append, read]
  simp [chainRest, stands, reads rest follows]

/-- A chain ends where no operator of its layer follows. -/
theorem Continues.reads {used : List Token} {value : Expr}
    (continues : Continues operator? operand ends used value)
    (outer : ∀ {token}, outerEnds token = true → ends token = true ∧ operator? token = none) :
    Reads (chain operator? operand) outerEnds used value := by
  intro rest follows
  obtain ⟨limit, _, read⟩ := continues rest (follows.mono fun ends => (outer ends).1)
  rw [read]
  -- With rounds left the next token is looked at, and it is no operator.
  cases limit with
  | zero => rfl
  | succ limit =>
    cases rest with
    | nil => rfl
    | cons token rest => simp [chainRest, (outer (follows_cons.1 follows)).2]

end Chain

/-- What the parser does with a phrase of a form, when it may nest at least `depth` deep. -/
def Completes (form : Form) (used : List Token) (depth : Nat) : Prop :=
  match form with
  | .atom value => Reads (atom (expression depth)) Token.endsAtom used value
  | .power value | .unary value => ∀ limit, used.length < limit →
      Reads (signedPower (atom (expression depth)) limit) Token.endsUnary used value
  | .product value =>
      Continues multiplicative? (factor (atom (expression depth))) Token.endsUnary used value
  | .sum value =>
      Continues additive? (chain multiplicative? (factor (atom (expression depth))))
        Token.endsProduct used value
  | .statement value => Reads (statement (expression (depth + 1))) Token.endsSum used value
  | .arguments values => ∀ rest,
      arguments (expression (depth + 1)) (used ++ .closing :: rest) = some (values, rest) ∧
      ∀ limit, used.length < limit →
        argumentsRest (expression (depth + 1)) limit (.comma :: (used ++ .closing :: rest)) =
          some (values, rest)

section Layers

variable {depth : Nat} {used : List Token} {value : Expr}

/-- A unary is read as a factor. -/
theorem reads_factor (completes : Completes (.unary value) used depth) :
    Reads (factor (atom (expression depth))) Token.endsUnary used value := by
  intro rest follows
  -- A factor may take as many steps as there are tokens, and one more.
  exact completes _ (by simp only [List.length_append]; omega) rest follows

/-- A product is read whole where no multiplicative operator follows. -/
theorem reads_product (completes : Completes (.product value) used depth) :
    Reads (chain multiplicative? (factor (atom (expression depth)))) Token.endsProduct used
      value := by
  -- What ends a product is none of its operators.
  refine Continues.reads completes fun {token} ends => ⟨Token.endsUnary_of_endsProduct ends, ?_⟩
  cases token <;> simp_all [Token.endsProduct, Token.endsSum, multiplicative?]

/-- A sum is read whole where no operator follows. -/
theorem reads_sum (completes : Completes (.sum value) used depth) :
    Reads (expression (depth + 1)) Token.endsSum used value := by
  -- What ends a sum is none of its operators.
  refine Continues.reads completes fun {token} ends => ⟨Token.endsProduct_of_endsSum ends, ?_⟩
  cases token <;> simp_all [Token.endsSum, additive?]

/-- No atom starts with a sign. -/
theorem not_minus {tokens : List Token} {result : Expr × List Token}
    (read : atom (expression depth) tokens = some result) :
    ∀ rest, tokens = .minus :: rest → False := by
  -- No atom starts with a sign.
  rintro rest rfl
  exact absurd read (by simp [atom])

/-- A base before a caret is raised to the unary behind it. -/
theorem signedPower_raised {tokens rest following : List Token} {base exponent : Expr}
    {limit : Nat} (read : atom (expression depth) tokens = some (base, .caret :: rest))
    (exponentRead : signedPower (atom (expression depth)) limit rest =
      some (exponent, following)) :
    signedPower (atom (expression depth)) (limit + 1) tokens =
      some (.op "^" [base, exponent], following) := by
  -- The atom is no sign, so it is read as the base.
  rw [signedPower]
  · simp [read, exponentRead, Operator.symbol]
  · exact not_minus read

/-- An atom that no caret follows is a unary. -/
theorem signedPower_atom {tokens rest : List Token} {base : Expr} (limit : Nat)
    (read : atom (expression depth) tokens = some (base, rest))
    (follows : Follows Token.endsUnary rest) :
    signedPower (atom (expression depth)) (limit + 1) tokens = some (base, rest) := by
  rw [signedPower]
  · split
    · -- A caret goes on with the power, so it cannot be what ends a unary.
      rename_i found
      rw [read, Option.some.injEq, Prod.mk.injEq] at found
      rw [found.2, follows_cons] at follows
      exact absurd follows (by simp [Token.endsUnary, Token.endsProduct, Token.endsSum])
    · exact read
  · exact not_minus read

/-- A name before an assignment sign is an expression of its own. -/
theorem expression_name_assign (target : String) (rest : List Token) :
    expression (depth + 1) (.name target :: .assign :: rest) =
      some (.var target, .assign :: rest) := by
  -- A name before the sign of an assignment is an expression by itself.
  simp [expression, sum, chain, factor, signedPower, atom, chainRest, multiplicative?, additive?]

/-- A sum is a statement unless a name and an assignment sign stand at its front. -/
theorem reads_statement (completes : Completes (.sum value) used depth) :
    Reads (statement (expression (depth + 1))) Token.endsSum used value := by
  intro rest follows
  have read := reads_sum completes rest follows
  unfold statement
  split
  · -- Then the expression would be the name, and the assignment sign would follow the sum.
    rename_i target following same
    rw [same, expression_name_assign, Option.some.injEq, Prod.mk.injEq] at read
    rw [← read.2, follows_cons] at follows
    exact absurd follows (by simp [Token.endsSum])
  · exact read

/-- Arguments are their first statement and those after it. -/
theorem arguments_read {parser : Parser Expr} {tokens following rest : List Token}
    {values : List Expr} (derives : Derives (.statement value) used)
    (read : statement parser (used ++ tokens) = some (value, following))
    (moreRead : argumentsRest parser following.length following = some (values, rest)) :
    arguments parser (used ++ tokens) = some (value :: values, rest) := by
  -- No statement starts with a closing parenthesis.
  obtain ⟨first, used, rfl, opens⟩ := derives.head
  rw [arguments, read]
  · simp [moreRead]
  · rintro _ closed
    simp only [List.cons_append, List.cons.injEq] at closed
    rw [closed.1] at opens
    exact absurd opens (by simp [Form.opensWith, Token.opensAtom])

end Layers

/-- The parser reads every phrase of the grammar whole. -/
theorem completes {form : Form} {used : List Token} (derives : Derives form used) :
    ∀ depth, used.length ≤ depth → Completes form used depth := by
  -- One case for each production; what stands in parentheses needs one level less.
  induction derives with
  | assignment _ ih =>
    intro depth enough rest follows
    simp only [List.length_cons] at enough
    simp [statement, reads_sum (ih depth (by omega)) rest follows]
  | expression _ ih => exact fun depth enough => reads_statement (ih depth enough)
  | add _ _ left right =>
    intro depth enough
    simp only [List.length_append, List.length_cons] at enough
    exact .join .plus .add rfl rfl (left depth (by omega)) (reads_product (right depth (by omega)))
  | subtract _ _ left right =>
    intro depth enough
    simp only [List.length_append, List.length_cons] at enough
    exact .join .minus .subtract rfl rfl (left depth (by omega))
      (reads_product (right depth (by omega)))
  | multiply _ _ left right =>
    intro depth enough
    simp only [List.length_append, List.length_cons] at enough
    exact .join .times .multiply rfl rfl (left depth (by omega))
      (reads_factor (right depth (by omega)))
  | divide _ _ left right =>
    intro depth enough
    simp only [List.length_append, List.length_cons] at enough
    exact .join .slash .divide rfl rfl (left depth (by omega))
      (reads_factor (right depth (by omega)))
  | product _ ih => exact fun depth enough => (reads_product (ih depth enough)).continues
  | unary _ ih => exact fun depth enough => (reads_factor (ih depth enough)).continues
  | negation _ ih =>
    intro depth enough limit within rest follows
    simp only [List.length_cons] at enough within
    obtain ⟨limit, rfl⟩ : ∃ fewer, limit = fewer + 1 := ⟨limit - 1, by omega⟩
    simp [signedPower, ih depth (by omega) limit (by omega) rest follows]
  | power _ ih => exact ih
  | raised _ _ base exponent =>
    intro depth enough limit within rest follows
    simp only [List.length_append, List.length_cons] at enough within
    obtain ⟨limit, rfl⟩ : ∃ fewer, limit = fewer + 1 := ⟨limit - 1, by omega⟩
    rw [List.append_assoc, List.cons_append]
    exact signedPower_raised (base depth (by omega) _ (follows_cons.2 rfl))
      (exponent depth (by omega) limit (by omega) rest follows)
  | atom _ ih =>
    intro depth enough limit within rest follows
    obtain ⟨limit, rfl⟩ : ∃ fewer, limit = fewer + 1 := ⟨limit - 1, by omega⟩
    exact signedPower_atom limit
      (ih depth enough rest (follows.mono Token.endsAtom_of_endsUnary)) follows
  | number =>
    intro depth _ rest _
    rfl
  | variableName =>
    intro depth _ rest follows
    -- A parenthesis would make it a call, but none follows an atom.
    cases rest with
    | nil => rfl
    | cons token rest =>
      rw [follows_cons] at follows
      cases token <;>
        simp_all [atom, Token.endsAtom, Token.endsUnary, Token.endsProduct, Token.endsSum]
  | parentheses _ ih =>
    intro depth enough rest _
    simp only [List.length_cons, List.length_append] at enough
    obtain ⟨depth, rfl⟩ : ∃ fewer, depth = fewer + 1 := ⟨depth - 1, by omega⟩
    have read := reads_sum (ih depth (by omega)) (.closing :: rest) (follows_cons.2 rfl)
    simp [atom, read]
  | emptyCall =>
    intro depth _ rest _
    rfl
  | call _ ih =>
    intro depth enough rest _
    simp only [List.length_cons, List.length_append] at enough
    obtain ⟨depth, rfl⟩ : ∃ fewer, depth = fewer + 1 := ⟨depth - 1, by omega⟩
    simp [atom, (ih depth (by omega) rest).1]
  | lastArgument derived ih =>
    intro depth enough rest
    have read := ih depth enough (.closing :: rest) (follows_cons.2 rfl)
    refine ⟨arguments_read derived read (by simp [argumentsRest]), ?_⟩
    intro limit within
    obtain ⟨limit, rfl⟩ : ∃ fewer, limit = fewer + 1 := ⟨limit - 1, by omega⟩
    simp [argumentsRest, read]
  | @moreArguments _ _ _ after derived _ first more =>
    intro depth enough rest
    simp only [List.length_append, List.length_cons] at enough
    have read := first depth (by omega) (.comma :: (after ++ .closing :: rest)) (follows_cons.2 rfl)
    have moreRead := (more depth (by omega) rest).2
    rw [List.append_assoc, List.cons_append]
    have within : after.length < (Token.comma :: (after ++ .closing :: rest)).length := by
      simp only [List.length_append, List.length_cons]
      omega
    refine ⟨arguments_read derived read (moreRead _ within), ?_⟩
    intro limit within
    simp only [List.length_append, List.length_cons] at within
    obtain ⟨limit, rfl⟩ : ∃ fewer, limit = fewer + 1 := ⟨limit - 1, by omega⟩
    simp [argumentsRest, read, moreRead limit (by omega)]

end Parser

/-- The parser gives an expression exactly when the tokens are a statement that spells it. -/
theorem parse?_eq_some_iff (tokens : List Token) (value : Expr) :
    parse? tokens = some value ↔ Derives (.statement value) tokens := by
  unfold parse?
  constructor
  · -- What was read is a statement, and nothing is left behind it.
    intro read
    split at read
    · rename_i statementRead
      rw [Option.some.injEq] at read
      subst read
      obtain ⟨used, rfl, derives⟩ :=
        Parser.statement_sound (Parser.expression_sound _) statementRead
      rwa [List.append_nil]
    · exact absurd read (by simp)
  · -- A statement is read whole, with as much nesting as it has tokens.
    intro derives
    have read := Parser.completes derives tokens.length (Nat.le_refl _) [] (by simp [Follows])
    rw [List.append_nil] at read
    rw [read]

end Calculator.Grammar
