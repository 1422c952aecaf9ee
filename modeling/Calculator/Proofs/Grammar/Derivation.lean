import Calculator.Expr.Basic
import Calculator.Grammar.Token
import Mathlib.Data.List.Chain

/-! The layered grammar over tokens: which phrases there are and which expressions they spell. -/

namespace Calculator.Grammar

/-- A layer of the grammar, with the value that a phrase of it spells. -/
inductive Form where
  | statement (value : Expr)
  | sum (value : Expr)
  | product (value : Expr)
  | unary (value : Expr)
  | power (value : Expr)
  | atom (value : Expr)
  | arguments (values : List Expr)

/--
The tokens are a phrase of a form.

Each constructor is one production. Sums and products take their left operand from their own
layer, so they group to the left, and a power takes its exponent from the layer of signs.
-/
inductive Derives : Form → List Token → Prop
  -- A statement is an assignment or a sum.
  | assignment {target : String} {value : Expr} {tokens : List Token} :
      Derives (.sum value) tokens →
      Derives (.statement (.assign target value)) (.name target :: .assign :: tokens)
  | expression {value : Expr} {tokens : List Token} :
      Derives (.sum value) tokens → Derives (.statement value) tokens
  -- A sum is a sum with a product added or subtracted, or a product.
  | add {left right : Expr} {before after : List Token} :
      Derives (.sum left) before → Derives (.product right) after →
      Derives (.sum (.op "+" [left, right])) (before ++ .plus :: after)
  | subtract {left right : Expr} {before after : List Token} :
      Derives (.sum left) before → Derives (.product right) after →
      Derives (.sum (.op "-" [left, right])) (before ++ .minus :: after)
  | product {value : Expr} {tokens : List Token} :
      Derives (.product value) tokens → Derives (.sum value) tokens
  -- A product is a product multiplied or divided by a unary, or a unary.
  | multiply {left right : Expr} {before after : List Token} :
      Derives (.product left) before → Derives (.unary right) after →
      Derives (.product (.op "*" [left, right])) (before ++ .times :: after)
  | divide {left right : Expr} {before after : List Token} :
      Derives (.product left) before → Derives (.unary right) after →
      Derives (.product (.op "/" [left, right])) (before ++ .slash :: after)
  | unary {value : Expr} {tokens : List Token} :
      Derives (.unary value) tokens → Derives (.product value) tokens
  -- A unary is a minus sign before a unary, or a power.
  | negation {operand : Expr} {tokens : List Token} :
      Derives (.unary operand) tokens → Derives (.unary (.negate operand)) (.minus :: tokens)
  | power {value : Expr} {tokens : List Token} :
      Derives (.power value) tokens → Derives (.unary value) tokens
  -- A power is an atom, alone or raised to a unary.
  | raised {base exponent : Expr} {before after : List Token} :
      Derives (.atom base) before → Derives (.unary exponent) after →
      Derives (.power (.op "^" [base, exponent])) (before ++ .caret :: after)
  | atom {value : Expr} {tokens : List Token} :
      Derives (.atom value) tokens → Derives (.power value) tokens
  -- An atom is a number, a name, a sum in parentheses or a call.
  | number {value : Float} : Derives (.atom (.num value)) [.number value]
  | variableName {name : String} : Derives (.atom (.var name)) [.name name]
  | parentheses {value : Expr} {tokens : List Token} :
      Derives (.sum value) tokens → Derives (.atom value) (.opening :: (tokens ++ [.closing]))
  | emptyCall {name : String} : Derives (.atom (.op name [])) [.name name, .opening, .closing]
  | call {name : String} {operands : List Expr} {tokens : List Token} :
      Derives (.arguments operands) tokens →
      Derives (.atom (.op name operands)) (.name name :: .opening :: (tokens ++ [.closing]))
  -- Arguments are statements with commas between them.
  | lastArgument {value : Expr} {tokens : List Token} :
      Derives (.statement value) tokens → Derives (.arguments [value]) tokens
  | moreArguments {value : Expr} {values : List Expr} {before after : List Token} :
      Derives (.statement value) before → Derives (.arguments values) after →
      Derives (.arguments (value :: values)) (before ++ .comma :: after)

namespace Token

/-- The token can be the first of an atom. -/
def opensAtom : Token → Bool
  | .number _ | .name _ | .opening => true
  | _ => false

/-- The token is spelled with letters or digits, so that two of them in a row would run together. -/
def isWord : Token → Bool
  | .number _ | .name _ => true
  | _ => false

/-- The token is a character that starts no token. -/
def isStray : Token → Bool
  | .stray _ => true
  | _ => false

/-- At most one of two neighbours is a word. -/
def Apart (left right : Token) : Prop := left.isWord = false ∨ right.isWord = false

end Token

namespace Form

/-- The token can be the first of a phrase: only atoms and powers never start with a sign. -/
def opensWith : Form → Token → Bool
  | .atom _, token | .power _, token => token.opensAtom
  | _, token => token.opensAtom || token == .minus

end Form

namespace Derives

/-- A phrase starts with a token that its form allows there. -/
theorem head {form : Form} {tokens : List Token} (derives : Derives form tokens) :
    ∃ first rest, tokens = first :: rest ∧ form.opensWith first = true := by
  -- A phrase starts as its leftmost part does, which never lies in a wider layer.
  induction derives with
  | assignment | negation => exact ⟨_, _, rfl, by simp [Form.opensWith, Token.opensAtom]⟩
  | expression _ ih | product _ ih | unary _ ih | lastArgument _ ih => exact ih
  | add _ _ ih _ | subtract _ _ ih _ | multiply _ _ ih _ | divide _ _ ih _
  | moreArguments _ _ ih _ =>
    obtain ⟨first, rest, rfl, opens⟩ := ih
    exact ⟨first, _, rfl, opens⟩
  | power _ ih =>
    obtain ⟨first, rest, rfl, opens⟩ := ih
    simp only [Form.opensWith] at opens
    exact ⟨first, rest, rfl, by simp [Form.opensWith, opens]⟩
  | raised _ _ ih _ =>
    obtain ⟨first, rest, rfl, opens⟩ := ih
    exact ⟨first, _, rfl, opens⟩
  | atom _ ih => exact ih
  | number | variableName | parentheses | emptyCall | call =>
    exact ⟨_, _, rfl, by simp [Form.opensWith, Token.opensAtom]⟩

/-- No production joins two parts without a token between them that is not a word. -/
theorem isChain_append {before after : List Token} {joint : Token}
    (left : before.IsChain Token.Apart) (right : after.IsChain Token.Apart)
    (mark : joint.isWord = false) : (before ++ joint :: after).IsChain Token.Apart := by
  -- The joint is apart from whatever stands on either side of it.
  refine List.IsChain.append left (right.cons fun next _ => .inl mark) ?_
  intro last _ first isFirst
  simp only [List.head?_cons, Option.mem_def, Option.some.injEq] at isFirst
  exact .inr (isFirst ▸ mark)

/-- Two words never stand side by side in a phrase. -/
theorem isChain_apart {form : Form} {tokens : List Token} (derives : Derives form tokens) :
    tokens.IsChain Token.Apart := by
  -- The parts of a phrase are apart inside, and every production puts a mark between them.
  induction derives with
  | expression _ ih | product _ ih | unary _ ih | power _ ih | atom _ ih | lastArgument _ ih =>
    exact ih
  | assignment _ ih => exact isChain_append (.singleton _) ih rfl
  | negation _ ih => exact isChain_append .nil ih rfl
  | add _ _ left right | subtract _ _ left right | multiply _ _ left right
  | divide _ _ left right | raised _ _ left right | moreArguments _ _ left right =>
    exact isChain_append left right rfl
  | number | variableName => exact .singleton _
  | parentheses _ ih => exact isChain_append .nil (isChain_append ih .nil rfl) rfl
  | emptyCall => exact isChain_append (.singleton _) (.singleton _) rfl
  | call _ ih => exact isChain_append (.singleton _) (isChain_append ih .nil rfl) rfl

/-- A phrase holds no characters that start no token. -/
theorem not_isStray {form : Form} {tokens : List Token} (derives : Derives form tokens) :
    ∀ token ∈ tokens, token.isStray = false := by
  -- Every production adds only tokens that it names.
  induction derives <;> simp_all [Token.isStray, or_imp]

end Derives

end Calculator.Grammar
