import Calculator.Proofs.Grammar.Derivation
import Calculator.Proofs.Grammar.Literal

/-! How tokens are spelled, and that scanning finds the tokens that a text was spelled from. -/

namespace Calculator.Grammar

/-- The characters spell the token. -/
inductive Spells : List Char → Token → Prop
  | number {text : List Char} {numeral : Numeral} (literal : Numeral.Literal text numeral) :
      Spells text (.number numeral.toFloat)
  | name {first : Char} {rest : List Char} (starts : startsName first = true)
      (continues : ∀ char ∈ rest, continuesName char = true) :
      Spells (first :: rest) (.name (String.ofList (first :: rest)))
  | assign : Spells [':', '='] .assign
  | plus : Spells ['+'] .plus
  | minus : Spells ['-'] .minus
  | times : Spells ['*'] .times
  | slash : Spells ['/'] .slash
  | caret : Spells ['^'] .caret
  | opening : Spells ['('] .opening
  | closing : Spells [')'] .closing
  | comma : Spells [','] .comma

/-- The text spells the tokens in turn, with any blanks before, between and after them. -/
inductive Spelled : List Char → List Token → Prop
  | nil : Spelled [] []
  | blank {char : Char} {text : List Char} {tokens : List Token} :
      isBlank char = true → Spelled text tokens → Spelled (char :: text) tokens
  | token {chars text : List Char} {token : Token} {tokens : List Token} :
      Spells chars token → Spelled text tokens → Spelled (chars ++ text) (token :: tokens)

/-- Texts one after another spell their tokens one after another. -/
theorem Spelled.append {text more : List Char} {tokens further : List Token}
    (first : Spelled text tokens) (second : Spelled more further) :
    Spelled (text ++ more) (tokens ++ further) := by
  -- The second text stands behind the last piece of the first.
  induction first with
  | nil => exact second
  | blank isBlank _ ih => exact .blank isBlank ih
  | token spells _ ih =>
    rw [List.append_assoc]
    exact .token spells ih

/-- A single token is spelled by its own characters. -/
theorem Spells.spelled {chars : List Char} {token : Token} (spells : Spells chars token) :
    Spelled chars [token] := by
  -- One token with nothing behind it is spelled by its own characters.
  simpa using Spelled.token spells .nil

/-- Digits by their code points. -/
theorem isDigit_iff (char : Char) : char.isDigit = true ↔ 48 ≤ char.toNat ∧ char.toNat ≤ 57 := by
  -- The digits have consecutive codes.
  simp [Char.isDigit, UInt32.le_iff_toNat_le]

/-- What starts a name, by its code point. -/
theorem startsName_iff (char : Char) :
    startsName char = true ↔ (65 ≤ char.toNat ∧ char.toNat ≤ 90) ∨
      (97 ≤ char.toNat ∧ char.toNat ≤ 122) ∨ char.toNat = 95 := by
  -- The letters have consecutive codes in either case.
  unfold startsName Char.isAlpha Char.isUpper Char.isLower
  simp [UInt32.le_iff_toNat_le, ← Char.toNat_inj, or_assoc]

/-- What goes on with a word is what starts a name, a digit or a point. -/
theorem continuesWord_iff (char : Char) :
    continuesWord char = true ↔ startsName char = true ∨ char.isDigit = true ∨ char = '.' := by
  -- A word goes on with letters, digits, underscores and points.
  simp only [continuesWord, continuesName, startsName, Char.isAlphanum, Bool.or_eq_true, beq_iff_eq]
  tauto

/-- White space is part of no word. -/
theorem isSpace_of_continuesWord {char : Char} (word : continuesWord char = true) :
    isSpace char = false := by
  -- By code points: the letters, digits and marks of words lie outside every range of white space.
  rw [continuesWord_iff, startsName_iff, isDigit_iff, ← Char.toNat_inj,
    show '.'.toNat = 46 from rfl] at word
  simp only [isSpace, Bool.or_eq_false_iff, Bool.and_eq_false_iff, decide_eq_false_iff_not,
    beq_eq_false_iff_ne]
  omega

/-- What is no white space is no blank. -/
theorem isBlank_of_not_isSpace {char : Char} (solid : isSpace char = false) :
    isBlank char = false := by
  -- Every blank is white space.
  by_contra blank
  rw [isSpace_of_isBlank char (by simpa using blank)] at solid
  exact absurd solid (by decide)

namespace Numeral

/-- A literal starts with a digit or a point. -/
theorem Literal.head {text : List Char} {numeral : Numeral} (literal : Literal text numeral) :
    ∃ first rest, text = first :: rest ∧ (first.isDigit = true ∨ first = '.') := by
  -- A mantissa is never empty, so the exponent does not come first.
  cases literal with
  | mk isMantissa _ =>
    cases isMantissa with
    | whole isDigits | pointed isDigits =>
      obtain ⟨first, rest, rfl⟩ := List.exists_cons_of_ne_nil isDigits.1
      exact ⟨first, _, rfl, .inl (isDigits.2 first (by simp))⟩
    | fractional => exact ⟨'.', _, rfl, .inr rfl⟩

/-- A literal is as long as its text. -/
theorem Literal.length {text : List Char} {numeral : Numeral} (literal : Literal text numeral) :
    numeral.length = text.length := by
  -- The length is counted along the characters of the literal.
  cases literal
  rfl

/-- No character of a literal is white space. -/
theorem Literal.isSpace_of_mem {text : List Char} {numeral : Numeral}
    (literal : Literal text numeral) : ∀ char ∈ text, isSpace char = false := by
  have solid {digits : List Char} (all : ∀ char ∈ digits, char.isDigit = true) :
      ∀ char ∈ digits, isSpace char = false := fun char member =>
    isSpace_of_continuesWord ((continuesWord_iff char).2 (.inr (.inl (all char member))))
  have letterSolid {letter : Char} (isLetter : IsExponentLetter letter) :
      isSpace letter = false := by
    rcases isLetter with rfl | rfl <;> decide
  -- Besides digits there are a point, the letter of the exponent and its sign.
  cases literal with
  | mk isMantissa isExponent =>
    refine List.forall_mem_append.2 ⟨?_, ?_⟩
    · cases isMantissa with
      | whole isDigits => exact solid isDigits.2
      | pointed isDigits fractional =>
        exact List.forall_mem_append.2
          ⟨solid isDigits.2, List.forall_mem_cons.2 ⟨by decide, solid fractional⟩⟩
      | fractional isDigits => exact List.forall_mem_cons.2 ⟨by decide, solid isDigits.2⟩
    · cases isExponent with
      | absent => exact List.forall_mem_nil _
      | unsigned isLetter isDigits =>
        exact List.forall_mem_cons.2 ⟨letterSolid isLetter, solid isDigits.2⟩
      | plus isLetter isDigits | minus isLetter isDigits =>
        exact List.forall_mem_cons.2
          ⟨letterSolid isLetter, List.forall_mem_cons.2 ⟨by decide, solid isDigits.2⟩⟩

end Numeral

namespace Spells

/-- No character of a token is white space. -/
theorem isSpace_of_mem {chars : List Char} {token : Token} (spells : Spells chars token) :
    ∀ char ∈ chars, isSpace char = false := by
  -- Numbers and names are made of words; a mark is a fixed text.
  cases spells with
  | number literal => exact literal.isSpace_of_mem
  | name starts continues =>
    intro char member
    rcases List.mem_cons.1 member with rfl | member
    · exact isSpace_of_continuesWord ((continuesWord_iff _).2 (.inl starts))
    · exact isSpace_of_continuesWord (by simp [continuesWord, continues char member])
  | _ => simp; decide

/-- A token has a first character, and only the first character of a word goes on with words. -/
theorem head {chars : List Char} {token : Token} (spells : Spells chars token) :
    ∃ first rest, chars = first :: rest ∧
      (token.isWord = false → continuesWord first = false) := by
  -- Nothing is asked of words, and the marks are looked at one by one.
  cases spells with
  | number literal =>
    obtain ⟨first, rest, rfl, _⟩ := literal.head
    exact ⟨first, rest, rfl, fun mark => absurd mark (by simp [Token.isWord])⟩
  | name => exact ⟨_, _, rfl, fun mark => absurd mark (by simp [Token.isWord])⟩
  | _ => exact ⟨_, _, rfl, fun _ => by decide⟩

/-- The token at the front of a text is the one that is spelled there. -/
theorem leading_append {first : Char} {more rest : List Char} {token : Token}
    (spells : Spells (first :: more) token) (ends : token.isWord = true → EndsWord rest) :
    Token.leading first (more ++ rest) = (token, more.length) := by
  -- Names are tried before numbers, and both take as much as they can; marks come last.
  cases spells with
  | @number _ numeral literal =>
    obtain ⟨_, _, same, shape⟩ := literal.head
    obtain ⟨rfl, rfl⟩ := List.cons.inj same
    -- Neither a digit nor a point starts a name.
    have noName : startsName first = false := by
      rw [← Bool.not_eq_true, startsName_iff]
      rcases shape with digit | rfl
      · rw [isDigit_iff] at digit
        omega
      · decide
    have read := literal.read?_append (ends rfl)
    rw [List.cons_append] at read
    have length : numeral.length = more.length + 1 := literal.length
    simp [Token.leading, noName, read, length]
  | name starts continues =>
    have word := ends rfl
    have taken : (more ++ rest).takeWhile continuesName = more := by
      rw [List.takeWhile_append_of_pos continues]
      cases rest with
      | nil => simp
      | cons char rest =>
        have noName := word char (by simp)
        simp only [continuesWord, Bool.or_eq_false_iff] at noName
        simp [noName.1]
    simp [Token.leading, starts, taken]
  | assign => rfl
  | _ => simp [Token.leading, startsName, Numeral.read?, Numeral.mantissa?, Numeral.leadingDigits]

end Spells

/-- The tokens of a text. -/
def tokensOf (text : List Char) : List Token := (scan text).map (·.token)

/-- Scanning skips what is covered, and where it starts to count does not matter. -/
theorem map_token_scanFrom (text : List Char) (offset covered : Nat) :
    (scanFrom offset covered text).map (·.token) = tokensOf (text.drop covered) := by
  -- Covered characters are dropped one by one; the others are looked at alike.
  have general : ∀ (text : List Char) (offset start covered : Nat),
      (scanFrom offset covered text).map (·.token) =
        (scanFrom start 0 (text.drop covered)).map (·.token) := by
    intro text
    induction text with
    | nil => simp [scanFrom]
    | cons char text ih =>
      intro offset start covered
      cases covered with
      | succ covered => simpa [scanFrom] using ih (offset + 1) start covered
      | zero =>
        simp only [scanFrom, List.drop_zero]
        split
        · rw [ih (offset + 1) (start + 1) 0, List.drop_zero]
        · simp only [List.map_cons]
          rw [ih (offset + 1) 0, ih (start + 1) 0]
  exact general text offset 0 covered

/-- Blanks are no tokens. -/
theorem tokensOf_blank {char : Char} (blank : isBlank char = true) (text : List Char) :
    tokensOf (char :: text) = tokensOf text := by
  -- Scanning goes on behind the blank, where only the offsets differ.
  have rest := map_token_scanFrom text 1 0
  rw [List.drop_zero] at rest
  simpa [tokensOf, scan, scanFrom, blank] using rest

/-- Anything else starts a token, and the next one is looked for behind it. -/
theorem tokensOf_solid {char : Char} (solid : isBlank char = false) (text : List Char) :
    tokensOf (char :: text) =
      (Token.leading char text).1 :: tokensOf (text.drop (Token.leading char text).2) := by
  -- The characters that the token covers are skipped.
  have rest := map_token_scanFrom text 1 (Token.leading char text).2
  simpa [tokensOf, scan, scanFrom, solid] using rest

/-- White space before the first token may be dropped. -/
theorem Spelled.dropWhile_isSpace {text : List Char} {tokens : List Token}
    (spelled : Spelled text tokens) : Spelled (text.dropWhile isSpace) tokens := by
  -- Blanks are dropped one by one up to the first token, which stops the dropping.
  induction spelled with
  | nil => exact .nil
  | blank isBlank _ ih => rwa [List.dropWhile_cons_of_pos (isSpace_of_isBlank _ isBlank)]
  | token spells rest ih =>
    have solid := spells.isSpace_of_mem
    obtain ⟨first, more, rfl, _⟩ := spells.head
    rw [List.cons_append, List.dropWhile_cons_of_neg (by simp [solid first]), ← List.cons_append]
    exact .token spells rest

/-- White space at the end of a text belongs to no token. -/
theorem Spelled.of_append_space {text : List Char} {tokens : List Token} {char : Char}
    (spelled : Spelled (text ++ [char]) tokens) (space : isSpace char = true) :
    Spelled text tokens := by
  -- The last character is found behind each piece that the text starts with.
  generalize whole : text ++ [char] = extended at spelled
  induction spelled generalizing text with
  | nil => exact absurd whole (by simp)
  | blank isBlank rest ih =>
    cases text with
    | nil =>
      obtain ⟨rfl, rfl⟩ := List.cons.inj whole
      exact rest
    | cons first text =>
      obtain ⟨rfl, same⟩ := List.cons.inj whole
      exact .blank isBlank (ih same)
  | @token chars following token tokens spells rest ih =>
    rcases List.eq_nil_or_concat following with rfl | ⟨before, last, rfl⟩
    · -- A token does not end in white space.
      rw [List.append_nil] at whole
      have solid := spells.isSpace_of_mem char (by simp [← whole])
      exact absurd space (by simp [solid])
    · rw [List.concat_eq_append] at ih whole
      rw [← List.append_assoc, List.append_singleton_inj] at whole
      obtain ⟨rfl, rfl⟩ := whole
      exact .token spells (ih rfl)

/-- White space around a text does not matter to what it spells. -/
theorem Spelled.trim {text : List Char} {tokens : List Token} (spelled : Spelled text tokens) :
    Spelled (trim text) tokens := by
  -- The end is dropped from the reversed text, character by character.
  have general : ∀ reversed : List Char, Spelled reversed.reverse tokens →
      Spelled (reversed.dropWhile isSpace).reverse tokens := by
    intro reversed
    induction reversed with
    | nil => exact id
    | cons last reversed ih =>
      intro whole
      by_cases space : isSpace last = true
      · rw [List.dropWhile_cons_of_pos space]
        rw [List.reverse_cons] at whole
        exact ih (whole.of_append_space space)
      · rwa [List.dropWhile_cons_of_neg space]
  exact general _ (by simpa using spelled.dropWhile_isSpace)

/-- Where no word is spelled next, nothing goes on with the word before. -/
theorem Spelled.endsWord {text : List Char} {tokens : List Token} (spelled : Spelled text tokens)
    (apart : ∀ token ∈ tokens.head?, token.isWord = false) : EndsWord text := by
  -- The text starts with a blank or with the mark that is spelled next.
  cases spelled with
  | nil => simp [EndsWord]
  | blank isBlank _ =>
    simp only [EndsWord, List.head?_cons, Option.mem_def, Option.some.injEq, forall_eq']
    by_contra word
    have solid := isBlank_of_not_isSpace (isSpace_of_continuesWord (by simpa using word))
    rw [isBlank] at solid
    exact absurd solid (by decide)
  | token spells _ =>
    obtain ⟨first, rest, rfl, mark⟩ := spells.head
    simp [EndsWord, mark (apart _ (by simp))]

/-- Scanning finds the tokens that a text was spelled from, if no two words touch. -/
theorem Spelled.tokensOf_eq {text : List Char} {tokens : List Token}
    (spelled : Spelled text tokens) (apart : tokens.IsChain Token.Apart) :
    tokensOf text = tokens := by
  -- Each piece of the text is scanned as what it was spelled from.
  induction spelled with
  | nil => rfl
  | blank isBlank _ ih => rw [tokensOf_blank isBlank, ih apart]
  | @token chars text token tokens spells spelled ih =>
    have solid := spells.isSpace_of_mem
    obtain ⟨first, more, rfl, _⟩ := spells.head
    -- A word ends here because its neighbour is none.
    have ends : token.isWord = true → EndsWord text := by
      intro word
      refine spelled.endsWord fun next isNext => ?_
      cases tokens with
      | nil => exact absurd isNext (by simp)
      | cons following tokens =>
        simp only [List.head?_cons, Option.mem_def, Option.some.injEq] at isNext
        rcases (List.isChain_cons_cons.1 apart).1 with mark | mark
        · exact absurd mark (by simp [word])
        · rwa [← isNext]
    rw [List.cons_append, tokensOf_solid (isBlank_of_not_isSpace (solid first (by simp))),
      spells.leading_append ends, List.drop_left, ih apart.tail]

/-- The token at the front of a text is spelled there, unless nothing starts there. -/
theorem exists_spells_leading (first : Char) (text : List Char)
    (regular : (Token.leading first text).1.isStray = false) :
    ∃ more rest, text = more ++ rest ∧ (Token.leading first text).2 = more.length ∧
      Spells (first :: more) (Token.leading first text).1 := by
  unfold Token.leading at regular ⊢
  -- A name and a number take a front of the text each, a mark its own characters.
  split
  · rename_i starts
    obtain ⟨rest, split⟩ := List.takeWhile_prefix (l := text) continuesName
    exact ⟨_, rest, split.symm, rfl, .name starts fun _ member => List.mem_takeWhile_imp member⟩
  · split
    · rename_i numeral read
      obtain ⟨used, rest, same, length, literal⟩ := Numeral.exists_literal read
      obtain ⟨_, more, rfl, _⟩ := literal.head
      obtain ⟨rfl, rfl⟩ := List.cons.inj same
      exact ⟨more, rest, rfl, by simp [length], .number literal⟩
    · -- Marks are told by their characters, and other characters are stray.
      rename_i noNumber
      rw [noNumber] at regular
      split
      · exact ⟨['='], _, rfl, rfl, .assign⟩
      · exact ⟨[], _, rfl, rfl, .plus⟩
      · exact ⟨[], _, rfl, rfl, .minus⟩
      · exact ⟨[], _, rfl, rfl, .times⟩
      · exact ⟨[], _, rfl, rfl, .slash⟩
      · exact ⟨[], _, rfl, rfl, .caret⟩
      · exact ⟨[], _, rfl, rfl, .opening⟩
      · exact ⟨[], _, rfl, rfl, .closing⟩
      · exact ⟨[], _, rfl, rfl, .comma⟩
      · simp_all [Token.isStray]

/-- A text in which every character belongs to a token is spelled from the tokens found in it. -/
theorem spelled_tokensOf (text : List Char)
    (regular : ∀ token ∈ tokensOf text, token.isStray = false) : Spelled text (tokensOf text) := by
  -- Each step takes a blank or a token off the front, so what is left is shorter.
  induction length : text.length using Nat.strong_induction_on generalizing text with
  | _ size ih =>
    subst length
    cases text with
    | nil => exact .nil
    | cons char text =>
      by_cases blank : isBlank char = true
      · rw [tokensOf_blank blank] at regular ⊢
        exact .blank blank (ih _ (by simp) text regular rfl)
      · have solid : isBlank char = false := by simpa using blank
        rw [tokensOf_solid solid] at regular ⊢
        obtain ⟨more, rest, rfl, further, spells⟩ :=
          exists_spells_leading char text (regular _ (by simp))
        rw [further, List.drop_left] at regular ⊢
        rw [← List.cons_append]
        have shorter : rest.length < (char :: (more ++ rest)).length := by
          rw [List.length_cons, List.length_append]
          omega
        exact .token spells (ih _ shorter rest
          (fun token member => regular token (List.mem_cons_of_mem _ member)) rfl)

end Calculator.Grammar
