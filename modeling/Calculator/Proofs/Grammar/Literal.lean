import Calculator.Grammar.Token
import Mathlib.Data.List.TakeWhile

/-! Number literals: which texts they are, and that reading takes the longest one. -/

namespace Calculator.Grammar

/-- A character that can go on with a number or a name. -/
def continuesWord (char : Char) : Bool := continuesName char || char == '.'

/-- Nothing follows, or a character that cannot go on with the word before it. -/
def EndsWord (rest : List Char) : Prop := ∀ char ∈ rest.head?, continuesWord char = false

namespace Numeral

/-- One digit or more. -/
def IsDigits (text : List Char) : Prop := text ≠ [] ∧ ∀ char ∈ text, char.isDigit = true

/-- The significand of a literal, with all its digits as one number and the power of ten that
scales it. -/
inductive Mantissa : List Char → Nat → Int → Prop
  | whole {digits : List Char} (isDigits : IsDigits digits) :
      Mantissa digits (digitsValue digits) 0
  | pointed {whole fraction : List Char} (isDigits : IsDigits whole)
      (fractional : ∀ char ∈ fraction, char.isDigit = true) :
      Mantissa (whole ++ '.' :: fraction) (digitsValue (whole ++ fraction))
        (-(fraction.length : Int))
  | fractional {fraction : List Char} (isDigits : IsDigits fraction) :
      Mantissa ('.' :: fraction) (digitsValue fraction) (-(fraction.length : Int))

/-- The letter before an exponent. -/
def IsExponentLetter (letter : Char) : Prop := letter = 'e' ∨ letter = 'E'

/-- The exponent of a literal, which may be left out. -/
inductive Exponent : List Char → Int → Prop
  | absent : Exponent [] 0
  | unsigned {letter : Char} {digits : List Char} (isLetter : IsExponentLetter letter)
      (isDigits : IsDigits digits) : Exponent (letter :: digits) (digitsValue digits)
  | plus {letter : Char} {digits : List Char} (isLetter : IsExponentLetter letter)
      (isDigits : IsDigits digits) : Exponent (letter :: '+' :: digits) (digitsValue digits)
  | minus {letter : Char} {digits : List Char} (isLetter : IsExponentLetter letter)
      (isDigits : IsDigits digits) :
      Exponent (letter :: '-' :: digits) (-(digitsValue digits : Int))

/-- The text is a number literal. -/
inductive Literal : List Char → Numeral → Prop
  | mk {mantissa exponent : List Char} {significand : Nat} {scale shift : Int} :
      Mantissa mantissa significand scale → Exponent exponent shift →
      Literal (mantissa ++ exponent) ⟨significand, scale + shift, (mantissa ++ exponent).length⟩

/-- Behind the digits at its front a text goes on with something else. -/
theorem leadingDigits_append {digits rest : List Char} (all : ∀ char ∈ digits, char.isDigit = true)
    (ends : ∀ char ∈ rest.head?, char.isDigit = false) :
    leadingDigits (digits ++ rest) = digits := by
  unfold leadingDigits
  -- All the digits are taken, and what comes first behind them stops the taking.
  rw [List.takeWhile_append_of_pos all]
  cases rest with
  | nil => simp
  | cons char rest => simp [ends char (by simp)]

/-- A text is the digits at its front and what is left without them. -/
theorem leadingDigits_append_drop (text : List Char) :
    leadingDigits text ++ text.drop (leadingDigits text).length = text :=
  List.prefix_iff_eq_append.1 (List.takeWhile_prefix _)

/-- Only digits are at the front. -/
theorem isDigit_of_mem_leadingDigits {text : List Char} {char : Char}
    (member : char ∈ leadingDigits text) : char.isDigit = true :=
  List.mem_takeWhile_imp member

/-- Digits that are there are digits. -/
theorem isDigits_leadingDigits {text : List Char} (present : (leadingDigits text).isEmpty = false) :
    IsDigits (leadingDigits text) :=
  ⟨by simpa using present, fun _ member => isDigit_of_mem_leadingDigits member⟩

/-- What cannot go on with a word is no digit, no point and no exponent. -/
theorem not_word {char : Char} (ends : continuesWord char = false) :
    char.isDigit = false ∧ char ≠ '.' ∧ char ≠ 'e' ∧ char ≠ 'E' := by
  -- Digits and letters all go on with a word, the exponent letters among them.
  simp only [continuesWord, continuesName, Char.isAlphanum, Bool.or_eq_false_iff,
    beq_eq_false_iff_ne] at ends
  refine ⟨ends.1.1.2, ends.2, ?_, ?_⟩
  · rintro rfl
    exact absurd ends.1.1.1 (by decide)
  · rintro rfl
    exact absurd ends.1.1.1 (by decide)

/-- A mantissa is read whole where neither a digit nor a point follows. -/
theorem Mantissa.mantissa?_append {text rest : List Char} {significand : Nat} {scale : Int}
    (mantissa : Mantissa text significand scale)
    (ends : ∀ char ∈ rest.head?, char.isDigit = false ∧ char ≠ '.') :
    mantissa? (text ++ rest) = some ⟨significand, scale, text.length⟩ := by
  have noDigit : ∀ char ∈ rest.head?, char.isDigit = false := fun char first => (ends char first).1
  cases mantissa with
  | whole isDigits =>
    simp only [mantissa?, leadingDigits_append isDigits.2 noDigit, List.drop_left]
    -- No point follows, so the digits are all there is.
    split
    · exact absurd rfl (ends '.' (by simp)).2
    · simp [isDigits.1]
  | @pointed whole fraction isDigits fractional =>
    -- The point ends the first run of digits, and what follows ends the second.
    have point : ∀ char ∈ ('.' :: (fraction ++ rest)).head?, char.isDigit = false := by simp
    rw [List.append_assoc, List.cons_append]
    simp only [mantissa?, leadingDigits_append isDigits.2 point, List.drop_left,
      leadingDigits_append fractional noDigit]
    simp [isDigits.1]
    omega
  | @fractional fraction isDigits =>
    -- No digit stands before the point.
    have point : leadingDigits ('.' :: (fraction ++ rest)) = [] := rfl
    rw [List.cons_append]
    simp only [mantissa?, point, List.length_nil, List.drop_zero,
      leadingDigits_append isDigits.2 noDigit]
    simp [isDigits.1]
    omega

/-- An exponent is read whole where no digit follows. -/
theorem Exponent.exponent?_append {letter : Char} {text rest : List Char} {shift : Int}
    (exponent : Exponent (letter :: text) shift)
    (ends : ∀ char ∈ rest.head?, char.isDigit = false) :
    exponent? (letter :: (text ++ rest)) = some (shift, text.length + 1) := by
  cases exponent with
  | unsigned isLetter isDigits =>
    have read := leadingDigits_append isDigits.2 ends
    -- The first digit is no sign.
    obtain ⟨first, more, rfl⟩ := List.exists_cons_of_ne_nil isDigits.1
    have digit := isDigits.2 first (by simp)
    have noMinus : first ≠ '-' := by
      rintro rfl
      exact absurd digit (by decide)
    have noPlus : first ≠ '+' := by
      rintro rfl
      exact absurd digit (by decide)
    rw [List.cons_append] at read ⊢
    rcases isLetter with rfl | rfl <;> simp [exponent?, noMinus, noPlus, read] <;> omega
  | plus isLetter isDigits | minus isLetter isDigits =>
    have read := leadingDigits_append isDigits.2 ends
    rcases isLetter with rfl | rfl <;> simp [exponent?, read, isDigits.1] <;> omega

/-- A text without an exponent letter at its front has no exponent there. -/
theorem exponent?_eq_none {rest : List Char}
    (ends : ∀ char ∈ rest.head?, char ≠ 'e' ∧ char ≠ 'E') : exponent? rest = none := by
  -- An exponent starts with one of the two letters.
  cases rest with
  | nil => rfl
  | cons char rest =>
    obtain ⟨notSmall, notCapital⟩ := ends char (by simp)
    simp [exponent?, notSmall, notCapital]

/-- A literal is read whole where nothing follows that could go on with it. -/
theorem Literal.read?_append {text rest : List Char} {numeral : Numeral}
    (literal : Literal text numeral) (ends : EndsWord rest) :
    read? (text ++ rest) = some numeral := by
  have notWord := fun char first => not_word (ends char first)
  -- The mantissa is read first, then an exponent is looked for behind it.
  cases literal with
  | @mk mantissa exponent significand scale shift isMantissa isExponent =>
    -- Neither an exponent nor what follows the literal goes on with its digits.
    have mantissaEnds : ∀ char ∈ (exponent ++ rest).head?, char.isDigit = false ∧ char ≠ '.' := by
      cases isExponent with
      | absent => exact fun char first => ⟨(notWord char first).1, (notWord char first).2.1⟩
      | unsigned isLetter | plus isLetter | minus isLetter =>
        rcases isLetter with rfl | rfl <;> simp
    rw [List.append_assoc, read?, isMantissa.mantissa?_append mantissaEnds]
    simp only [Option.map_some, List.drop_left]
    cases exponent with
    | nil =>
      cases isExponent
      simp [exponent?_eq_none fun char first => (notWord char first).2.2]
    | cons letter text =>
      rw [List.cons_append, isExponent.exponent?_append fun char first => (notWord char first).1]
      simp

/-- A mantissa that was read stands at the front of the text. -/
theorem exists_mantissa {text : List Char} {mantissa : Numeral}
    (read : mantissa? text = some mantissa) :
    ∃ used rest, text = used ++ rest ∧ mantissa.length = used.length ∧
      Mantissa used mantissa.significand mantissa.exponent := by
  have split := leadingDigits_append_drop text
  simp only [mantissa?] at read
  -- A point behind the first digits decides which of the shapes was read.
  split at read
  · rename_i following point
    have fractionSplit := leadingDigits_append_drop following
    rw [point] at split
    split at read
    · exact absurd read (by simp)
    · rename_i present
      simp only [Bool.and_eq_true, not_and, Bool.not_eq_true, Option.some.injEq] at present read
      subst read
      refine ⟨leadingDigits text ++ '.' :: leadingDigits following,
        following.drop (leadingDigits following).length, ?_, ?_, ?_⟩
      · rw [List.append_assoc, List.cons_append, fractionSplit, split]
      · simp only [List.length_append, List.length_cons]
        omega
      · -- One of the two runs of digits may be empty, but not both.
        by_cases empty : (leadingDigits text).isEmpty = true
        · have fractional := Mantissa.fractional (isDigits_leadingDigits (present empty))
          rw [List.isEmpty_iff] at empty
          simpa [empty] using fractional
        · exact .pointed (isDigits_leadingDigits (by simpa using empty))
            fun char member => isDigit_of_mem_leadingDigits member
  · split at read
    · exact absurd read (by simp)
    · rename_i present
      simp only [Option.some.injEq] at read
      subst read
      exact ⟨leadingDigits text, _, split.symm, rfl,
        .whole (isDigits_leadingDigits (by simpa using present))⟩

/-- The digits of an exponent that was read are there, with what follows them. -/
theorem isDigits_of_read {text : List Char} {value shift : Int} {size length : Nat}
    (read : (if (leadingDigits text).isEmpty = true then none else some (value, size)) =
      some (shift, length)) :
    (∃ rest, leadingDigits text ++ rest = text) ∧ IsDigits (leadingDigits text) ∧
      value = shift ∧ size = length := by
  -- There is an exponent only if there are digits in it.
  split at read
  · exact absurd read (by simp)
  · next present =>
    simp only [Option.some.injEq, Prod.mk.injEq] at read
    have isDigits := isDigits_leadingDigits (by simpa using present)
    exact ⟨⟨_, leadingDigits_append_drop text⟩, isDigits, read⟩

/-- An exponent that was read stands at the front of the text. -/
theorem exists_exponent {text : List Char} {shift : Int} {length : Nat}
    (read : exponent? text = some (shift, length)) :
    ∃ used rest, text = used ++ rest ∧ length = used.length ∧ Exponent used shift := by
  cases text with
  | nil => exact absurd read (by simp [exponent?])
  | cons letter text =>
    by_cases isLetter : letter = 'e' ∨ letter = 'E'
    · have accepted : (letter == 'e' || letter == 'E') = true := by simpa using isLetter
      simp only [exponent?, accepted, if_true] at read
      -- The sign decides where the digits start and whether they count down.
      split at read
      · next digits =>
        obtain ⟨⟨rest, split⟩, isDigits, rfl, rfl⟩ := isDigits_of_read read
        refine ⟨letter :: '-' :: leadingDigits digits, rest, ?_, ?_, .minus isLetter isDigits⟩
        · rw [List.cons_append, List.cons_append]
          exact congrArg (letter :: '-' :: ·) split.symm
        · simp only [List.drop_one, List.tail_cons, List.length_cons]
          omega
      · next digits =>
        obtain ⟨⟨rest, split⟩, isDigits, rfl, rfl⟩ := isDigits_of_read read
        refine ⟨letter :: '+' :: leadingDigits digits, rest, ?_, ?_, .plus isLetter isDigits⟩
        · rw [List.cons_append, List.cons_append]
          exact congrArg (letter :: '+' :: ·) split.symm
        · simp only [List.drop_one, List.tail_cons, List.length_cons]
          omega
      · obtain ⟨⟨rest, split⟩, isDigits, rfl, rfl⟩ := isDigits_of_read read
        refine ⟨letter :: leadingDigits text, rest, ?_, ?_, .unsigned isLetter isDigits⟩
        · rw [List.cons_append]
          exact congrArg (letter :: ·) split.symm
        · simp only [List.drop_zero, List.length_cons]
          omega
    · have refused : (letter == 'e' || letter == 'E') = false := by simpa using isLetter
      simp [exponent?, refused] at read

/-- A literal that was read stands at the front of the text. -/
theorem exists_literal {text : List Char} {numeral : Numeral} (read : read? text = some numeral) :
    ∃ used rest, text = used ++ rest ∧ numeral.length = used.length ∧ Literal used numeral := by
  -- The mantissa is read first, and then the exponent if there is one behind it.
  simp only [read?, Option.map_eq_some_iff] at read
  obtain ⟨mantissa, mantissaRead, rfl⟩ := read
  obtain ⟨used, rest, rfl, length, isMantissa⟩ := exists_mantissa mantissaRead
  rw [length, List.drop_left]
  split
  · rename_i shift further exponentRead
    obtain ⟨exponent, following, rfl, rfl, isExponent⟩ := exists_exponent exponentRead
    refine ⟨used ++ exponent, following, by simp, by simp, ?_⟩
    have literal := Literal.mk isMantissa isExponent
    rwa [List.length_append] at literal
  · have literal := Literal.mk isMantissa .absent
    refine ⟨used, rest, rfl, length, ?_⟩
    rcases mantissa with ⟨significand, scale, _⟩
    simp_all

end Numeral

end Calculator.Grammar
