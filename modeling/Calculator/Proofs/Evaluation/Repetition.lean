import Calculator.Proofs.Evaluation.Sums
import Calculator.Proofs.Number.Value

/-! Repetition: a body is evaluated as often as the count has whole ones, and counts add up. -/

namespace Calculator

open Evaluation

namespace Argument

variable {argument : Argument} {role : String} {machine left : Machine}

/-- An operand that is a number as required evaluates to it. -/
theorem require_eq_ok {result : Expr} (required : argument.require role machine = .ok result left) :
    argument.evaluate machine = .ok result left ∧ ∃ number, result = .num number := by
  -- The check behind the evaluation lets only numbers pass.
  obtain ⟨value, between, evaluated, checked⟩ := bind_eq_ok required
  cases value with
  | num number =>
    obtain ⟨rfl, rfl⟩ := EStateM.Result.ok.inj checked
    exact ⟨evaluated, number, rfl⟩
  | var name => cases checked
  | op name operands => cases checked

/-- An operand that is not a number as required fails, or evaluates to something else. -/
theorem require_eq_error {error : EvalError}
    (required : argument.require role machine = .error error left) :
    argument.evaluate machine = .error error left ∨
      ∃ result, argument.evaluate machine = .ok result left ∧ result.number? = none ∧
        error = .notNumber role result := by
  -- Either the evaluation fails itself, or its result is refused by the check.
  cases evaluated : argument.evaluate machine with
  | error cause between =>
    rw [Argument.require, bind_eq_of_error evaluated] at required
    exact .inl required
  | ok value between =>
    rw [Argument.require, bind_eq_of_ok evaluated] at required
    cases value with
    | num number => cases required
    | var name =>
      obtain ⟨rfl, rfl⟩ := EStateM.Result.error.inj required
      exact .inr ⟨.var name, rfl, rfl, rfl⟩
    | op name operands =>
      obtain ⟨rfl, rfl⟩ := EStateM.Result.error.inj required
      exact .inr ⟨.op name operands, rfl, rfl, rfl⟩

end Argument

/-- Rounds with required numbers are rounds whose results are numbers. -/
theorem Evaluation.Rounds.of_require {argument : Argument} {role : String} {start left : Machine}
    {count : Nat} {results : List Expr}
    (rounds : Rounds (fun _ => argument.require role) start count results left) :
    Rounds (fun _ => argument.evaluate) start count results left ∧
      ∀ result ∈ results, ∃ number, result = .num number := by
  -- Each round has passed the check, so its result is a number.
  induction rounds with
  | none => exact ⟨.none, by simp⟩
  | next _ ran ih =>
    obtain ⟨evaluated, numeric⟩ := Argument.require_eq_ok ran
    refine ⟨.next ih.1 evaluated, fun result member => ?_⟩
    rcases List.mem_append.mp member with earlier | last
    · exact ih.2 result earlier
    · rwa [List.mem_singleton.mp last]

namespace Operation

section Times

variable {body : Argument} {start reached left : Machine} {count index : Nat} {results : List Expr}

/-- Repeating a body so often and then so often again repeats it as often as both together. -/
theorem times_add (body : Argument) (first second : Nat) (last : Expr) :
    times body (first + second) last = times body first last >>= times body second := by
  -- The rounds of the first part come first, and the others go on from their result.
  induction first generalizing last with
  | zero =>
    rw [Nat.zero_add, times, pure_bind]
  | succ first ih =>
    rw [Nat.succ_add, times, times, bind_assoc]
    exact bind_congr fun result => ih result

/-- What a body gave before does not matter if it is repeated at all. -/
theorem times_of_ne_zero (body : Argument) (some : count ≠ 0) (last other : Expr) :
    times body count last = times body count other := by
  -- The first round replaces whatever was there before.
  cases count with
  | zero => exact absurd rfl some
  | succ count => rfl

/-- A body that gives a number in each round is repeated to the last of them. -/
theorem times_of_rounds
    (rounds : Rounds (fun _ => body.require "repeat: invalid body") start count results left)
    (last : Expr) : times body count last start = .ok (results.getLastD last) left := by
  -- The rounds are followed from the first one on, so the last round is split off.
  induction rounds with
  | none => rfl
  | next _ ran ih =>
    rw [times_add, bind_eq_of_ok ih, List.getLastD_concat]
    exact bind_eq_of_ok ran

/-- A repetition fails with the first round that does. -/
theorem times_of_failed {error : EvalError}
    (rounds : Rounds (fun _ => body.require "repeat: invalid body") start index results reached)
    (within : index < count)
    (failed : body.require "repeat: invalid body" reached = .error error left) (last : Expr) :
    times body count last start = .error error left := by
  -- The rounds before the failing one succeed, and it ends the repetition.
  obtain ⟨rest, rfl⟩ : ∃ rest, count = index + (rest + 1) := ⟨count - index - 1, by omega⟩
  rw [times_add, bind_eq_of_ok (times_of_rounds rounds last)]
  exact bind_eq_of_error failed

end Times

/-- A count that is no less than zero is followed by its repetitions. -/
theorem repeated_of_resolve {count body : Argument} {machine head : Machine} {number : Float}
    (resolved : count.resolve "repeat: invalid repeat count" machine = .ok number head)
    (finite : number.isFinite = true) (unsigned : ¬ number < 0) :
    repeated ⟨"repeat", [count, body]⟩ machine =
      times body number.toUInt64.toNat (.num 0) head := by
  -- The count passes both checks, and then the rounds begin.
  have finite : ¬ (!number.isFinite) = true := by simp [finite]
  refine (bind_eq_of_ok resolved).trans ?_
  exact (congrFun (if_neg unsigned) head).trans (congrFun (if_neg finite) head)

end Operation

section Repetitions

open Binary

variable {count body : Expr} {number : Float} {machine head : Machine}

/-- A count that resolves is followed by as many repetitions as it has whole ones. -/
theorem evaluate_repeat (resolves : count.ResolvesTo machine number head)
    (finite : number.isFinite = true) (unsigned : 0 ≤ valueOf number)
    (small : valueOf number < 2 ^ 53) (body : Expr) :
    evaluate .builtin (.op "repeat" [count, body]) machine =
      Operation.times ⟨body, evaluate .builtin body⟩ ⌊valueOf number⌋₊ (.num 0) head := by
  -- Below the limit the count is the whole part of the number.
  have noLess : ¬ number < 0 := by
    rw [lt_iff_valueOf finite rfl]
    exact not_lt.mpr unsigned
  have counted := toUInt64_eq_floor finite unsigned (small.trans (by norm_num))
  rw [← counted]
  exact Operation.repeated_of_resolve (resolves.resolve _) finite noLess

/-- A whole number is followed by as many repetitions. -/
theorem evaluate_repeat_ofNat {times : Nat} (small : times < 2 ^ 53) (body : Expr) :
    evaluate .builtin (.op "repeat" [.num (.ofNat times), body]) =
      Operation.times ⟨body, evaluate .builtin body⟩ times (.num 0) := by
  -- A small whole number is exact as a double, and it is its own whole part.
  obtain ⟨finite, exact⟩ := valueOf_ofNat small
  have resolves (machine : Machine) :
      (Expr.num (.ofNat times)).ResolvesTo machine (.ofNat times) machine := ⟨_, rfl, rfl⟩
  funext machine
  rw [evaluate_repeat (resolves machine) finite (by rw [exact]; positivity)
    (by rw [exact]; exact_mod_cast small), exact, Nat.floor_natCast]

end Repetitions

/--
Repetitions add up.

Repeating a body as often as two whole numbers say together does what repeating it as often as the
first says does, and then, unless that fails, as often as the second says; and the result is that of
the second unless there is nothing to repeat.

So a body is evaluated once for each whole one of the count, where the evaluation before it ended.
The repetition ends with the first evaluation that fails or does not give a number. Else the result
is the last one, or zero if there is none.
-/
theorem repeat_adds_up (body : Expr) :
    let repeated (count : Expr) : Evaluation Expr := evaluate .builtin (.op "repeat" [count, body])
    (∀ m n : Nat, m + n < 2 ^ 53 →
      repeated (.num (.ofNat (m + n))) = do
        let first ← repeated (.num (.ofNat m))
        let second ← repeated (.num (.ofNat n))
        return if n = 0 then first else second) ∧
    ∀ (count : Expr) (number : Float) (machine head : Machine),
      count.ResolvesTo machine number head → number.isFinite = true →
      0 ≤ Binary.valueOf number → Binary.valueOf number < 2 ^ 53 →
      let rounds (times : Nat) (results : List Expr) (left : Machine) : Prop :=
        Rounds (fun _ => evaluate .builtin body) head times results left ∧
          ∀ result ∈ results, ∃ value, result = .num value
      let whole := ⌊Binary.valueOf number⌋₊
      (∃ results left, rounds whole results left ∧
        repeated count machine = .ok (results.getLastD (.num 0)) left) ∨
      ∃ index < whole, ∃ results reached error left, rounds index results reached ∧
        (evaluate .builtin body reached = .error error left ∨
          ∃ result, evaluate .builtin body reached = .ok result left ∧ result.number? = none ∧
            error = .notNumber "repeat: invalid body" result) ∧
        repeated count machine = .error error left := by
  intro repeated
  constructor
  · intro m n small
    show evaluate .builtin _ = evaluate .builtin _ >>= fun first => evaluate .builtin _ >>= _
    rw [evaluate_repeat_ofNat small, evaluate_repeat_ofNat (by omega : m < 2 ^ 53),
      evaluate_repeat_ofNat (by omega : n < 2 ^ 53), Operation.times_add]
    refine bind_congr fun first => ?_
    by_cases none : n = 0
    · -- Nothing is left to repeat, and the result so far stays.
      subst none
      rfl
    · simp only [if_neg none, bind_pure]
      exact Operation.times_of_ne_zero _ none _ _
  · intro count number machine head resolves finite unsigned small rounds whole
    have ran : repeated count machine = _ := evaluate_repeat resolves finite unsigned small body
    rw [ran]
    obtain ⟨results, left, completed⟩ | ⟨index, within, results, reached, error, left, completed,
      failed⟩ := rounds_or_fails (fun _ => (Argument.mk body (evaluate .builtin body)).require
        "repeat: invalid body") head whole
    · exact .inl ⟨results, left, completed.of_require, Operation.times_of_rounds completed _⟩
    · exact .inr ⟨index, within, results, reached, error, left, completed.of_require,
        Argument.require_eq_error failed, Operation.times_of_failed completed within failed _⟩

/-- A machine with one variable. -/
private def countingMachine : Machine := ⟨⟨[], ⟨[("x", .num 4)]⟩⟩, .recording [], .ofSeed 7⟩

/-- Two and a half has two whole ones. -/
private theorem valueOf_twoAndHalf : Binary.valueOf 2.5 = 5 / 2 := by
  -- The double holds the mantissa and the exponent of five halves.
  show Binary.size 5629499534213120 (-51) = _
  norm_num [Binary.size]

/-- Three assignments are one and two more, a count of two and a half repeats a body twice, and a
body that gives no number ends its repetition at once. -/
theorem repeat_adds_up_samples :
    let repeated (count body : Expr) : Evaluation Expr :=
      evaluate .builtin (.op "repeat" [count, body])
    (repeated (.num (.ofNat 3)) (.assign "x" (.num 5)) = do
      let _ ← repeated (.num (.ofNat 1)) (.assign "x" (.num 5))
      repeated (.num (.ofNat 2)) (.assign "x" (.num 5))) ∧
    (∃ left, repeated (.num 2.5) (.assign "x" (.num 5)) countingMachine = .ok (.num 5) left) ∧
    repeated (.num 2.5) (.var "y") countingMachine =
      .error (.notNumber "repeat: invalid body" (.var "y")) countingMachine := by
  intro repeated
  have whole : ⌊Binary.valueOf 2.5⌋₊ = 2 := by
    rw [valueOf_twoAndHalf]
    norm_num
  obtain ⟨adds, assigned⟩ := repeat_adds_up (.assign "x" (.num 5))
  obtain ⟨_, refused⟩ := repeat_adds_up (.var "y")
  have assigned := assigned (.num 2.5) 2.5 countingMachine countingMachine ⟨_, rfl, rfl⟩ rfl
    (by rw [valueOf_twoAndHalf]; norm_num) (by rw [valueOf_twoAndHalf]; norm_num)
  have refused := refused (.num 2.5) 2.5 countingMachine countingMachine ⟨_, rfl, rfl⟩ rfl
    (by rw [valueOf_twoAndHalf]; norm_num) (by rw [valueOf_twoAndHalf]; norm_num)
  rw [whole] at assigned refused
  refine ⟨?_, ?_, ?_⟩
  · exact (adds 1 2 (by norm_num)).trans (bind_congr fun _ => bind_pure _)
  · obtain ⟨results, left, ⟨rounds, _⟩, ran⟩ | ⟨index, within, _, reached, error, _, _, fails, _⟩ :=
      assigned
    · obtain ⟨rfl, _⟩ := rounds.unique (.next (.next .none rfl) rfl)
      exact ⟨left, ran⟩
    · -- The assignment of a number neither fails nor gives anything else.
      obtain failed | ⟨_, ran, other, _⟩ := fails
      · cases failed
      · cases ran
        cases other
  · obtain ⟨results, left, ⟨rounds, numbers⟩, _⟩ | ⟨index, within, results, reached, error, left,
      ⟨rounds, numbers⟩, fails, ran⟩ := refused
    · -- The first round would have given a number.
      obtain ⟨rfl, _⟩ := rounds.unique (.next (.next .none rfl) rfl)
      obtain ⟨_, wrong⟩ := numbers _ List.mem_concat_self
      cases wrong
    · obtain rfl | rfl : index = 0 ∨ index = 1 := by omega
      · obtain ⟨_, rfl⟩ := rounds.unique .none
        obtain failed | ⟨_, evaluated, _, rfl⟩ := fails
        · cases failed
        · cases evaluated
          exact ran
      · obtain ⟨rfl, _⟩ := rounds.unique (.next .none rfl)
        obtain ⟨_, wrong⟩ := numbers _ List.mem_concat_self
        cases wrong

end Calculator
