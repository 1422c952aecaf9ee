import Calculator.Proofs.Evaluation.Arithmetic
import Calculator.Proofs.Evaluation.Rounds
import Mathlib.Data.Nat.Find

/-! Sums: a counting loop goes through the counters that its bounds and its step fix, whatever its
body does. -/

namespace Calculator

open Evaluation

section Directions

open Binary

/-- A finite double other than zero is on one side of it. -/
theorem neg_iff_not_pos {value : Float} (finite : value.isFinite = true)
    (nonzero : (value == 0) = false) : value < 0 ↔ ¬ 0 < value := by
  -- Doubles are ordered and compared by their places, which are integers.
  have zero := isNumber_zero
  have number := isNumber_of_isFinite finite
  have apart : place value ≠ place 0 := fun same =>
    Bool.false_ne_true (nonzero.symm.trans ((beq_iff_place number zero).mpr same))
  rw [lt_iff_place number zero, lt_iff_place zero number]
  omega

/-- The way to the bound is up or down as the step is. -/
theorem Progression.isBefore_iff {progression : Progression} {counter : Float} :
    progression.isBefore counter = true ↔
      if 0 < progression.step then counter < progression.bound
      else progression.bound < counter := by
  -- The direction of the step decides on which side of the bound the counter is.
  unfold isBefore
  split <;> simp

end Directions

section Rounds

/-- The machine at the start of a round, with the counter bound in the innermost frame. -/
def Machine.withCounter (machine : Machine) (name : String) (counter : Float) : Machine :=
  { machine with scope := machine.scope.bindLocal name (.num counter) }

/-- A name that is bound in the innermost frame has the value that it has there. -/
theorem Scope.get?_bindLocal (scope : Scope) (name : String) (value : Expr) :
    (scope.bindLocal name value).get? name = some value := by
  -- The innermost frame is the first to be asked.
  obtain ⟨locals, globals⟩ := scope
  cases locals <;> simp [bindLocal, get?, frames, Frame.get?_insert]

/-- At the start of a round the variable stands for the counter, whatever it stood for before. -/
theorem evaluate_counter (registry : Registry) (machine : Machine) (name : String)
    (counter : Float) :
    evaluate registry (.var name) (machine.withCounter name counter) =
      .ok (.num counter) (machine.withCounter name counter) := by
  -- The variable is looked up in the frame that binds it to the counter.
  have bound := machine.scope.get?_bindLocal name (.num counter)
  show EStateM.Result.ok (((machine.scope.bindLocal name (.num counter)).get? name).getD _) _ = _
  rw [bound]
  rfl

/-- What a sum does in a round: it binds the counter and evaluates the body. -/
def sumRound (name : String) (counters : Nat → Float) (body : Evaluation Expr) (index : Nat) :
    Evaluation Expr :=
  fun machine => body (machine.withCounter name (counters index))

/-- The numbers among the results are added up from left to right. -/
theorem foldl_addend (results : List Expr) (sum : Float) :
    results.foldl Operation.addend sum =
      (results.filterMap Expr.number?).foldl (fun sum number => sum + number) sum := by
  induction results generalizing sum with
  | nil => rfl
  | cons result rest ih =>
    -- Any other result is passed over and leaves the sum as it is.
    rw [List.foldl_cons, ih]
    cases result <;> rfl

/-- All but the counter is as it was inside the loop, and the counter is bound no more. -/
structure Machine.LosesCounter (name : String) (inside outside : Machine) : Prop where
  counter : outside.scope.contains name = false
  others : ∀ other, other ≠ name → outside.scope.get? other = inside.scope.get? other
  sink : outside.sink = inside.sink
  random : outside.random = inside.random

/-- Leaving a loop between two rounds loses its counter and nothing else. -/
theorem Machine.losesCounter_pop {name : String} {before : Scope} {inside : Machine}
    (between : before.BetweenRounds name inside.scope) :
    Machine.LosesCounter name inside { inside with scope := inside.scope.pop } where
  counter := between.inside.unbound
  others := by
    intro other apart
    obtain ⟨frame, outer, split, only⟩ := between.own
    -- The frame that is left has no value for any other name.
    have absent : frame.get? other = none := by
      cases found : frame.get? other with
      | none => rfl
      | some value => exact absurd (only other (by simp [Frame.contains, found])) apart
    simp [Scope.get?, Scope.frames, Scope.pop, split, absent]
  sink := rfl
  random := rfl

variable {name : String} {counters : Nat → Float} {body : Expr} {head reached : Machine}
  {index : Nat} {results : List Expr}

/-- A body leaves the loop between two rounds, whether it succeeds or fails. -/
theorem Scope.BetweenRounds.after_round (between : head.scope.BetweenRounds name reached.scope)
    (counters : Nat → Float) (body : Expr) (index : Nat) :
    head.scope.BetweenRounds name
      ((sumRound name counters (evaluate .builtin body) index).after reached).scope := by
  -- The counter is in the innermost frame already, and the body adds nothing to that frame.
  apply between.visit
  exact ((keeps_evaluate body).after (reached.withCounter name (counters index))).mono
    fun _ _ => trivial

/-- After any number of rounds the loop is between two rounds. -/
theorem betweenRounds_of_rounds (unbound : head.scope.contains name = false)
    (rounds : Rounds (sumRound name counters (evaluate .builtin body))
      { head with scope := head.scope.push } index results reached) :
    head.scope.BetweenRounds name reached.scope := by
  -- By what each round keeps, from the frame that has just been entered.
  apply rounds.keeps fun reached => head.scope.BetweenRounds name reached.scope
  · exact .push (.refl head.scope) unbound
  · exact fun index _ between => between.after_round counters body index

end Rounds

namespace Operation

section Outcomes

variable {start stop counter step body : Argument} {machine head reached left : Machine}
  {name : String} {first : Float} {progression : Progression} {count index : Nat}
  {results : List Expr}

/-- Operands that resolve settle the range of a sum. -/
theorem sumRange_of_resolve {origin bound width : Float} {afterStart afterStop : Machine}
    (started : start.resolve "for: invalid start" machine = .ok origin afterStart)
    (stopped : stop.resolve "for: invalid end" afterStart = .ok bound afterStop)
    (named : boundVariable "for" counter.tree = .ok name)
    (stepped : step.resolve "for: invalid step" afterStop = .ok width head)
    (finite : (origin.isFinite && bound.isFinite && width.isFinite) = true)
    (nonzero : (width == 0) = false) (unbound : head.scope.contains name = false) :
    sumRange start stop counter step machine =
      .ok (name, if width < 0 then origin + width else origin, ⟨bound, width⟩) head := by
  -- Each operand is resolved on the machine that the one before it left.
  rw [sumRange, bind_eq_of_ok started, bind_eq_of_ok stopped, named]
  refine (bind_eq_of_ok rfl).trans ?_
  rw [bind_eq_of_ok stepped, finite, nonzero]
  refine (bind_eq_of_ok rfl).trans ?_
  rw [unbound]
  rfl

/-- The loop of a sum, once its range is settled. -/
theorem summed_eq_of_settled
    (settled : sumRange start stop counter step machine = .ok (name, first, progression) head) :
    summed ⟨"for", [start, stop, counter, step, body]⟩ machine =
      (withFrame (progression.run (.stepTooSmall "for" progression.step) (fun counter _ sum => do
        modifyScope (·.bindLocal name (.num counter))
        return addend sum (← body.evaluate)) first 0) >>= fun sum => pure (.num sum)) head :=
  bind_eq_of_ok settled

/-- The visits of a sum are its rounds, whose results are added up. -/
theorem visitsBy_sumRound (name : String) (body : Argument) (progression : Progression)
    (first : Float) :
    progression.VisitsBy first (sumRound name (progression.counterAt first) body.evaluate) addend
      (fun counter _ sum => do
        modifyScope (·.bindLocal name (.num counter))
        return addend sum (← body.evaluate)) :=
  fun _ _ => rfl

variable
  (settled : sumRange start stop counter step machine = .ok (name, first, progression) head)
  (takes : progression.Takes first count)

include settled takes

/-- A sum that reaches its bound adds up the numbers that its rounds gave. -/
theorem summed_of_finished
    (rounds : Rounds (sumRound name (progression.counterAt first) body.evaluate)
      { head with scope := head.scope.push } count results left)
    (finished : ¬ progression.isBefore (progression.counterAt first count) = true) :
    summed ⟨"for", [start, stop, counter, step, body]⟩ machine =
      .ok (.num ((results.filterMap Expr.number?).foldl (fun sum number => sum + number) 0))
        { left with scope := left.scope.pop } := by
  -- The loop ends regularly, and then the frame is left with the sum.
  rw [summed_eq_of_settled settled, ← foldl_addend]
  refine (bind_eq_of_ok (withFrame_eq_of_ok ?_)).trans rfl
  exact Progression.run_of_finished takes (visitsBy_sumRound name body _ first) rounds finished

/-- A sum that its step does not lead on fails before it evaluates its body again. -/
theorem summed_of_stuck
    (rounds : Rounds (sumRound name (progression.counterAt first) body.evaluate)
      { head with scope := head.scope.push } count results left)
    (before : progression.isBefore (progression.counterAt first count) = true) :
    summed ⟨"for", [start, stop, counter, step, body]⟩ machine =
      .error (.stepTooSmall "for" progression.step (progression.counterAt first count))
        { left with scope := left.scope.pop } := by
  -- The loop is stuck before its bound, and then the frame is left with the error.
  rw [summed_eq_of_settled settled]
  refine bind_eq_of_error (withFrame_eq_of_error ?_)
  exact Progression.run_of_stuck takes (visitsBy_sumRound name body _ first) rounds before

/-- A sum fails with the first body that does. -/
theorem summed_of_failed {error : EvalError}
    (rounds : Rounds (sumRound name (progression.counterAt first) body.evaluate)
      { head with scope := head.scope.push } index results reached)
    (within : index < count)
    (failed : sumRound name (progression.counterAt first) body.evaluate index reached =
      .error error left) :
    summed ⟨"for", [start, stop, counter, step, body]⟩ machine =
      .error error { left with scope := left.scope.pop } := by
  -- One round fails, and then the frame is left with its error.
  rw [summed_eq_of_settled settled]
  refine bind_eq_of_error (withFrame_eq_of_error ?_)
  exact Progression.run_of_failed takes (visitsBy_sumRound name body _ first) rounds within failed

/-- Sums are the same if their bodies do the same wherever their rounds lead. -/
theorem summed_congr_of_rounds {other : Argument}
    (same : ∀ index < count, ∀ results reached,
      Rounds (sumRound name (progression.counterAt first) body.evaluate)
        { head with scope := head.scope.push } index results reached →
      sumRound name (progression.counterAt first) other.evaluate index reached =
        sumRound name (progression.counterAt first) body.evaluate index reached) :
    summed ⟨"for", [start, stop, counter, step, other]⟩ machine =
      summed ⟨"for", [start, stop, counter, step, body]⟩ machine := by
  obtain ⟨results, left, rounds⟩ | ⟨index, within, results, reached, error, left, rounds, failed⟩ :=
    rounds_or_fails (sumRound name (progression.counterAt first) body.evaluate)
      { head with scope := head.scope.push } count
  · -- All rounds are completed on both sides, and the counter behind them decides.
    have rounds' := rounds.congr same
    by_cases before : progression.isBefore (progression.counterAt first count) = true
    · rw [summed_of_stuck settled takes rounds before, summed_of_stuck settled takes rounds' before]
    · rw [summed_of_finished settled takes rounds before,
        summed_of_finished settled takes rounds' before]
  · -- The first round that fails on one side fails on the other.
    have rounds' := rounds.congr fun earlier before => same earlier (Nat.lt_trans before within)
    have failed' := (same index within results reached rounds).trans failed
    rw [summed_of_failed settled takes rounds within failed,
      summed_of_failed settled takes rounds' within failed']

end Outcomes

end Operation

section Sums

variable {start stop variableName step : Expr} {machine head : Machine} {name : String}
  {first : Float} {progression : Progression} {count : Nat}

/-- Evaluated on a machine, the expression resolves to a number and leaves a machine behind. -/
def Expr.ResolvesTo (expr : Expr) (machine : Machine) (number : Float) (left : Machine) : Prop :=
  ∃ value, evaluate .builtin expr machine = .ok value left ∧
    toNumber left.scope value = .ok number

/-- An operand that resolves to a number does so in any role. -/
theorem Expr.ResolvesTo.resolve {expr : Expr} {number : Float} {left : Machine}
    (resolves : expr.ResolvesTo machine number left) (role : String) :
    (Argument.mk expr (evaluate .builtin expr)).resolve role machine = .ok number left := by
  -- The operand is evaluated first, and then its result is resolved.
  obtain ⟨value, evaluated, resolved⟩ := resolves
  refine (bind_eq_of_ok evaluated).trans ((bind_eq_of_ok rfl).trans ?_)
  exact (ofExcept_eq_ok_iff left).mpr ((resolveNumber_eq_ok_iff _ role value).mpr resolved)

variable
  (settled : Operation.sumRange ⟨start, evaluate .builtin start⟩ ⟨stop, evaluate .builtin stop⟩
    ⟨variableName, evaluate .builtin variableName⟩ ⟨step, evaluate .builtin step⟩ machine =
      .ok (name, first, progression) head)
  (takes : progression.Takes first count)

include settled takes

/-- The body of a sum is evaluated at the start of its rounds and nowhere else. -/
theorem calls_body_iff (body : Expr) (inner : Machine) :
    Calls "for" [start, stop, variableName, step, body] machine 4 inner ↔
      ∃ index < count, ∃ results reached,
        Rounds (sumRound name (progression.counterAt first) (evaluate .builtin body))
          { head with scope := head.scope.push } index results reached ∧
        inner = reached.withCounter name (progression.counterAt first index) := by
  constructor
  · intro calls
    by_contra elsewhere
    obtain ⟨outcome, differs⟩ := calls
    apply differs
    -- Where no round starts, another outcome of the body makes no difference.
    refine Operation.summed_congr_of_rounds settled takes ?_
    intro index within results reached rounds
    refine if_neg fun same => elsewhere ?_
    exact ⟨index, within, results, reached, rounds, same.symm⟩
  · intro found
    -- Of the rounds that start there the first one is taken, so that the rounds before it start
    -- elsewhere and are not touched by the other outcome.
    classical
    obtain ⟨within, results, reached, rounds, same⟩ := Nat.find_spec found
    refine Calls.of_stops fun error => ⟨{ inner with scope := inner.scope.pop }, ?_⟩
    refine Operation.summed_of_failed settled takes (rounds.congr ?_) within (if_pos same.symm)
    intro earlier before others passed earlierRounds
    refine if_neg fun again => Nat.find_min found before ?_
    exact ⟨Nat.lt_trans before within, others, passed, earlierRounds, again.symm⟩

/-- A sum has completed its rounds and reached its bound or is stuck, or a round failed; and it
loses its counter only. -/
theorem sum_outcome (body : Expr) :
    let sum := evaluate .builtin (.op "for" [start, stop, variableName, step, body])
    let round := sumRound name (progression.counterAt first) (evaluate .builtin body)
    let rounds := Rounds round { head with scope := head.scope.push }
    ∃ inside, Machine.LosesCounter name inside (sum.after machine) ∧
      ((∃ results, rounds count results inside ∧
          ¬ progression.isBefore (progression.counterAt first count) = true ∧
          sum.answer machine = .ok (.num
            ((results.filterMap Expr.number?).foldl (fun sum number => sum + number) 0))) ∨
        (∃ results, rounds count results inside ∧
          progression.isBefore (progression.counterAt first count) = true ∧
          sum.answer machine =
            .error (.stepTooSmall "for" progression.step (progression.counterAt first count))) ∨
        ∃ index < count, ∃ results reached error, rounds index results reached ∧
          round index reached = .error error inside ∧ sum.answer machine = .error error) := by
  intro sum round rounds
  have unbound := Operation.unbound_of_sumRange settled
  obtain ⟨results, inside, completed⟩ | ⟨index, within, results, reached, error, inside, completed,
    failed⟩ := rounds_or_fails round { head with scope := head.scope.push } count
  · have loses := Machine.losesCounter_pop (betweenRounds_of_rounds unbound completed)
    refine ⟨inside, ?_⟩
    by_cases before : progression.isBefore (progression.counterAt first count) = true
    · have ran : sum machine = _ := Operation.summed_of_stuck settled takes completed before
      rw [after_of_error ran, answer, ran]
      exact ⟨loses, .inr (.inl ⟨results, completed, before, rfl⟩)⟩
    · have ran : sum machine = _ := Operation.summed_of_finished settled takes completed before
      rw [after_of_ok ran, answer, ran]
      exact ⟨loses, .inl ⟨results, completed, before, rfl⟩⟩
  · -- A body that fails has changed the machine too, and the loop is left from there.
    have between := (betweenRounds_of_rounds unbound completed).after_round
      (progression.counterAt first) body index
    rw [after_of_error failed] at between
    have loses := Machine.losesCounter_pop between
    have ran : sum machine = _ := Operation.summed_of_failed settled takes completed within failed
    refine ⟨inside, ?_⟩
    rw [after_of_error ran, answer, ran]
    exact ⟨loses, .inr (.inr ⟨index, within, results, reached, error, completed, failed, rfl⟩)⟩

end Sums

/--
A sum goes through counters that its bounds and its step fix.

For finite bounds and a finite step other than zero, the counters start with the lower end, or one
step below the upper end when they count down, and each is the sum of the one before it and the
step. Their number is fixed as well: all of them are before the bound and are changed by the step,
and the next one is not before the bound or is not changed. Whatever the operands and the body are
and whatever the body does:

* at the start of a round the variable stands for the counter of the round;
* the body is evaluated at the start of each round, in their order, and nowhere else;
* if no body fails, the result adds up, from zero and from left to right, the numbers that the
  bodies gave, or the sum fails at the counter that its step does not change; else it fails with the
  first body that fails;
* of what the bodies did, the loop's variable is lost and nothing else.
-/
theorem sum_visits_fixed_counters (origin bound width : Float)
    (finite : (origin.isFinite && bound.isFinite && width.isFinite) = true)
    (nonzero : (width == 0) = false) :
    let counter (index : Nat) : Float :=
      (fun counter => counter + width)^[index] (if 0 < width then origin else origin + width)
    let before (index : Nat) : Prop :=
      if 0 < width then counter index < bound else bound < counter index
    ∃ count,
      (∀ index < count, before index ∧ (counter index + width == counter index) = false) ∧
      (before count → (counter count + width == counter count) = true) ∧
      ∀ (start stop variableName step body : Expr) (name : String)
        (machine afterStart afterStop head : Machine),
        start.ResolvesTo machine origin afterStart → stop.ResolvesTo afterStart bound afterStop →
        boundVariable "for" variableName = .ok name → step.ResolvesTo afterStop width head →
        head.scope.contains name = false →
        let sum := evaluate .builtin (.op "for" [start, stop, variableName, step, body])
        let round := sumRound name counter (evaluate .builtin body)
        let rounds := Rounds round { head with scope := head.scope.push }
        (∀ index (reached : Machine),
          (evaluate .builtin (.var name)).answer (reached.withCounter name (counter index)) =
            .ok (.num (counter index))) ∧
        (∀ inner, Calls "for" [start, stop, variableName, step, body] machine 4 inner ↔
          ∃ index < count, ∃ results reached, rounds index results reached ∧
            inner = reached.withCounter name (counter index)) ∧
        ∃ inside, Machine.LosesCounter name inside (sum.after machine) ∧
          ((∃ results, rounds count results inside ∧ ¬ before count ∧
              sum.answer machine = .ok (.num
                ((results.filterMap Expr.number?).foldl (fun sum number => sum + number) 0))) ∨
            (∃ results, rounds count results inside ∧ before count ∧
              sum.answer machine = .error (.stepTooSmall "for" width (counter count))) ∨
            ∃ index < count, ∃ results reached error, rounds index results reached ∧
              round index reached = .error error inside ∧ sum.answer machine = .error error) := by
  intro counter before
  obtain ⟨count, takes⟩ := Progression.exists_takes ⟨bound, width⟩
    (if 0 < width then origin else origin + width)
  have isBefore (index : Nat) :
      Progression.isBefore ⟨bound, width⟩ (counter index) = true ↔ before index :=
    Progression.isBefore_iff
  refine ⟨count, fun index within => ?_, fun reached => ?_, ?_⟩
  · have round := takes.rounds index within
    exact ⟨(isBefore index).mp round.before, round.moves⟩
  · by_contra moves
    exact takes.ends ⟨(isBefore count).mpr reached, Bool.eq_false_iff.mpr moves⟩
  · intro start stop variableName step body name machine afterStart afterStop head started stopped
      named stepped unbound sum round rounds
    have widthFinite : width.isFinite = true := by
      rw [Bool.and_eq_true] at finite
      exact finite.2
    -- The operation asks whether the step is below zero, which is the same question.
    have firstCounter : (if width < 0 then origin + width else origin) =
        if 0 < width then origin else origin + width := by
      rw [if_congr (neg_iff_not_pos widthFinite nonzero) rfl rfl, ite_not]
    have settled : Operation.sumRange _ _ ⟨variableName, evaluate .builtin variableName⟩ _ machine =
        _ := Operation.sumRange_of_resolve (started.resolve _) (stopped.resolve _) named
          (stepped.resolve _) finite nonzero unbound
    rw [firstCounter] at settled
    have bodies := calls_body_iff settled takes body
    have outcome := sum_outcome settled takes body
    refine ⟨fun index reached => ?_, bodies, ?_⟩
    · rw [answer, evaluate_counter]
    · simp only [← isBefore]
      exact outcome

/-- A machine in its global frame, where `x` is bound. -/
private def globalMachine : Machine := ⟨⟨[], ⟨[("x", .num 4)]⟩⟩, .recording [], .ofSeed 7⟩

/-- A body that assigns five to the counter of its loop is still evaluated for both counters. -/
theorem sum_visits_fixed_counters_assigned :
    let sum : Expr := .op "for" [.num 0, .num 2, .var "i", .num 1, .assign "i" (.num 5)]
    (evaluate .builtin sum).answer globalMachine = .ok (.num (0 + 5 + 5)) ∧
      ((evaluate .builtin sum).after globalMachine).scope.contains "i" = false := by
  intro sum
  obtain ⟨count, visited, ended, sums⟩ := sum_visits_fixed_counters 0 2 1 rfl rfl
  -- The counters 0 and 1 have a round, and 2 has none.
  have two : count = 2 := by
    have notZero : count ≠ 0 := by
      rintro rfl
      exact absurd (ended (by decide)) (by decide)
    have notOne : count ≠ 1 := by
      rintro rfl
      exact absurd (ended (by decide)) (by decide)
    have noThird : ¬ 2 < count := fun more => absurd (visited 2 more).1 (by decide)
    omega
  subst two
  obtain ⟨_, _, inside, loses, outcome⟩ := sums (.num 0) (.num 2) (.var "i") (.num 1)
    (.assign "i" (.num 5)) "i" globalMachine globalMachine globalMachine globalMachine
    ⟨_, rfl, rfl⟩ ⟨_, rfl, rfl⟩ rfl ⟨_, rfl, rfl⟩ (by decide)
  refine ⟨?_, loses.counter⟩
  obtain ⟨results, rounds, _, answered⟩ | ⟨_, _, before, _⟩ | ⟨index, within, _, reached, error,
    rounds, failed, _⟩ := outcome
  · obtain ⟨rfl, _⟩ := rounds.unique (.next (.next .none rfl) rfl)
    exact answered
  · exact absurd before (by decide)
  · -- The body fails in neither round.
    obtain rfl | rfl : index = 0 ∨ index = 1 := by omega
    · obtain ⟨_, rfl⟩ := rounds.unique .none
      cases failed
    · obtain ⟨_, rfl⟩ := rounds.unique (.next .none rfl)
      cases failed

end Calculator
