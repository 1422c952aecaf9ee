import Calculator.Proofs.Evaluation.Counters
import Calculator.Proofs.Evaluation.Sums

/-! Landing: a loop whose counters land on its bound may as well go on for as long as its counter is
apart from it. -/

namespace Calculator

open Evaluation

namespace Evaluation

variable {α : Type}

/-- The first counters are visited in turn, each of them with the next. -/
def visitsInTurn (visit : Float → Float → α → Evaluation α) (counters : Nat → Float) (count : Nat)
    (value : α) : Evaluation α :=
  (List.range count).foldlM
    (fun value index => visit (counters index) (counters (index + 1)) value) value

/-- The first visit comes before those of the other counters. -/
theorem visitsInTurn_succ (visit : Float → Float → α → Evaluation α) (counters : Nat → Float)
    (count : Nat) (value : α) :
    visitsInTurn visit counters (count + 1) value =
      visit (counters 0) (counters 1) value >>=
        visitsInTurn visit (fun index => counters (index + 1)) count := by
  -- The first index is zero, and all others are one more than those of the rest.
  simp only [visitsInTurn, List.range_succ_eq_map, List.foldlM_cons, List.foldlM_map]
  rfl

/--
A loop that goes on while a condition holds of its counter has this outcome.

Where the condition holds of all counters and no visit fails, the loop has no outcome.
-/
inductive RunsWhile (goesOn : Float → Prop) (step : Float)
    (visit : Float → Float → α → Evaluation α) :
    Float → α → Machine → EStateM.Result EvalError Machine α → Prop
  | ended {counter : Float} {value : α} {machine : Machine} (stops : ¬ goesOn counter) :
      RunsWhile goesOn step visit counter value machine (.ok value machine)
  | failed {counter : Float} {value : α} {machine left : Machine} {error : EvalError}
      (goes : goesOn counter)
      (ran : visit counter (counter + step) value machine = .error error left) :
      RunsWhile goesOn step visit counter value machine (.error error left)
  | next {counter : Float} {value between : α} {machine reached : Machine}
      {outcome : EStateM.Result EvalError Machine α} (goes : goesOn counter)
      (ran : visit counter (counter + step) value machine = .ok between reached)
      (later : RunsWhile goesOn step visit (counter + step) between reached outcome) :
      RunsWhile goesOn step visit counter value machine outcome

/-- A loop that has come to its end leaves its value and the machine as they are. -/
theorem runsWhile_iff_of_ended {goesOn : Float → Prop} {step counter : Float}
    {visit : Float → Float → α → Evaluation α} (stops : ¬ goesOn counter) (value : α)
    (machine : Machine) (outcome : EStateM.Result EvalError Machine α) :
    RunsWhile goesOn step visit counter value machine outcome ↔ .ok value machine = outcome := by
  -- Of the three ways to run, two would have to go on.
  constructor
  · intro runs
    cases runs with
    | ended => rfl
    | failed goes => exact absurd goes stops
    | next goes => exact absurd goes stops
  · rintro rfl
    exact .ended stops

/-- A loop that goes on has the outcome that its visit and what follows it have. -/
theorem runsWhile_iff_of_goesOn {goesOn : Float → Prop} {step counter : Float}
    {visit : Float → Float → α → Evaluation α} {rest : α → Evaluation α} (goes : goesOn counter)
    (later : ∀ value machine outcome,
      RunsWhile goesOn step visit (counter + step) value machine outcome ↔
        rest value machine = outcome)
    (value : α) (machine : Machine) (outcome : EStateM.Result EvalError Machine α) :
    RunsWhile goesOn step visit counter value machine outcome ↔
      (visit counter (counter + step) value >>= rest) machine = outcome := by
  constructor
  · intro runs
    cases runs with
    | ended stops => exact absurd goes stops
    | failed _ ran => exact bind_eq_of_error ran
    | next _ ran runs => exact (bind_eq_of_ok ran).trans ((later _ _ _).mp runs)
  · intro same
    -- Whether the visit fails says which rule leads to the outcome.
    cases ran : visit counter (counter + step) value machine with
    | ok between reached =>
      rw [bind_eq_of_ok ran] at same
      exact .next goes ran ((later _ _ _).mpr same)
    | error error left =>
      rw [bind_eq_of_error ran] at same
      rw [← same]
      exact .failed goes ran

end Evaluation

namespace Progression

variable {α : Type} {progression : Progression} {first : Float} {count : Nat}
  {visit : Float → Float → α → Evaluation α}

/-- The counters behind the first one are those from the second one on. -/
theorem counterAt_tail (progression : Progression) (first : Float) :
    progression.counterAt (first + progression.step) =
      fun index => progression.counterAt first (index + 1) :=
  funext fun _ => counterAt_add_step

/-- A loop that goes on just for the first counters visits these in turn. -/
theorem runsWhile_iff_visitsInTurn {goesOn : Float → Prop}
    (goes : ∀ index < count, goesOn (progression.counterAt first index))
    (stops : ¬ goesOn (progression.counterAt first count)) (value : α) (machine : Machine)
    (outcome : EStateM.Result EvalError Machine α) :
    RunsWhile goesOn progression.step visit first value machine outcome ↔
      visitsInTurn visit (progression.counterAt first) count value machine = outcome := by
  -- One visit is taken off the front, so the first counter is arbitrary in the induction.
  induction count generalizing first value machine outcome with
  | zero => exact runsWhile_iff_of_ended stops value machine outcome
  | succ count ih =>
    rw [visitsInTurn_succ, ← counterAt_tail]
    refine runsWhile_iff_of_goesOn (goes 0 count.succ_pos) (fun value machine outcome => ?_) ..
    apply ih
    · intro index within
      rw [counterAt_add_step]
      exact goes (index + 1) (Nat.succ_lt_succ within)
    · rwa [counterAt_add_step]

/-- What a loop does at a counter without a round: it has reached its bound, or it fails there. -/
def endAt (progression : Progression) (stuck : Float → EvalError) (counter : Float) (value : α) :
    Evaluation α :=
  if progression.isBefore counter then throw (stuck counter) else pure value

/-- A loop visits the counters that have a round in turn, and then it ends or fails. -/
theorem run_of_takes (stuck : Float → EvalError) (takes : progression.Takes first count)
    (value : α) :
    progression.run stuck visit first value =
      visitsInTurn visit (progression.counterAt first) count value >>=
        progression.endAt stuck (progression.counterAt first count) := by
  -- As above, with the loop unfolded at its first counter.
  induction count generalizing first value with
  | zero =>
    show _ = progression.endAt stuck first value
    rw [run, endAt]
    by_cases before : progression.isBefore first = true
    · have stays := takes.reached_or_stuck.resolve_left (not_not.mpr before)
      rw [counterAt_zero] at stays
      rw [if_pos before, if_pos before, if_pos stays]
    · rw [if_neg before, if_neg before]
  | succ count ih =>
    rw [visitsInTurn_succ, ← counterAt_tail, bind_assoc, ← counterAt_add_step]
    refine (run_of_hasRound (takes.rounds 0 count.succ_pos) value).trans ?_
    exact congrArg _ (funext fun between => ih takes.tail between)

/-- A loop that reaches its bound visits the counters before it in turn. -/
theorem run_eq_visitsInTurn (stuck : Float → EvalError)
    (rounds : ∀ index < count, progression.HasRound (progression.counterAt first index))
    (finished : ¬ progression.isBefore (progression.counterAt first count) = true) (value : α) :
    progression.run stuck visit first value =
      visitsInTurn visit (progression.counterAt first) count value := by
  -- At the bound nothing is left to do.
  have ended : progression.endAt stuck (progression.counterAt first count) = (pure : α → _) :=
    funext fun _ => if_neg finished
  rw [run_of_takes stuck ⟨rounds, fun round => finished round.before⟩, ended]
  exact bind_pure _

section Landing

variable (progression) (finite : progression.step.isFinite = true)
  (bounded : progression.bound.isFinite = true) (number : Binary.IsNumber first)
  (lands : (progression.counterAt first count == progression.bound) = true)

include finite bounded number lands

/-- A loop that lands on its bound visits the counters before it in turn. -/
theorem run_of_lands (moves : progression.Moves first count) (stuck : Float → EvalError)
    (value : α) :
    progression.run stuck visit first value =
      visitsInTurn visit (progression.counterAt first) count value := by
  -- The counters go one way, so all of them before the bound are on the same side of it.
  obtain ⟨before, finished⟩ := progression.isBefore_of_lands finite number moves bounded lands
  refine run_eq_visitsInTurn stuck (fun index within => ⟨before index within, ?_⟩) finished value
  rw [← counterAt_succ]
  exact moves index within

/-- So does the loop that goes on until it is at its bound. -/
theorem runsWhile_of_lands
    (least : ∀ index < count, (progression.counterAt first index == progression.bound) = false)
    (value : α) (machine : Machine) (outcome : EStateM.Result EvalError Machine α) :
    RunsWhile (fun counter => 0 < (counter - progression.bound).abs) progression.step visit first
        value machine outcome ↔
      visitsInTurn visit (progression.counterAt first) count value machine = outcome := by
  -- A counter is apart from the bound exactly if it is not equal to it.
  have apart (index : Nat) :
      0 < (progression.counterAt first index - progression.bound).abs ↔
        (progression.counterAt first index == progression.bound) = false :=
    Binary.pos_abs_sub_iff (progression.isNumber_counterAt finite number index) bounded
  apply runsWhile_iff_visitsInTurn
  · exact fun index within => (apart index).mpr (least index within)
  · rw [apart count, lands]
    simp

end Landing

end Progression

/-- What a sum does with a counter: it binds it, evaluates the body and adds the result. -/
def sumVisit (name : String) (body : Expr) (counter _next sum : Float) : Evaluation Float := do
  modifyScope (·.bindLocal name (.num counter))
  return Operation.addend sum (← evaluate .builtin body)

/--
A sum whose counters land on its bound might as well go on while its counter is apart from it.

Let the bounds be finite and the step finite and not zero, and let the counters, which each differ
from the one before, come to one that equals the bound for the first time. Then, whatever is done in
a visit:

* the loop, which asks on which side of the bound its counter is, visits the counters before that
  one in turn, and does not fail for a step that is too small;
* so does the loop that goes on while the distance from its counter to the bound is above zero;
* so does a sum with these bounds and this step.
-/
theorem sum_visits_until_bound (origin bound width : Float)
    (finite : (origin.isFinite && bound.isFinite && width.isFinite) = true)
    (nonzero : (width == 0) = false) (count : Nat) :
    let first := if width < 0 then origin + width else origin
    let counter (index : Nat) : Float := (fun counter => counter + width)^[index] first
    (counter count == bound) = true → (∀ index < count, (counter index == bound) = false) →
    (∀ index < count, (counter (index + 1) == counter index) = false) →
      (∀ (α : Type) (stuck : Float → EvalError) (visit : Float → Float → α → Evaluation α)
        (value : α), Progression.run ⟨bound, width⟩ stuck visit first value =
          visitsInTurn visit counter count value) ∧
      (∀ (α : Type) (visit : Float → Float → α → Evaluation α) (value : α) (machine : Machine)
        (outcome : EStateM.Result EvalError Machine α),
        RunsWhile (fun counter => 0 < (counter - bound).abs) width visit first value machine
            outcome ↔
          visitsInTurn visit counter count value machine = outcome) ∧
      ∀ (start stop variableName step body : Expr) (name : String)
        (machine afterStart afterStop head : Machine),
        start.ResolvesTo machine origin afterStart → stop.ResolvesTo afterStart bound afterStop →
        boundVariable "for" variableName = .ok name → step.ResolvesTo afterStop width head →
        head.scope.contains name = false →
        evaluate .builtin (.op "for" [start, stop, variableName, step, body]) machine =
          (withFrame (visitsInTurn (sumVisit name body) counter count 0) >>= fun sum =>
            pure (.num sum)) head := by
  intro first counter lands least moves
  obtain ⟨⟨originFinite, boundFinite⟩, widthFinite⟩ :
      (origin.isFinite = true ∧ bound.isFinite = true) ∧ width.isFinite = true := by
    simpa only [Bool.and_eq_true] using finite
  -- A step below the start may be infinite, but it is a number.
  have number : Binary.IsNumber first := by
    have originNumber := Binary.isNumber_of_isFinite originFinite
    unfold first
    split
    · exact Binary.isNumber_add originNumber widthFinite
    · exact originNumber
  have directional {α : Type} (stuck : Float → EvalError) (visit : Float → Float → α → Evaluation α)
      (value : α) : Progression.run ⟨bound, width⟩ stuck visit first value =
        visitsInTurn visit counter count value :=
    Progression.run_of_lands ⟨bound, width⟩ widthFinite boundFinite number lands moves stuck value
  refine ⟨fun α stuck visit value => directional stuck visit value, ?_, ?_⟩
  · intro α visit value machine outcome
    exact Progression.runsWhile_of_lands ⟨bound, width⟩ widthFinite boundFinite number lands least
      value machine outcome
  · intro start stop variableName step body name machine afterStart afterStop head started stopped
      named stepped unbound
    have settled : Operation.sumRange _ _ ⟨variableName, evaluate .builtin variableName⟩ _ machine =
        _ := Operation.sumRange_of_resolve (started.resolve _) (stopped.resolve _) named
          (stepped.resolve _) finite nonzero unbound
    -- With its range settled, a sum is the loop over its counters, in a frame of its own.
    rw [← directional (.stepTooSmall "for" width)]
    exact Operation.summed_eq_of_settled settled

/-- A machine in its global frame, where nothing is bound. -/
private def unboundMachine : Machine := ⟨⟨[], ⟨[]⟩⟩, .recording [], .ofSeed 7⟩

/-- Counting down from three to zero, a sum visits two and one, and zero is where it lands. -/
theorem sum_visits_until_bound_down :
    let inside : Machine := { unboundMachine with scope := unboundMachine.scope.push }
    evaluate .builtin (.op "for" [.num 3, .num 0, .var "i", .num (-1), .var "i"]) unboundMachine =
        .ok (.num (0 + (3 + -1) + (3 + -1 + -1))) unboundMachine ∧
      RunsWhile (fun counter => 0 < (counter - 0).abs) (-1) (sumVisit "i" (.var "i")) (3 + -1) 0
        inside (.ok (0 + (3 + -1) + (3 + -1 + -1)) (inside.withCounter "i" (3 + -1 + -1))) := by
  -- Both sides visit the counters two and one.
  obtain ⟨_, distances, sums⟩ := sum_visits_until_bound 3 0 (-1) rfl rfl 2 (by decide) (by decide)
    (by decide)
  refine ⟨?_, (distances Float (sumVisit "i" (.var "i")) 0 _ _).mpr rfl⟩
  rw [sums (.num 3) (.num 0) (.var "i") (.num (-1)) (.var "i") "i" unboundMachine unboundMachine
    unboundMachine unboundMachine ⟨_, rfl, rfl⟩ ⟨_, rfl, rfl⟩ rfl ⟨_, rfl, rfl⟩ (by decide)]
  rfl

end Calculator
