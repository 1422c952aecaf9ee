import Calculator.Evaluation.Operations

/-! Invariants of computations: what holds of the variables before a step holds after it, whether
the step succeeds or fails. -/

namespace Calculator

namespace Evaluation

variable {α β : Type}

/-- The machine that a computation leaves behind, whether it succeeds or fails. -/
def after (run : Evaluation α) (machine : Machine) : Machine :=
  match run machine with
  | .ok _ machine | .error _ machine => machine

/-- What a computation answers, without the machine that it leaves behind. -/
def answer (run : Evaluation α) (machine : Machine) : Except EvalError α :=
  match run machine with
  | .ok value _ => .ok value
  | .error error _ => .error error

/-- A computation that succeeds leaves the machine behind that it ends with. -/
theorem after_of_ok {run : Evaluation α} {machine left : Machine} {value : α}
    (ran : run machine = .ok value left) : run.after machine = left := by
  -- The machine is read off the result.
  rw [after, ran]

/-- A computation that fails leaves the machine behind that it ends with. -/
theorem after_of_error {run : Evaluation α} {machine left : Machine} {error : EvalError}
    (ran : run machine = .error error left) : run.after machine = left := by
  -- The machine is read off the failure.
  rw [after, ran]

/-- A chain that succeeds has two steps that succeed. -/
theorem bind_eq_ok {run : Evaluation α} {next : α → Evaluation β} {machine left : Machine}
    {value : β} (ran : (run >>= next) machine = .ok value left) :
    ∃ result between, run machine = .ok result between ∧ next result between = .ok value left := by
  -- A chain that succeeds has passed its first step.
  simp only [bind, EStateM.bind] at ran
  split at ran
  · exact ⟨_, _, ‹_›, ran⟩
  · exact nomatch ran

/-- Returning a value changes nothing. -/
theorem pure_eq_ok {value result : α} {machine left : Machine}
    (ran : (Pure.pure value : Evaluation α) machine = .ok result left) :
    value = result ∧ machine = left :=
  EStateM.Result.ok.inj ran

/-- A result that is passed on is the value returned. -/
theorem ofExcept_eq_ok {result : Except EvalError α} {value : α} {machine left : Machine}
    (ran : Evaluation.ofExcept result machine = .ok value left) : result = .ok value := by
  -- Only a result that is passed on can succeed.
  cases result with
  | ok other => rw [(pure_eq_ok ran).1]
  | error error => exact nomatch ran

/-- Looking at the variables changes nothing. -/
theorem scope_eq_ok {looked : Scope} {machine left : Machine}
    (ran : Evaluation.scope machine = .ok looked left) : machine.scope = looked ∧ machine = left :=
  EStateM.Result.ok.inj ran

/-- A check that was passed did not hold. -/
theorem guard_eq_ok {condition : Prop} [Decidable condition] {error : EvalError}
    {next : Unit → Evaluation α} {machine left : Machine} {value : α}
    (ran : (if condition then throw error >>= next else next ()) machine = .ok value left) :
    ¬ condition ∧ next () machine = .ok value left := by
  -- A check that refuses cannot succeed.
  split at ran
  · exact nomatch ran
  · exact ⟨‹_›, ran⟩

/-- A chain goes on from where its first step ends. -/
theorem after_bind_of_ok {run : Evaluation α} {next : α → Evaluation β} {machine between : Machine}
    {result : α} (ran : run machine = .ok result between) :
    (run >>= next).after machine = (next result).after between := by
  -- The second step starts on the machine between.
  simp only [after, bind, EStateM.bind, ran]

/-- A chain ends where its first step fails. -/
theorem after_bind_of_error {run : Evaluation α} {next : α → Evaluation β}
    {machine between : Machine} {error : EvalError} (ran : run machine = .error error between) :
    (run >>= next).after machine = between := by
  -- A failure passes the second step by.
  simp only [after, bind, EStateM.bind, ran]

/-- Returning something else changes nothing. -/
theorem after_bind_pure (run : Evaluation α) (result : α → β) (machine : Machine) :
    (run >>= fun value => pure (result value)).after machine = run.after machine := by
  -- A result that is only changed leaves the machine where it was.
  cases ran : run machine with
  | ok value left =>
    rw [after_bind_of_ok ran, after_of_ok ran]
    rfl
  | error error left => rw [after_bind_of_error ran, after_of_error ran]

/-- The computation keeps a property of the variables, whether it succeeds or fails. -/
def Preserves (invariant : Scope → Prop) (run : Evaluation α) : Prop :=
  ∀ machine, invariant machine.scope → invariant (run.after machine).scope

namespace Preserves

variable {invariant : Scope → Prop}

/-- Returning a value keeps every property. -/
theorem pure (value : α) : Preserves invariant (Pure.pure value : Evaluation α) :=
  fun _ holds => holds

/-- Failing keeps every property. -/
theorem throw (error : EvalError) : Preserves invariant (MonadExcept.throw error : Evaluation α) :=
  fun _ holds => holds

/-- Passing a result on keeps every property. -/
theorem ofExcept (result : Except EvalError α) : Preserves invariant (.ofExcept result) := by
  -- An outcome that is passed on does not touch the machine.
  cases result with
  | ok value => exact pure value
  | error error => exact throw error

/-- Looking at the variables keeps every property. -/
theorem scope : Preserves invariant Evaluation.scope := fun _ holds => holds

/-- Randomness has no part in the variables. -/
theorem toss : Preserves invariant Evaluation.toss := fun _ holds => holds

/-- Plots have no part in the variables. -/
theorem draw (plot : ScatterPlot) : Preserves invariant (Evaluation.draw plot) :=
  fun _ holds => holds

/-- Where the second step is reached, it may rely on how the first one ended. -/
theorem bind_of_ok {run : Evaluation α} {next : α → Evaluation β}
    (first : Preserves invariant run)
    (second : ∀ machine result between, run machine = .ok result between →
      invariant between.scope → invariant ((next result).after between).scope) :
    Preserves invariant (run >>= next) := by
  intro machine holds
  -- The property holds where the first step ends, and the chain ends there if the step fails.
  have between := first machine holds
  cases ran : run machine with
  | ok result left =>
    rw [after_of_ok ran] at between
    rw [after_bind_of_ok ran]
    exact second machine result left ran between
  | error error left =>
    rw [after_of_error ran] at between
    rwa [after_bind_of_error ran]

/-- A chain keeps what both of its steps keep. -/
theorem bind {run : Evaluation α} {next : α → Evaluation β} (first : Preserves invariant run)
    (second : ∀ result, Preserves invariant (next result)) :
    Preserves invariant (run >>= next) :=
  first.bind_of_ok fun _ result between _ holds => second result between holds

/-- Dropping a result keeps what finding it keeps. -/
theorem discard {run : Evaluation α} (preserves : Preserves invariant run) :
    Preserves invariant (Functor.discard run) := by
  -- Dropping a result does not touch the machine.
  intro machine holds
  have kept := preserves machine holds
  simp only [after] at kept ⊢
  simp only [Functor.discard, Functor.mapConst, EStateM.map, Function.comp]
  cases ran : run machine <;> simpa [ran] using kept

/-- A check that fails changes nothing, and behind it the check is known to have passed. -/
theorem guard {condition : Prop} [Decidable condition] {error : EvalError}
    {next : Unit → Evaluation α} (passed : ¬ condition → Preserves invariant (next ())) :
    Preserves invariant (if condition then MonadExcept.throw error >>= next else next ()) := by
  -- A check that refuses does not touch the machine.
  split
  · exact (throw error).bind_of_ok fun _ _ _ wrong => nomatch wrong
  · exact passed ‹_›

end Preserves

end Evaluation

open Evaluation

/-- A loop keeps what each visit of a counter keeps. -/
theorem Progression.run_preserves {α : Type} {invariant : Scope → Prop}
    (progression : Progression)
    (stuck : Float → EvalError) (visit : Float → Float → α → Evaluation α)
    (step : ∀ counter next value, Preserves invariant (visit counter next value)) (counter : Float)
    (value : α) : Preserves invariant (progression.run stuck visit counter value) := by
  -- The loop ends, so the counters can be followed to the last one.
  induction counter, value using Progression.run.induct progression with
  | case1 counter value before stays =>
    rw [run, if_pos before, if_pos stays]
    exact .throw _
  | case2 counter value before moves ih =>
    rw [run, if_pos before, if_neg moves]
    exact (step counter _ value).bind ih
  | case3 counter value reached =>
    rw [run, if_neg reached]
    exact .pure _

end Calculator
