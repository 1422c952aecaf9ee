import Calculator.Proofs.Evaluation.Frames
import Calculator.Proofs.Resolution.Matching

/-! Simulations: built-in operations on matching operands keep machines related. -/

namespace Calculator

open Evaluation
open Relator (BiUnique)

/--
A relation between two machines that every built-in step keeps.

It may refer to a world, such as the variables before the evaluation. Entering a frame leads into
an inner world, where the relation has to hold until the frame is left.
-/
structure Simulation where
  /-- The names that stand for each other. -/
  names : String → String → Prop
  World : Type
  inner : World → World
  machines : World → Machine → Machine → Prop
  unique : BiUnique names
  scopes : ∀ {world first second}, machines world first second →
    first.scope.Matches names second.scope
  assign : ∀ {world first second name paired value other}, machines world first second →
    names name paired → Expr.Matches names value other →
    machines world { first with scope := first.scope.assign name value }
      { second with scope := second.scope.assign paired other }
  push : ∀ {world first second}, machines world first second →
    machines (inner world) { first with scope := first.scope.push }
      { second with scope := second.scope.push }
  bindLocal : ∀ {world first second name paired} (number : Float),
    machines (inner world) first second → names name paired →
    machines (inner world) { first with scope := first.scope.bindLocal name (.num number) }
      { second with scope := second.scope.bindLocal paired (.num number) }
  pop : ∀ {world first second}, machines (inner world) first second →
    machines world { first with scope := first.scope.pop }
      { second with scope := second.scope.pop }
  draw : ∀ {world first second curve other name paired} (points : List (Float × Float)),
    machines world first second → Expr.Matches names curve other → names name paired →
    machines world
      { first with sink := first.sink.draw ⟨curve.text, name, s!"f({name})", points⟩ }
      { second with sink := second.sink.draw ⟨other.text, paired, s!"f({paired})", points⟩ }

/-- Both runs succeed with related values, or both fail for matching reasons, and they end on
related machines. -/
inductive ResultsMatch (names : String → String → Prop) (machines : Machine → Machine → Prop)
    {α β : Type} (related : α → β → Prop) :
    EStateM.Result EvalError Machine α → EStateM.Result EvalError Machine β → Prop
  | ok {value : α} {other : β} {first second : Machine} (values : related value other)
      (ends : machines first second) :
      ResultsMatch names machines related (.ok value first) (.ok other second)
  | error {cause reason : EvalError} {first second : Machine}
      (causes : EvalError.Matches names cause reason) (ends : machines first second) :
      ResultsMatch names machines related (.error cause first) (.error reason second)

namespace Simulation

variable {α β γ δ : Type} {related : α → β → Prop} {result : γ → δ → Prop}

/-- From related machines on, the two computations have matching results. -/
def Runs (sim : Simulation) (world : sim.World) (related : α → β → Prop) (run : Evaluation α)
    (other : Evaluation β) : Prop :=
  ∀ first second, sim.machines world first second →
    ResultsMatch sim.names (sim.machines world) related (run first) (other second)

/-- Runs that are alike give matching answers and leave related machines behind. -/
theorem Runs.answer {sim : Simulation} {world : sim.World} {run : Evaluation α}
    {other : Evaluation β} (runs : sim.Runs world related run other) {first second : Machine}
    (starts : sim.machines world first second) :
    AnswersMatch sim.names related (run.answer first) (other.answer second) ∧
      sim.machines world (run.after first) (other.after second) := by
  -- The two runs both succeed or both fail.
  have results := runs first second starts
  rw [Evaluation.answer, Evaluation.answer, Evaluation.after, Evaluation.after]
  generalize run first = left at results ⊢
  generalize other second = right at results ⊢
  cases results with
  | ok values ends => exact ⟨.ok values, ends⟩
  | error causes ends => exact ⟨.error causes, ends⟩

/-- A toss shows the same side on related machines and leaves them related. -/
def SharesTosses (sim : Simulation) : Prop :=
  ∀ world, sim.Runs world Eq Evaluation.toss Evaluation.toss

namespace Runs

variable {sim : Simulation} {world : sim.World}

/-- Related values are returned. -/
theorem pure {value : α} {other : β} (values : related value other) :
    sim.Runs world related (Pure.pure value) (Pure.pure other) :=
  fun _ _ starts => .ok values starts

/-- Both computations fail. -/
theorem throw {cause reason : EvalError} (causes : EvalError.Matches sim.names cause reason) :
    sim.Runs world related (MonadExcept.throw cause) (MonadExcept.throw reason) :=
  fun _ _ starts => .error causes starts

/-- Matching answers are passed on. -/
theorem ofExcept {answer : Except EvalError α} {other : Except EvalError β}
    (answers : AnswersMatch sim.names related answer other) :
    sim.Runs world related (.ofExcept answer) (.ofExcept other) := by
  -- The two outcomes are both values or both errors.
  cases answers with
  | ok values => exact .pure values
  | error causes => exact .throw causes

/-- Two chains run alike if their steps do. -/
theorem bind {run : Evaluation α} {other : Evaluation β} {next : α → Evaluation γ}
    {after : β → Evaluation δ} (first : sim.Runs world related run other)
    (second : ∀ {value paired}, related value paired →
      sim.Runs world result (next value) (after paired)) :
    sim.Runs world result (run >>= next) (other >>= after) := by
  intro machine counterpart starts
  -- The second steps start where the first ones ended, if these succeeded.
  have results := first machine counterpart starts
  simp only [Bind.bind, EStateM.bind]
  generalize run machine = left at results ⊢
  generalize other counterpart = right at results ⊢
  cases results with
  | ok values ends => exact second values _ _ ends
  | error causes ends => exact .error causes ends

/-- Related values may be dropped. -/
theorem discard {run : Evaluation α} {other : Evaluation β}
    (runs : sim.Runs world related run other) :
    sim.Runs world Eq (Functor.discard run) (Functor.discard other) := by
  -- The values are dropped on both sides, and the machines stay matched.
  intro machine counterpart starts
  have results := runs machine counterpart starts
  simp only [Functor.discard, Functor.mapConst, EStateM.map, Function.comp]
  generalize run machine = left at results ⊢
  generalize other counterpart = right at results ⊢
  cases results with
  | ok values ends => exact .ok rfl ends
  | error causes ends => exact .error causes ends

/-- A check has the same outcome on both sides. -/
theorem guard {condition expected : Prop} [Decidable condition] [Decidable expected]
    {cause reason : EvalError} {next : Unit → Evaluation α} {after : Unit → Evaluation β}
    (same : condition ↔ expected) (causes : EvalError.Matches sim.names cause reason)
    (passed : sim.Runs world related (next ()) (after ())) :
    sim.Runs world related (if condition then MonadExcept.throw cause >>= next else next ())
      (if expected then MonadExcept.throw reason >>= after else after ()) := by
  -- The check comes out alike on both sides.
  by_cases holds : condition
  · rw [if_pos holds, if_pos (same.mp holds)]
    exact fun _ _ starts => .error causes starts
  · rw [if_neg holds, if_neg (mt same.mpr holds)]
    exact passed

/-- The variables that are looked at match. -/
theorem scope : sim.Runs world (Scope.Matches sim.names) Evaluation.scope Evaluation.scope :=
  fun _ _ starts => .ok (sim.scopes starts) starts

/-- Matching values are assigned to paired names. -/
theorem assign {name paired : String} {value other : Expr} (isPaired : sim.names name paired)
    (values : Expr.Matches sim.names value other) :
    sim.Runs world Eq (modifyScope (·.assign name value)) (modifyScope (·.assign paired other)) :=
  fun _ _ starts => .ok rfl (sim.assign starts isPaired values)

/-- The same number is bound to paired names inside a frame. -/
theorem bindLocal {name paired : String} (isPaired : sim.names name paired) (number : Float) :
    sim.Runs (sim.inner world) Eq (modifyScope (·.bindLocal name (.num number)))
      (modifyScope (·.bindLocal paired (.num number))) :=
  fun _ _ starts => .ok rfl (sim.bindLocal number starts isPaired)

/-- The same points are drawn under captions from matching expressions. -/
theorem draw {curve other : Expr} {name paired : String} (points : List (Float × Float))
    (curves : Expr.Matches sim.names curve other) (isPaired : sim.names name paired) :
    sim.Runs world Eq (Evaluation.draw ⟨curve.text, name, s!"f({name})", points⟩)
      (Evaluation.draw ⟨other.text, paired, s!"f({paired})", points⟩) :=
  fun _ _ starts => .ok rfl (sim.draw points starts curves isPaired)

/-- Both sides enter a frame, and both leave it, also when they fail. -/
theorem withFrame {body : Evaluation α} {other : Evaluation β}
    (runs : sim.Runs (sim.inner world) related body other) :
    sim.Runs world related (Evaluation.withFrame body) (Evaluation.withFrame other) := by
  intro machine counterpart starts
  -- The body runs in the inner world, and both ways out of it lead back.
  have results := runs _ _ (sim.push starts)
  simp only [Evaluation.withFrame]
  generalize body _ = left at results ⊢
  generalize other _ = right at results ⊢
  cases results with
  | ok values ends => exact .ok values (sim.pop ends)
  | error causes ends => exact .error causes (sim.pop ends)

/-- Loops over the same counters run alike if their visits do. -/
theorem loop {stuck : Float → EvalError} {visit : Float → Float → α → Evaluation α}
    {other : Float → Float → β → Evaluation β} (progression : Progression)
    (plain : ∀ counter, (stuck counter).isPlain = true)
    (visits : ∀ counter next {value paired}, related value paired →
      sim.Runs world related (visit counter next value) (other counter next paired))
    (counter : Float) {value : α} {paired : β} (values : related value paired) :
    sim.Runs world related (progression.run stuck visit counter value)
      (progression.run stuck other counter paired) := by
  -- The loop ends, so the counters can be followed to the last one.
  induction counter, value using Progression.run.induct progression generalizing paired with
  | case1 counter value before stays =>
    rw [Progression.run, Progression.run]
    simp only [if_pos before, if_pos stays]
    exact .throw (.plain (plain counter))
  | case2 counter value before moves ih =>
    rw [Progression.run, Progression.run]
    simp only [if_pos before, if_neg moves]
    exact (visits counter _ values).bind fun later => ih _ later
  | case3 counter value reached =>
    rw [Progression.run, Progression.run, if_neg reached, if_neg reached]
    exact .pure values

end Runs

/-- The operands match as they are written, and they evaluate alike in every world. -/
structure Arguments (sim : Simulation) (argument other : Argument) : Prop where
  trees : Expr.Matches sim.names argument.tree other.tree
  runs : ∀ world, sim.Runs world (Expr.Matches sim.names) argument.evaluate other.evaluate

namespace Arguments

variable {sim : Simulation} {world : sim.World} {argument other : Argument}

/-- The same number is resolved. -/
theorem resolve (arguments : sim.Arguments argument other) (role : String) :
    sim.Runs world Eq (argument.resolve role) (other.resolve role) :=
  (arguments.runs world).bind fun values => Runs.scope.bind fun scopes =>
    .ofExcept (resolveNumber_matches sim.unique scopes role values)

/-- The same number is required. -/
theorem require (arguments : sim.Arguments argument other) (role : String) :
    sim.Runs world (Expr.Matches sim.names) (argument.require role) (other.require role) :=
  (arguments.runs world).bind fun values =>
    (Runs.ofExcept (requireNumber_matches role values)).discard.bind fun _ => .pure values

/-- The same number is measured. -/
theorem measure (arguments : sim.Arguments argument other) :
    sim.Runs world Eq argument.measure other.measure :=
  Runs.scope.bind fun scopes => .ofExcept (toNumber_matches sim.unique scopes arguments.trees)

/-- Operands evaluate one after another to matching expressions. -/
theorem evaluateAll {operands others : List Argument}
    (arguments : List.Forall₂ sim.Arguments operands others) :
    sim.Runs world (List.Forall₂ (Expr.Matches sim.names)) (Argument.evaluateAll operands)
      (Argument.evaluateAll others) := by
  -- The operands are evaluated in order on both sides.
  induction arguments with
  | nil => exact .pure .nil
  | cons head _ ih =>
    exact (head.runs world).bind fun first => ih.bind fun rest => .pure (.cons first rest)

end Arguments

end Simulation

namespace Operation

open Simulation

-- Each operation takes the same steps on both sides. With as many operands as it is dispatched
-- with, it never misses one.
variable {sim : Simulation} {world : sim.World} {name : String} {operands others : List Argument}
  (arguments : List.Forall₂ sim.Arguments operands others)

include arguments

theorem runs_arithmetic : sim.Runs world (Expr.Matches sim.names) (arithmetic ⟨name, operands⟩)
    (arithmetic ⟨name, others⟩) :=
  (Arguments.evaluateAll arguments).bind fun results =>
    .ofExcept (fold_matches .symbolic name results)

theorem runs_toDouble (arity : operands.length = 1) :
    sim.Runs world (Expr.Matches sim.names) (toDouble ⟨name, operands⟩)
      (toDouble ⟨name, others⟩) := by
  -- The one operand is measured on both sides.
  rcases arguments with _ | ⟨operand, _⟩
  · simp at arity
  · exact operand.measure.bind fun same => .pure (same ▸ .num _)

theorem runs_simplified (arity : operands.length = 1) :
    sim.Runs world (Expr.Matches sim.names) (simplified ⟨name, operands⟩)
      (simplified ⟨name, others⟩) := by
  -- The one operand is simplified in matching scopes.
  rcases arguments with _ | ⟨operand, _⟩
  · simp at arity
  · exact Runs.scope.bind fun scopes =>
      .ofExcept (simplify_matches .symbolic sim.unique scopes operand.trees)

/-- Assignments to paired variables run alike, and other targets are refused alike. -/
theorem runs_assign (arity : operands.length = 2) :
    sim.Runs world (Expr.Matches sim.names) (assign ⟨name, operands⟩)
      (assign ⟨name, others⟩) := by
  rcases arguments with _ | ⟨target, _ | ⟨value, _⟩⟩
  · simp at arity
  · simp at arity
  · simp only [assign]
    -- The target is looked at before the value is evaluated, and only as it is written.
    have targets := target.trees
    generalize Argument.tree _ = left at targets ⊢
    generalize Argument.tree _ = right at targets ⊢
    cases targets with
    | num value => exact .throw (.notAssignable (.num value))
    | var isPaired =>
      exact (value.runs world).bind fun values =>
        (Runs.assign isPaired values).bind fun _ => .pure values
    | op name operandwise => exact .throw (.notAssignable (.op name operandwise))

/-- Both sides take the same branch. -/
theorem runs_choose (arity : operands.length = 3) :
    sim.Runs world (Expr.Matches sim.names) (choose ⟨name, operands⟩)
      (choose ⟨name, others⟩) := by
  -- The condition is the same number on both sides, so the same branch is taken.
  rcases arguments with _ | ⟨condition, _ | ⟨positive, _ | ⟨otherwise, _⟩⟩⟩
  iterate 3 simp at arity
  refine (condition.resolve _).bind fun same => ?_
  subst same
  dsimp only
  split
  · exact positive.require _
  · exact otherwise.require _

omit arguments in
/-- Rounds run alike, whatever the rounds before them gave. -/
theorem runs_times {body other : Argument} (bodies : sim.Arguments body other) (count : Nat)
    {last paired : Expr} (lasts : Expr.Matches sim.names last paired) :
    sim.Runs world (Expr.Matches sim.names) (times body count last) (times other count paired) := by
  -- Each round requires the body on both sides.
  induction count generalizing last paired with
  | zero => exact .pure lasts
  | succ count ih => exact (bodies.require _).bind ih

theorem runs_repeated (arity : operands.length = 2) :
    sim.Runs world (Expr.Matches sim.names) (repeated ⟨name, operands⟩)
      (repeated ⟨name, others⟩) := by
  -- The count is the same number on both sides, so the same checks pass.
  rcases arguments with _ | ⟨count, _ | ⟨body, _⟩⟩
  iterate 2 simp at arity
  refine (count.resolve _).bind fun same => ?_
  subst same
  refine .guard .rfl (.plain rfl) (.guard .rfl (.plain rfl) ?_)
  exact runs_times body _ (.num 0)

omit arguments in
/-- The same range is settled for paired variables. -/
theorem runs_sumRange {start stop counter step start' stop' counter' step' : Argument}
    (starts : sim.Arguments start start') (stops : sim.Arguments stop stop')
    (counters : sim.Arguments counter counter') (steps : sim.Arguments step step') :
    sim.Runs world (fun range other => sim.names range.1 other.1 ∧ range.2 = other.2)
      (sumRange start stop counter step) (sumRange start' stop' counter' step') := by
  refine (starts.resolve _).bind fun same => ?_
  subst same
  refine (stops.resolve _).bind fun same => ?_
  subst same
  refine (Runs.ofExcept (boundVariable_matches "for" counters.trees)).bind fun isPaired => ?_
  refine (steps.resolve _).bind fun same => ?_
  subst same
  refine .guard .rfl (.plain rfl) (.guard .rfl (.plain rfl) ?_)
  refine Runs.scope.bind fun scopes => ?_
  -- The variable is bound on one side exactly when its partner is on the other.
  refine .guard (by rw [scopes.contains isPaired]) (.alreadyDefined "for" isPaired) ?_
  exact .pure ⟨isPaired, rfl⟩

omit arguments in
/-- Matching expressions have the same share in a sum. -/
theorem addend_matches {names : String → String → Prop} (sum : Float) {value other : Expr}
    (values : Expr.Matches names value other) : addend sum value = addend sum other := by
  -- Only a number is added, and it matches itself.
  cases values <;> rfl

theorem runs_summed (arity : operands.length = 5) :
    sim.Runs world (Expr.Matches sim.names) (summed ⟨name, operands⟩)
      (summed ⟨name, others⟩) := by
  rcases arguments with
    _ | ⟨start, _ | ⟨stop, _ | ⟨counter, _ | ⟨step, _ | ⟨body, _⟩⟩⟩⟩⟩
  iterate 5 simp at arity
  refine (runs_sumRange start stop counter step).bind fun {range other} same => ?_
  obtain ⟨name, first, progression⟩ := range
  obtain ⟨paired, _, _⟩ := other
  obtain ⟨isPaired, rfl, rfl⟩ := same
  refine (Runs.withFrame (.loop progression (fun _ => rfl) ?_ first rfl)).bind fun same =>
    .pure (same ▸ .num _)
  -- A visit binds its counter and adds what the body gives.
  intro counter next sum other same
  subst same
  exact (Runs.bindLocal isPaired counter).bind fun _ =>
    (body.runs _).bind fun values => .pure (addend_matches sum values)

theorem runs_randomlyPicked (tosses : sim.SharesTosses) (arity : operands.length = 2) :
    sim.Runs world (Expr.Matches sim.names) (randomlyPicked ⟨name, operands⟩)
      (randomlyPicked ⟨name, others⟩) := by
  -- The toss comes out alike, so the same operand is evaluated.
  rcases arguments with _ | ⟨first, _ | ⟨second, _⟩⟩
  iterate 2 simp at arity
  refine (tosses world).bind fun same => ?_
  subst same
  split
  · exact first.runs world
  · exact second.runs world

theorem runs_plotted (arity : operands.length = 5) :
    sim.Runs world (Expr.Matches sim.names) (plotted ⟨name, operands⟩)
      (plotted ⟨name, others⟩) := by
  rcases arguments with
    _ | ⟨curve, _ | ⟨variableName, _ | ⟨minimum, _ | ⟨maximum, _ | ⟨step, _⟩⟩⟩⟩⟩
  iterate 5 simp at arity
  refine (Runs.ofExcept (boundVariable_matches "plot" variableName.trees)).bind fun isPaired => ?_
  refine minimum.measure.bind fun same => ?_
  subst same
  refine maximum.measure.bind fun same => ?_
  subst same
  refine step.measure.bind fun same => ?_
  subst same
  refine .guard .rfl (.plain rfl) (Runs.scope.bind fun scopes => ?_)
  -- Here too the variable is bound exactly when its partner is.
  refine .guard (by rw [scopes.contains isPaired]) (.alreadyDefined "plot" isPaired) ?_
  refine .guard .rfl (.plain rfl) (.guard .rfl (.plain rfl) ?_)
  refine (Runs.withFrame (.loop _ (fun _ => rfl) ?_ _ rfl)).bind fun same => ?_
  · -- A visit binds the next counter and measures the curve there.
    intro counter next points other same
    subst same
    exact (Runs.bindLocal isPaired next).bind fun _ =>
      curve.measure.bind fun same => .pure (same ▸ rfl)
  · subst same
    exact (Runs.draw _ curve.trees isPaired).bind fun _ => .pure (.num 1)

end Operation

/-- Each built-in operation runs alike on operands that do. -/
theorem Simulation.runs_builtin {sim : Simulation} {world : sim.World} {name : String}
    {handler : Handler} {operands others : List Argument}
    (found : Registry.builtin.find? name = some handler)
    (tosses : name = "randomlyPick" → sim.SharesTosses)
    (arguments : List.Forall₂ sim.Arguments operands others)
    (arity : operands.length = handler.arity) :
    sim.Runs world (Expr.Matches sim.names) (handler.run ⟨name, operands⟩)
      (handler.run ⟨name, others⟩) := by
  -- The operations are taken one by one; only the random choice asks for a toss.
  revert tosses arity
  refine Registry.builtin_cases found ?_ ?_ ?_ ?_ ?_ ?_ ?_ ?_ ?_
  · exact fun _ _ _ _ => Operation.runs_arithmetic arguments
  · exact fun _ arity => Operation.runs_toDouble arguments arity
  · exact fun _ arity => Operation.runs_simplified arguments arity
  · exact fun _ arity => Operation.runs_plotted arguments arity
  · exact fun _ arity => Operation.runs_assign arguments arity
  · exact fun _ arity => Operation.runs_choose arguments arity
  · exact fun _ arity => Operation.runs_repeated arguments arity
  · exact fun _ arity => Operation.runs_summed arguments arity
  · exact fun tosses arity => Operation.runs_randomlyPicked arguments (tosses rfl) arity

/-- Operands that match and evaluate alike are dispatched as such. -/
theorem Simulation.arguments_of_runs (sim : Simulation) {registry counterpart : Registry}
    {operands others : List Expr}
    (pairs : List.Forall₂ (fun operand other => Expr.Matches sim.names operand other ∧
      ∀ world, sim.Runs world (Expr.Matches sim.names) (evaluate registry operand)
        (evaluate counterpart other)) operands others) :
    List.Forall₂ sim.Arguments (arguments registry operands) (arguments counterpart others) := by
  -- Each pair of operands makes a pair of arguments.
  induction pairs with
  | nil => exact .nil
  | cons head _ ih => exact .cons ⟨head.1, head.2⟩ ih

/-- An operation of the name stands somewhere in the expression. -/
def Expr.Applies (expr : Expr) (name : String) : Prop :=
  ∃ operands, IsPart (.op name operands) expr

/-- No operation stands in a number. -/
@[simp] theorem Expr.not_applies_num (value : Float) (name : String) :
    ¬ (Expr.num value).Applies name := by
  -- A number has no operations in it.
  rintro ⟨_, part⟩
  cases part

/-- No operation stands in a variable. -/
@[simp] theorem Expr.not_applies_var (used name : String) : ¬ (Expr.var used).Applies name := by
  -- A variable has no operations in it.
  rintro ⟨_, part⟩
  cases part

/-- An operation stands in itself and wherever one of its operands stands. -/
@[simp] theorem Expr.applies_op {name other : String} {operands : List Expr} :
    (Expr.op name operands).Applies other ↔
      name = other ∨ ∃ operand ∈ operands, operand.Applies other := by
  -- The operation is the whole tree, or it stands in one of the operands.
  constructor
  · rintro ⟨within, part⟩
    cases part with
    | whole => exact .inl rfl
    | operand member inner => exact .inr ⟨_, member, within, inner⟩
  · rintro (rfl | ⟨operand, member, within, inner⟩)
    · exact ⟨operands, .whole⟩
    · exact ⟨within, .operand member inner⟩

/-- An operation has a handler on both sides or on neither, and the handlers run alike on as many
operands. -/
def Simulation.Handlers (sim : Simulation) (name : String) :
    Option Handler → Option Handler → Prop :=
  Option.Rel fun handler other => handler.arity = other.arity ∧
    ∀ world operands others, List.Forall₂ sim.Arguments operands others →
      operands.length = handler.arity →
      sim.Runs world (Expr.Matches sim.names) (handler.run ⟨name, operands⟩)
        (other.run ⟨name, others⟩)

/-- Matching expressions evaluate alike in every world if the handlers of their operations do, with
the operations of one registry on one side and those of another on the other. -/
theorem Simulation.runs_evaluate_of_handlers (sim : Simulation) {registry counterpart : Registry}
    {expr other : Expr}
    (handlers : ∀ name, expr.Applies name →
      sim.Handlers name (registry.find? name) (counterpart.find? name))
    (matching : Expr.Matches sim.names expr other) (world : sim.World) :
    sim.Runs world (Expr.Matches sim.names) (evaluate registry expr)
      (evaluate counterpart other) := by
  induction expr generalizing other world with
  | num value =>
    cases matching
    exact .pure (.num value)
  | var name =>
    cases matching with
    | var isPaired =>
      rw [evaluate, evaluate]
      refine Runs.scope.bind fun {scope counterpart} scopes => .pure ?_
      -- An unbound variable stands for itself.
      have values := scopes.get? isPaired
      generalize scope.get? _ = left at values ⊢
      generalize counterpart.get? _ = right at values ⊢
      cases values with
      | some values => exact values
      | none => exact .var isPaired
  | op name operands ih =>
    cases matching with
    | @op _ _ others operandwise =>
      have arguments := sim.arguments_of_runs <| forall₂_imp_of_mem operandwise
        fun operand member _ matching => ⟨matching, ih operand member
          (fun inner applies => handlers inner (Expr.applies_op.mpr (.inr ⟨_, member, applies⟩)))
          matching⟩
      -- Both sides find handlers for one number of operands, or fail alike.
      have found := handlers name (Expr.applies_op.mpr (.inl rfl))
      rw [evaluate, evaluate, operandwise.length_eq]
      generalize registry.find? name = left at found ⊢
      generalize counterpart.find? name = right at found ⊢
      cases found with
      | none => exact .throw (.plain rfl)
      | @some handler partner alike =>
        obtain ⟨sameArity, runs⟩ := alike
        dsimp only
        rw [← sameArity]
        split
        · next arity =>
          refine runs world _ _ arguments ?_
          rw [length_arguments, operandwise.length_eq, arity]
        · exact .throw (.plain rfl)

/-- A built-in operation runs alike on both sides. -/
theorem Simulation.handlers_builtin (sim : Simulation) {name : String}
    (tosses : name = "randomlyPick" → sim.SharesTosses) :
    sim.Handlers name (Registry.builtin.find? name) (Registry.builtin.find? name) := by
  -- The same operation is found on both sides, or none.
  cases found : Registry.builtin.find? name with
  | none => exact .none
  | some handler =>
    exact .some ⟨rfl, fun _ _ _ arguments arity => runs_builtin found tosses arguments arity⟩

/-- Matching expressions evaluate alike in every world. Tosses have to be shared only where a
random choice is dispatched. -/
theorem Simulation.runs_evaluate (sim : Simulation) {expr other : Expr}
    (tosses : expr.Applies "randomlyPick" → sim.SharesTosses)
    (matching : Expr.Matches sim.names expr other) (world : sim.World) :
    sim.Runs world (Expr.Matches sim.names) (evaluate .builtin expr)
      (evaluate .builtin other) := by
  -- Every name is looked up among the built-in operations on both sides.
  refine sim.runs_evaluate_of_handlers (fun name applies => sim.handlers_builtin ?_) matching world
  rintro rfl
  exact tosses applies

end Calculator
