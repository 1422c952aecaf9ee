import Calculator.Proofs.Evaluation.Frames
import Mathlib.Logic.Function.Basic

/-! Nested evaluations: which operands an operation evaluates, and on which machines. -/

namespace Calculator

open Evaluation

section Agreement

namespace Evaluation

variable {α β : Type} {invariant : Scope → Prop}

/-- A chain goes on with what its first step gives. -/
theorem bind_eq_of_ok {run : Evaluation α} {next : α → Evaluation β} {machine between : Machine}
    {result : α} (ran : run machine = .ok result between) :
    (run >>= next) machine = next result between := by
  -- The second step starts on the machine that the first one leaves.
  simp only [Bind.bind, EStateM.bind, ran]

/-- A chain fails where its first step does. -/
theorem bind_eq_of_error {run : Evaluation α} {next : α → Evaluation β} {machine left : Machine}
    {error : EvalError} (ran : run machine = .error error left) :
    (run >>= next) machine = .error error left := by
  -- A failure passes the second step by.
  simp only [Bind.bind, EStateM.bind, ran]

/-- Chains have the same result if their first steps do, and then their second ones. -/
theorem bind_congr_on {run other : Evaluation α} {next after : α → Evaluation β}
    {machine : Machine} (first : other machine = run machine)
    (second : ∀ result left, run machine = .ok result left → after result left = next result left) :
    (other >>= after) machine = (run >>= next) machine := by
  -- Only where the first step succeeds does the second one matter.
  cases ran : run machine with
  | ok result left =>
    rw [bind_eq_of_ok ran, bind_eq_of_ok (first.trans ran)]
    exact second result left ran
  | error error left => rw [bind_eq_of_error ran, bind_eq_of_error (first.trans ran)]

/-- A computation that succeeds in a frame succeeds, and the frame is left. -/
theorem withFrame_eq_of_ok {run : Evaluation α} {machine left : Machine} {value : α}
    (ran : run { machine with scope := machine.scope.push } = .ok value left) :
    withFrame run machine = .ok value { left with scope := left.scope.pop } := by
  -- The frame is left after a result.
  simp only [withFrame, ran]

/-- A computation that fails in a frame fails, and the frame is left. -/
theorem withFrame_eq_of_error {run : Evaluation α} {machine left : Machine} {error : EvalError}
    (ran : run { machine with scope := machine.scope.push } = .error error left) :
    withFrame run machine = .error error { left with scope := left.scope.pop } := by
  -- The frame is left after a failure, too.
  simp only [withFrame, ran]

/-- Computations in a frame have the same result if they do right after it is entered. -/
theorem withFrame_congr_on {run other : Evaluation α} {machine : Machine}
    (entered : other { machine with scope := machine.scope.push } =
      run { machine with scope := machine.scope.push }) :
    withFrame other machine = withFrame run machine := by
  -- A frame is entered before anything else is done.
  simp only [withFrame, entered]

/-- On variables with a property two computations have the same result, and the property is kept. -/
structure Agrees (invariant : Scope → Prop) (run other : Evaluation α) : Prop where
  same : ∀ machine : Machine, invariant machine.scope → other machine = run machine
  preserves : Preserves invariant run

namespace Agrees

/-- A computation agrees with itself. -/
theorem refl {run : Evaluation α} (preserves : Preserves invariant run) :
    Agrees invariant run run :=
  ⟨fun _ _ => rfl, preserves⟩

/-- Chains agree if their steps do. -/
theorem bind {run other : Evaluation α} {next after : α → Evaluation β}
    (first : Agrees invariant run other)
    (second : ∀ result, Agrees invariant (next result) (after result)) :
    Agrees invariant (run >>= next) (other >>= after) where
  same := by
    intro machine holds
    refine bind_congr_on (first.same machine holds) fun result left ran => ?_
    -- Where the first steps end, the property holds for the second ones to start with.
    have between := first.preserves machine holds
    rw [after_of_ok ran] at between
    exact (second result).same left between
  preserves := first.preserves.bind fun result => (second result).preserves

/-- Checks of the same condition agree if what follows them does. -/
theorem guard {condition : Prop} [Decidable condition] {error : EvalError}
    {next after : Unit → Evaluation α} (passed : Agrees invariant (next ()) (after ())) :
    Agrees invariant (if condition then throw error >>= next else next ())
      (if condition then throw error >>= after else after ()) where
  -- Both fail with the same error where the check refuses, and go on alike where it does not.
  same := by
    intro machine holds
    split
    · rfl
    · exact passed.same machine holds
  preserves := .guard fun _ => passed.preserves

/-- Loops over the same counters agree if their visits do. -/
theorem loop {visit other : Float → Float → α → Evaluation α} (progression : Progression)
    (stuck : Float → EvalError)
    (visits : ∀ counter next value,
      Agrees invariant (visit counter next value) (other counter next value))
    (counter : Float) (value : α) :
    Agrees invariant (progression.run stuck visit counter value)
      (progression.run stuck other counter value) := by
  -- By the induction of the loop: it is stuck, or it visits the counter and goes on, or it is over.
  induction counter, value using Progression.run.induct progression with
  | case1 counter value before stays =>
    rw [Progression.run, Progression.run]
    simp only [if_pos before, if_pos stays]
    exact .refl (.throw _)
  | case2 counter value before moves ih =>
    rw [Progression.run, Progression.run]
    simp only [if_pos before, if_neg moves]
    exact (visits counter _ value).bind ih
  | case3 counter value reached =>
    rw [Progression.run, Progression.run, if_neg reached, if_neg reached]
    exact .refl (.pure _)

end Agrees

end Evaluation

/-- The operands are written alike, and they agree on variables with a property. -/
structure Argument.Agrees (invariant : Scope → Prop) (argument other : Argument) : Prop where
  tree : other.tree = argument.tree
  runs : Evaluation.Agrees invariant argument.evaluate other.evaluate

namespace Argument.Agrees

variable {invariant : Scope → Prop} {argument other : Argument}

theorem resolve (agrees : argument.Agrees invariant other) (role : String) :
    Evaluation.Agrees invariant (argument.resolve role) (other.resolve role) :=
  agrees.runs.bind fun _ => .refl (.bind .scope fun _ => .ofExcept _)

theorem require (agrees : argument.Agrees invariant other) (role : String) :
    Evaluation.Agrees invariant (argument.require role) (other.require role) :=
  agrees.runs.bind fun _ => .refl (.bind (.discard (.ofExcept _)) fun _ => .pure _)

theorem evaluateAll {operands others : List Argument}
    (agree : List.Forall₂ (Argument.Agrees invariant) operands others) :
    Evaluation.Agrees invariant (Argument.evaluateAll operands) (Argument.evaluateAll others) := by
  -- The operands are evaluated one after another, each where the one before has led.
  induction agree with
  | nil => exact .refl (.pure _)
  | cons head _ ih => exact head.runs.bind fun _ => ih.bind fun _ => .refl (.pure _)

/-- What is measured is the operand as it is written. -/
theorem measure (agrees : argument.Agrees invariant other) : other.measure = argument.measure := by
  -- A measure looks at the tree only.
  rw [Argument.measure, Argument.measure, agrees.tree]

end Argument.Agrees

end Agreement

namespace Scope

/-- The variables are as before but for assignments to any names. -/
abbrev Extends (before after : Scope) : Prop := before.Keeps (fun _ => True) after

/-- A loop over a variable is about to evaluate its body: around its own frame the variables are as
before but for assignments and do not bind the variable, and its own frame binds nothing else. -/
structure AtBody (variableName : String) (before scope : Scope) : Prop where
  inside : Inside (fun _ => True) variableName before scope
  own : ∃ frame outer, scope.locals = frame :: outer ∧
    ∀ name, frame.contains name = true ↔ name = variableName

/-- The state of a loop between two rounds, or before the first, when its frame binds nothing. -/
structure BetweenRounds (variableName : String) (before scope : Scope) : Prop where
  inside : Inside (fun _ => True) variableName before scope
  own : ∃ frame outer, scope.locals = frame :: outer ∧
    ∀ name, frame.contains name = true → name = variableName

namespace BetweenRounds

variable {variableName : String} {before head scope after : Scope} {value : Expr}

/-- A loop starts so. -/
theorem push (reached : before.Extends head) (unbound : head.contains variableName = false) :
    BetweenRounds variableName before head.push where
  inside := ⟨by simp [Scope.push], reached, unbound⟩
  own := ⟨.empty, head.locals, rfl, fun name bound => by simp [Frame.contains, Frame.get?,
    Frame.empty] at bound⟩

/-- Setting the variable makes the loop ready for its body. -/
theorem bindLocal (between : BetweenRounds variableName before scope) (value : Expr) :
    AtBody variableName before (scope.bindLocal variableName value) where
  -- The frame of the loop holds its variable before and after, and no other name.
  inside := between.inside.visit (.refl _)
  own := by
    obtain ⟨frame, outer, split, only⟩ := between.own
    refine ⟨frame.insert variableName value, outer, by simp [Scope.bindLocal, split], ?_⟩
    intro name
    rw [Frame.contains_insert]
    constructor
    · intro bound
      rcases Bool.or_eq_true_iff.mp bound with same | bound
      · exact beq_iff_eq.mp same
      · exact only name bound
    · rintro rfl
      simp

/-- The body's evaluation leads to the next round. -/
theorem visit (between : BetweenRounds variableName before scope)
    (keeps : (scope.bindLocal variableName value).Extends after) :
    BetweenRounds variableName before after where
  inside := between.inside.visit keeps
  own := by
    -- The body cannot bind anything in the loop's frame, only change its variable.
    obtain ⟨frame, outer, split, only⟩ := (between.bindLocal value).own
    have sameNames := keeps.locals
    rw [split] at sameNames
    generalize after.locals = locals at sameNames ⊢
    cases sameNames with
    | @cons _ top _ rest same _ =>
      exact ⟨top, rest, rfl, fun name bound => (only name).mp ((same name).symm.trans bound)⟩

end BetweenRounds

end Scope

namespace Operation

variable {before : Scope} {name : String} {operands others : List Argument}

/-- Operands whose evaluations agree as long as the variables are only assigned to. -/
abbrev Agreeing (before : Scope) : List Argument → List Argument → Prop :=
  List.Forall₂ (Argument.Agrees before.Extends)

theorem agrees_arithmetic (agree : Agreeing before operands others) :
    Agrees before.Extends (arithmetic ⟨name, operands⟩) (arithmetic ⟨name, others⟩) :=
  (Argument.Agrees.evaluateAll agree).bind fun _ => .refl (.ofExcept _)

/-- Three operations never evaluate an operand. -/
theorem toDouble_congr (agree : Agreeing before operands others) :
    toDouble ⟨name, others⟩ = toDouble ⟨name, operands⟩ := by
  -- The operand is measured as it is written.
  rcases agree with _ | ⟨operand, _⟩
  · rfl
  · simp only [toDouble, operand.measure]

theorem simplified_congr (agree : Agreeing before operands others) :
    simplified ⟨name, others⟩ = simplified ⟨name, operands⟩ := by
  -- The operand is simplified as it is written.
  rcases agree with _ | ⟨operand, _⟩
  · rfl
  · simp only [simplified, operand.tree]

theorem plotted_congr (agree : Agreeing before operands others) (arity : operands.length = 5) :
    plotted ⟨name, others⟩ = plotted ⟨name, operands⟩ := by
  -- Nothing is evaluated here: all five operands are looked at as they are written.
  rcases agree with
    _ | ⟨curve, _ | ⟨variableName, _ | ⟨minimum, _ | ⟨maximum, _ | ⟨step, _⟩⟩⟩⟩⟩
  iterate 5 simp at arity
  simp only [plotted, curve.tree, curve.measure, variableName.tree, minimum.measure,
    maximum.measure, step.measure]

theorem agrees_assign (agree : Agreeing before operands others) (arity : operands.length = 2) :
    Agrees before.Extends (assign ⟨name, operands⟩) (assign ⟨name, others⟩) := by
  -- The target is a name, and only the value is evaluated before it is assigned.
  rcases agree with _ | ⟨target, _ | ⟨value, _⟩⟩
  iterate 2 simp at arity
  simp only [assign, target.tree]
  split
  · next variableName _ =>
    refine value.runs.bind fun result => .refl (.bind (fun machine kept => ?_) fun _ => .pure _)
    exact kept.trans (Scope.keeps_assign trivial machine.scope result)
  · exact .refl (.throw _)

theorem agrees_choose (agree : Agreeing before operands others) (arity : operands.length = 3) :
    Agrees before.Extends (choose ⟨name, operands⟩) (choose ⟨name, others⟩) := by
  -- The condition is resolved first, and then one of the branches is evaluated.
  rcases agree with _ | ⟨condition, _ | ⟨positive, _ | ⟨otherwise, _⟩⟩⟩
  iterate 3 simp at arity
  refine (condition.resolve _).bind fun number => ?_
  dsimp only
  split
  · exact positive.require _
  · exact otherwise.require _

theorem agrees_times {body other : Argument} (agrees : body.Agrees before.Extends other)
    (count : Nat) (last : Expr) :
    Agrees before.Extends (times body count last) (times other count last) := by
  -- Each round requires the body once, on the machine of the round before.
  induction count generalizing last with
  | zero => exact .refl (.pure _)
  | succ count ih => exact (agrees.require _).bind ih

theorem agrees_repeated (agree : Agreeing before operands others) (arity : operands.length = 2) :
    Agrees before.Extends (repeated ⟨name, operands⟩) (repeated ⟨name, others⟩) := by
  -- The count is resolved and checked before the first round.
  rcases agree with _ | ⟨count, _ | ⟨body, _⟩⟩
  iterate 2 simp at arity
  exact (count.resolve _).bind fun number => .guard (.guard (agrees_times body _ _))

theorem agrees_randomlyPicked (agree : Agreeing before operands others)
    (arity : operands.length = 2) :
    Agrees before.Extends (randomlyPicked ⟨name, operands⟩) (randomlyPicked ⟨name, others⟩) := by
  -- The toss does not look at the operands, and it decides which of them is evaluated.
  rcases agree with _ | ⟨first, _ | ⟨second, _⟩⟩
  iterate 2 simp at arity
  refine Agrees.bind (.refl .toss) fun side => ?_
  split
  · exact first.runs
  · exact second.runs

section Sum

variable {start stop counter step body start' stop' counter' step' body' : Argument}

theorem agrees_sumRange (starts : start.Agrees before.Extends start')
    (stops : stop.Agrees before.Extends stop') (counters : counter.Agrees before.Extends counter')
    (steps : step.Agrees before.Extends step') :
    Agrees before.Extends (sumRange start stop counter step)
      (sumRange start' stop' counter' step') := by
  -- Start, stop and step are resolved in this order, with the name of the counter in between.
  refine (starts.resolve _).bind fun _ => (stops.resolve _).bind fun _ => ?_
  rw [counters.tree]
  refine Agrees.bind (.refl (.ofExcept _)) fun _ => (steps.resolve _).bind fun _ => ?_
  exact .guard (.guard (.bind (.refl .scope) fun _ => .refl (.guard fun _ => .pure _)))

/-- The variable of a sum whose range is settled. -/
theorem variable_of_sumRange {machine head : Machine} {variableName : String} {first : Float}
    {progression : Progression}
    (settled : sumRange start stop counter step machine =
      .ok (variableName, first, progression) head) :
    boundVariable "for" counter.tree = .ok variableName := by
  obtain ⟨_, _, _, settled⟩ := bind_eq_ok settled
  obtain ⟨_, _, _, settled⟩ := bind_eq_ok settled
  obtain ⟨found, _, named, settled⟩ := bind_eq_ok settled
  obtain ⟨_, _, _, settled⟩ := bind_eq_ok settled
  obtain ⟨_, settled⟩ := guard_eq_ok settled
  obtain ⟨_, settled⟩ := guard_eq_ok settled
  obtain ⟨_, _, _, checked⟩ := bind_eq_ok settled
  obtain ⟨_, returned⟩ := guard_eq_ok checked
  -- The name that is returned is the one found in the third step.
  obtain ⟨result, _⟩ := pure_eq_ok returned
  obtain ⟨rfl, _⟩ := Prod.mk.inj result
  exact ofExcept_eq_ok named

/-- A visit that finds the loop between two rounds leaves it so, and agrees with one whose body
agrees wherever the loop is ready for it. -/
theorem agrees_visit {variableName : String} (keeps : body.Keeps fun _ => True)
    (same : ∀ machine : Machine, Scope.AtBody variableName before machine.scope →
      body'.evaluate machine = body.evaluate machine) (counter sum : Float) :
    Agrees (Scope.BetweenRounds variableName before)
      (do
        modifyScope (·.bindLocal variableName (.num counter))
        return addend sum (← body.evaluate))
      (do
        modifyScope (·.bindLocal variableName (.num counter))
        return addend sum (← body'.evaluate)) where
  -- The counter is bound before the body is evaluated, so the body starts inside the frame.
  same := by
    intro machine between
    refine bind_congr_on rfl fun _ left ran => bind_congr_on (same left ?_) fun _ _ _ => rfl
    obtain ⟨_, rfl⟩ := EStateM.Result.ok.inj ran
    exact between.bindLocal (.num counter)
  preserves := by
    intro machine between
    have kept := (keeps.bind fun value => keeps_pure (addend sum value)).after
      { machine with scope := machine.scope.bindLocal variableName (.num counter) }
    exact between.visit kept

/-- Sums agree if their ranges do, and their bodies wherever the loop is ready for them. -/
theorem summed_congr {rest rest' : List Argument} (starts : start.Agrees before.Extends start')
    (stops : stop.Agrees before.Extends stop') (counters : counter.Agrees before.Extends counter')
    (steps : step.Agrees before.Extends step') (keeps : body.Keeps fun _ => True)
    (bodies : ∀ variableName, boundVariable "for" counter.tree = .ok variableName →
      ∀ machine : Machine, Scope.AtBody variableName before machine.scope →
        body'.evaluate machine = body.evaluate machine)
    (machine : Machine) (reached : before.Extends machine.scope) :
    summed ⟨name, start' :: stop' :: counter' :: step' :: body' :: rest'⟩ machine =
      summed ⟨name, start :: stop :: counter :: step :: body :: rest⟩ machine := by
  have ranges := agrees_sumRange starts stops counters steps
  refine bind_congr_on (ranges.same machine reached) fun range head settled => ?_
  have settling := ranges.preserves machine reached
  rw [after_of_ok settled] at settling
  obtain ⟨variableName, first, progression⟩ := range
  -- The loop starts between two rounds, and from there on its visits agree.
  have visits := agrees_visit keeps (bodies variableName (variable_of_sumRange settled))
  refine bind_congr_on (withFrame_congr_on ?_) fun _ _ _ => rfl
  refine (Agrees.loop progression _ (fun counter _ sum => visits counter sum) first 0).same _ ?_
  exact .push settling (unbound_of_sumRange settled)

end Sum

/-- Built-in operations agree if their operands do and the body of a sum is the same. -/
theorem builtin_congr {handler : Handler} (found : Registry.builtin.find? name = some handler)
    (agree : Agreeing before operands others)
    (keeps : ∀ operand ∈ operands, operand.Keeps fun _ => True)
    (sameBody : name = "for" → others[4]? = operands[4]?)
    (arity : operands.length = handler.arity) {machine : Machine}
    (reached : before.Extends machine.scope) :
    handler.run ⟨name, others⟩ machine = handler.run ⟨name, operands⟩ machine := by
  -- The operations are taken one by one; only a sum evaluates an operand in a frame of its own.
  revert sameBody arity
  refine Registry.builtin_cases found ?_ ?_ ?_ ?_ ?_ ?_ ?_ ?_ ?_
  · exact fun _ _ _ _ => (agrees_arithmetic agree).same machine reached
  · exact fun _ _ => congrFun (toDouble_congr agree) machine
  · exact fun _ _ => congrFun (simplified_congr agree) machine
  · exact fun _ arity => congrFun (plotted_congr agree arity) machine
  · exact fun _ arity => (agrees_assign agree arity).same machine reached
  · exact fun _ arity => (agrees_choose agree arity).same machine reached
  · exact fun _ arity => (agrees_repeated agree arity).same machine reached
  · intro sameBody arity
    rcases agree with
      _ | ⟨start, _ | ⟨stop, _ | ⟨counter, _ | ⟨step, _ | ⟨body, _⟩⟩⟩⟩⟩
    iterate 5 simp at arity
    have bodies := Option.some.inj (sameBody rfl)
    dsimp only
    refine summed_congr start stop counter step (keeps _ (by simp)) (fun _ _ _ _ => ?_) _ reached
    rw [bodies]
  · exact fun _ arity => (agrees_randomlyPicked agree arity).same machine reached

end Operation

section Calls

/-- Dispatches an operation, with operands that may evaluate in any way. -/
def dispatch (name : String) (arguments : List Argument) : Evaluation Expr :=
  match Registry.builtin.find? name with
  | none => throw (.unknownOperation name)
  | some handler =>
    if arguments.length = handler.arity then handler.run ⟨name, arguments⟩
    else throw (.wrongArity name handler.arity arguments.length)

/-- An operation is evaluated by dispatching it with operands that evaluate as they are written. -/
theorem evaluate_op (name : String) (operands : List Expr) :
    evaluate .builtin (.op name operands) = dispatch name (arguments .builtin operands) := by
  -- There are as many arguments as operands, so the check of their number is the same.
  rw [dispatch, length_arguments]
  rfl

open Classical in
/-- The operand with another outcome on one machine. -/
noncomputable def Argument.alter (argument : Argument) (inner : Machine)
    (outcome : EStateM.Result EvalError Machine Expr) : Argument :=
  ⟨argument.tree, fun machine => if machine = inner then outcome else argument.evaluate machine⟩

/--
To evaluate the operation on one machine, its operand at a place is evaluated on another machine.

This is so exactly when it makes a difference what comes of the operand there.
-/
def Calls (name : String) (operands : List Expr) (machine : Machine) (place : Nat)
    (inner : Machine) : Prop :=
  ∃ outcome,
    dispatch name ((arguments .builtin operands).modify place (·.alter inner outcome)) machine ≠
      evaluate .builtin (.op name operands) machine

variable {name : String} {operands : List Expr} {machine inner : Machine} {place : Nat}

/-- An altered operand agrees with the original where the alteration does not apply. -/
theorem Argument.agrees_alter {argument : Argument} {before : Scope}
    (keeps : argument.Keeps fun _ => True) (outside : ¬ before.Extends inner.scope)
    (outcome : EStateM.Result EvalError Machine Expr) :
    argument.Agrees before.Extends (argument.alter inner outcome) where
  -- The outcome is changed on a machine that no evaluation from here can reach.
  tree := rfl
  runs := by
    refine ⟨fun machine reached => if_neg ?_, keeps before⟩
    rintro rfl
    exact outside reached

/-- Elements related to themselves and to what they are changed to are related after a change. -/
theorem forall₂_modify {α : Type} {related : α → α → Prop} {change : α → α} {elements : List α}
    (refl : ∀ element ∈ elements, related element element)
    (changed : ∀ element ∈ elements, related element (change element)) (place : Nat) :
    List.Forall₂ related elements (elements.modify place change) := by
  -- The element at the place is changed, and all others are related to themselves.
  induction elements generalizing place with
  | nil => simp
  | cons first rest ih =>
    simp only [List.forall_mem_cons] at refl changed
    cases place with
    | zero =>
      rw [List.modify_zero_cons]
      exact .cons changed.1 (List.forall₂_same.mpr refl.2)
    | succ place =>
      rw [List.modify_succ_cons]
      exact .cons refl.1 (ih refl.2 changed.2 place)

/-- Operands keep the variables, whatever they assign. -/
theorem keeps_operands (operands : List Expr) :
    ∀ argument ∈ arguments .builtin operands, argument.Keeps fun _ => True := by
  -- Each argument evaluates its operand, which keeps the frames.
  intro argument member
  obtain ⟨_, _, keeps⟩ := keeps_arguments operands argument member
  exact keeps.mono fun _ _ => trivial

namespace Calls

/-- An operation that evaluates an operand is a built-in one with its number of operands. -/
theorem exists_handler (calls : Calls name operands machine place inner) :
    ∃ handler, Registry.builtin.find? name = some handler ∧ operands.length = handler.arity := by
  obtain ⟨outcome, differs⟩ := calls
  -- Otherwise it fails before it looks at its operands.
  simp only [evaluate_op, dispatch, List.length_modify, length_arguments] at differs
  cases found : Registry.builtin.find? name with
  | none =>
    rw [found] at differs
    exact absurd rfl differs
  | some handler =>
    by_cases arity : operands.length = handler.arity
    · exact ⟨handler, rfl, arity⟩
    · simp only [found, if_neg arity] at differs
      exact absurd rfl differs

/-- With its number of operands, an operation is run by its handler. -/
theorem dispatch_of_found {handler : Handler} {operands : List Argument}
    (found : Registry.builtin.find? name = some handler)
    (arity : operands.length = handler.arity) :
    dispatch name operands = handler.run ⟨name, operands⟩ := by
  -- The operation is known and has the right number of operands.
  simp only [dispatch, found, if_pos arity]

/-- Any operand but the body of a sum is evaluated on variables that are kept. -/
theorem scope_extends (calls : Calls name operands machine place inner)
    (notBody : name = "for" → place ≠ 4) : machine.scope.Extends inner.scope := by
  by_contra outside
  obtain ⟨handler, found, arity⟩ := calls.exists_handler
  obtain ⟨outcome, differs⟩ := calls
  apply differs
  rw [evaluate_op, dispatch_of_found found (by simp [length_arguments, arity]),
    dispatch_of_found found (by simp [length_arguments, arity])]
  have keeps := keeps_operands operands
  -- On variables that are kept the altered operand does what it did, so nothing differs.
  refine Operation.builtin_congr found (forall₂_modify ?_ ?_ place) keeps ?_ ?_
    (.refl machine.scope)
  · exact fun argument member => ⟨rfl, .refl (keeps argument member machine.scope)⟩
  · exact fun argument member => Argument.agrees_alter (keeps argument member) outside outcome
  · intro isSum
    simp [notBody isSum]
  · rw [length_arguments, arity]

/-- The body of a sum is evaluated when its loop is ready for it. -/
theorem atBody {start stop counter step body : Expr}
    (calls : Calls "for" [start, stop, counter, step, body] machine 4 inner) :
    ∃ variableName, boundVariable "for" counter = .ok variableName ∧
      Scope.AtBody variableName machine.scope inner.scope := by
  by_contra elsewhere
  obtain ⟨outcome, differs⟩ := calls
  apply differs
  show Operation.summed ⟨"for", [_, _, _, _, _]⟩ machine =
    Operation.summed ⟨"for", [_, _, _, _, _]⟩ machine
  have keeps (operand : Expr) :
      Argument.Keeps (fun _ => True) ⟨operand, evaluate .builtin operand⟩ :=
    (keeps_evaluate operand).mono fun _ _ => trivial
  have itself (operand : Expr) : Argument.Agrees machine.scope.Extends
      ⟨operand, evaluate .builtin operand⟩ ⟨operand, evaluate .builtin operand⟩ :=
    ⟨rfl, .refl (keeps operand machine.scope)⟩
  refine Operation.summed_congr (itself start) (itself stop) (itself counter) (itself step)
    (keeps body) ?_ machine (.refl machine.scope)
  -- Where the loop is ready, the machine is not the one on which the body was altered.
  intro variableName named reached ready
  refine if_neg ?_
  rintro rfl
  exact elsewhere ⟨variableName, named, ready⟩

/-- An operation that can be stopped for any reason at an operand evaluates it. -/
theorem of_stops
    (stops : ∀ error, ∃ left, dispatch name ((arguments .builtin operands).modify place
      (·.alter inner (.error error inner))) machine = .error error left) :
    Calls name operands machine place inner := by
  -- Without a difference, it would stop for two reasons at once.
  by_contra indifferent
  simp only [Calls, not_exists, not_not] at indifferent
  obtain ⟨left, stopped⟩ := stops .zeroStep
  obtain ⟨right, halted⟩ := stops .infiniteCount
  rw [indifferent] at stopped halted
  cases stopped.symm.trans halted

/-- A loop that has a first round evaluates its body there. -/
theorem first_round {start stop counter step body : Expr} {head : Machine} {variableName : String}
    {first : Float} {progression : Progression}
    (settled : Operation.sumRange ⟨start, evaluate .builtin start⟩ ⟨stop, evaluate .builtin stop⟩
      ⟨counter, evaluate .builtin counter⟩ ⟨step, evaluate .builtin step⟩ machine =
        .ok (variableName, first, progression) head)
    (before : progression.isBefore first = true)
    (moves : (first + progression.step == first) = false) :
    Calls "for" [start, stop, counter, step, body] machine 4
      { head with scope := head.scope.push.bindLocal variableName (.num first) } := by
  -- The range is settled without the body, and in the first round the body stops the loop.
  let inner := { head with scope := head.scope.push.bindLocal variableName (.num first) }
  refine of_stops fun error => ⟨{ inner with scope := inner.scope.pop }, ?_⟩
  show Operation.summed ⟨"for", [_, _, _, _, _]⟩ machine = _
  refine (bind_eq_of_ok settled).trans (bind_eq_of_error ?_)
  refine withFrame_eq_of_error (show _ = EStateM.Result.error error inner from ?_)
  rw [Progression.run, if_pos before, if_neg (by simp [moves])]
  refine bind_eq_of_error ((bind_eq_of_ok rfl).trans (bind_eq_of_error ?_))
  exact if_pos rfl

end Calls

end Calls

end Calculator
