import Calculator.Proofs.Evaluation.Invariant
import Calculator.Proofs.Expr.Parts
import Calculator.Proofs.Scope.Names
import Calculator.Session

/-! Evaluation keeps the frames: it leaves every one that it enters, and binds new names only
globally and only by assignments. -/

namespace Calculator

/-- The name is the target of an assignment in the expression. -/
def Expr.Assigns (expr : Expr) (name : String) : Prop :=
  ∃ value, Expr.IsPart (.assign name value) expr

namespace Evaluation

variable {α β : Type} {assigned wider : String → Prop}

/-- The computation keeps the variables but for assignments to some names. -/
def Keeps (assigned : String → Prop) (run : Evaluation α) : Prop :=
  ∀ before : Scope, Preserves (before.Keeps assigned) run

namespace Keeps

/-- The variables are kept from before a computation to after it. -/
theorem after {run : Evaluation α} (keeps : Keeps assigned run) (machine : Machine) :
    machine.scope.Keeps assigned (run.after machine).scope :=
  keeps machine.scope machine (.refl machine.scope)

/-- What keeps the variables of every machine keeps them wherever they come from. -/
theorem of_after {run : Evaluation α}
    (keeps : ∀ machine : Machine, machine.scope.Keeps assigned (run.after machine).scope) :
    Keeps assigned run :=
  fun _ machine before => before.trans (keeps machine)

/-- More names may be assigned. -/
theorem mono {run : Evaluation α} (keeps : Keeps assigned run)
    (more : ∀ name, assigned name → wider name) : Keeps wider run :=
  of_after fun machine => (keeps.after machine).mono more

/-- A chain keeps the variables if both of its steps do. -/
theorem bind {run : Evaluation α} {next : α → Evaluation β} (first : Keeps assigned run)
    (second : ∀ result, Keeps assigned (next result)) : Keeps assigned (run >>= next) :=
  fun before => (first before).bind fun result => second result before

end Keeps

/-- A loop over a variable that is not bound keeps the variables and leaves its own unbound. -/
theorem withFrame_run {name : String} {visit : Float → Float → α → Evaluation α}
    {machine : Machine} (unbound : machine.scope.contains name = false)
    (step : ∀ counter next value,
      Preserves (Scope.Inside assigned name machine.scope) (visit counter next value))
    (progression : Progression) (stuck : Float → EvalError) (counter : Float) (value : α) :
    machine.scope.Keeps assigned
        ((withFrame (progression.run stuck visit counter value)).after machine).scope ∧
      ((withFrame (progression.run stuck visit counter value)).after machine).scope.contains name =
        false := by
  -- All visits stay inside the loop, and leaving its frame gives what was kept outside.
  have inside := progression.run_preserves stuck visit step counter value
    { machine with scope := machine.scope.push } (.push unbound)
  have left : ((withFrame (progression.run stuck visit counter value)).after machine).scope =
      ((progression.run stuck visit counter value).after
        { machine with scope := machine.scope.push }).scope.pop := by
    simp only [Evaluation.after, withFrame]
    cases progression.run stuck visit counter value { machine with scope := machine.scope.push } <;>
      rfl
  rw [left]
  exact ⟨inside.kept, inside.unbound⟩

/-- Setting a loop's variable and then evaluating stays inside the loop. -/
theorem preserves_bindLocal {name : String} {before : Scope} {number : Float} {run : Evaluation α}
    (keeps : Keeps assigned run) :
    Preserves (Scope.Inside assigned name before) (do
      modifyScope (·.bindLocal name (.num number))
      run) := by
  -- The counter is bound in the frame of the loop, and then the run keeps what is outside.
  intro machine inside
  have kept := keeps.after { machine with scope := machine.scope.bindLocal name (.num number) }
  exact inside.visit kept

end Evaluation

open Evaluation

section Operations

-- Each operation is a chain of steps that keep the variables; only assignments and loops need more.
variable {assigned : String → Prop}

theorem keeps_ofExcept {α : Type} (result : Except EvalError α) :
    Keeps assigned (.ofExcept result) := fun _ => .ofExcept result

theorem keeps_throw {α : Type} (error : EvalError) :
    Keeps assigned (throw error : Evaluation α) := fun _ => .throw error

theorem keeps_pure {α : Type} (value : α) : Keeps assigned (pure value : Evaluation α) :=
  fun _ => .pure value

theorem keeps_discard {α : Type} {run : Evaluation α} (keeps : Keeps assigned run) :
    Keeps assigned (discard run) := fun before => (keeps before).discard

theorem keeps_scope : Keeps assigned Evaluation.scope := fun _ => .scope

namespace Argument

/-- The operand's evaluation keeps the variables. -/
def Keeps (assigned : String → Prop) (argument : Argument) : Prop :=
  Evaluation.Keeps assigned argument.evaluate

theorem Keeps.resolve {argument : Argument} (keeps : argument.Keeps assigned) (role : String) :
    Evaluation.Keeps assigned (argument.resolve role) :=
  keeps.bind fun _ => keeps_scope.bind fun _ => keeps_ofExcept _

theorem Keeps.require {argument : Argument} (keeps : argument.Keeps assigned) (role : String) :
    Evaluation.Keeps assigned (argument.require role) :=
  keeps.bind fun _ => (keeps_discard (keeps_ofExcept _)).bind fun _ => keeps_pure _

theorem keeps_measure (argument : Argument) : Evaluation.Keeps assigned argument.measure :=
  keeps_scope.bind fun _ => keeps_ofExcept _

theorem keeps_evaluateAll {operands : List Argument}
    (keeps : ∀ operand ∈ operands, operand.Keeps assigned) :
    Evaluation.Keeps assigned (evaluateAll operands) := by
  -- Each operand keeps the frames where the ones before it have led.
  induction operands with
  | nil => exact keeps_pure _
  | cons first rest ih =>
    exact (keeps first (by simp)).bind fun _ =>
      (ih fun operand member => keeps operand (List.mem_cons_of_mem _ member)).bind fun _ =>
        keeps_pure _

end Argument

namespace Operation

theorem keeps_arithmetic {call : Call}
    (keeps : ∀ operand ∈ call.arguments, operand.Keeps assigned) :
    Keeps assigned (arithmetic call) :=
  (Argument.keeps_evaluateAll keeps).bind fun _ => keeps_ofExcept _

theorem keeps_toDouble (call : Call) : Keeps assigned (toDouble call) := by
  -- A measure changes nothing.
  unfold toDouble
  split
  · exact (Argument.keeps_measure _).bind fun _ => keeps_pure _
  · exact keeps_throw _

theorem keeps_simplified (call : Call) : Keeps assigned (simplified call) := by
  -- Simplifying looks at the variables only.
  unfold simplified
  split
  · exact keeps_scope.bind fun _ => keeps_ofExcept _
  · exact keeps_throw _

/-- An assignment binds its target. -/
theorem keeps_assign {call : Call} (keeps : ∀ operand ∈ call.arguments, operand.Keeps assigned)
    (target : ∀ name value, call.tree = .assign name value → assigned name)
    (isAssignment : call.name = ":=") (two : call.arguments.length = 2) :
    Keeps assigned (assign call) := by
  unfold assign
  split
  · rename_i written value rest split
    split
    · rename_i name isVariable
      -- With two operands the call is the assignment itself.
      have isTarget : assigned name := by
        apply target name value.tree
        rw [split] at two
        obtain rfl : rest = [] := by simpa using two
        rw [Call.tree, split, isAssignment]
        simp [isVariable, Expr.assign]
      refine (keeps value (by simp [split])).bind fun result => ?_
      refine Keeps.bind (.of_after fun machine => ?_) fun _ => keeps_pure _
      exact Scope.keeps_assign isTarget machine.scope result
    · exact keeps_throw _
  · exact keeps_throw _

theorem keeps_choose {call : Call} (keeps : ∀ operand ∈ call.arguments, operand.Keeps assigned) :
    Keeps assigned (choose call) := by
  -- The condition and one of the branches are evaluated.
  unfold choose
  split
  · rename_i condition positive otherwise rest split
    rw [split] at keeps
    refine ((keeps condition (by simp)).resolve _).bind fun number => ?_
    dsimp only
    split
    · exact (keeps positive (by simp)).require _
    · exact (keeps otherwise (by simp)).require _
  · exact keeps_throw _

theorem keeps_times {body : Argument} (keeps : body.Keeps assigned) (count : Nat) (last : Expr) :
    Keeps assigned (times body count last) := by
  -- Each round keeps the variables, whatever the round before it gave.
  induction count generalizing last with
  | zero => exact keeps_pure _
  | succ count ih => exact (keeps.require _).bind ih

theorem keeps_repeated {call : Call} (keeps : ∀ operand ∈ call.arguments, operand.Keeps assigned) :
    Keeps assigned (repeated call) := by
  -- The count is resolved, and then the body is evaluated round by round.
  unfold repeated
  split
  · rename_i count body rest split
    rw [split] at keeps
    refine ((keeps count (by simp)).resolve _).bind fun number before => ?_
    refine .guard fun _ => .guard fun _ => ?_
    exact keeps_times (keeps body (by simp)) _ _ before
  · exact keeps_throw _

theorem keeps_randomlyPicked {call : Call}
    (keeps : ∀ operand ∈ call.arguments, operand.Keeps assigned) :
    Keeps assigned (randomlyPicked call) := by
  -- The toss changes the generator only.
  unfold randomlyPicked
  split
  · rename_i first second rest split
    rw [split] at keeps
    refine Keeps.bind (fun _ => .toss) fun side => ?_
    split
    · exact keeps first (by simp)
    · exact keeps second (by simp)
  · exact keeps_throw _

section Sum

variable {start stop counter step body : Argument}

theorem keeps_sumRange (startKeeps : start.Keeps assigned) (stopKeeps : stop.Keeps assigned)
    (stepKeeps : step.Keeps assigned) : Keeps assigned (sumRange start stop counter step) := by
  -- The operands are resolved in order, and the checks behind them change nothing.
  refine (startKeeps.resolve _).bind fun _ => (stopKeeps.resolve _).bind fun _ => ?_
  refine (keeps_ofExcept _).bind fun _ => (stepKeeps.resolve _).bind fun _ before => ?_
  refine .guard fun _ => .guard fun _ => .bind .scope fun _ => ?_
  exact .guard fun _ => .pure _

/-- A sum whose range is settled has a variable that is not bound. -/
theorem unbound_of_sumRange {machine head : Machine} {name : String} {first : Float}
    {progression : Progression}
    (settled : sumRange start stop counter step machine = .ok (name, first, progression) head) :
    head.scope.contains name = false := by
  -- The bounds, the variable and the step come first, then two checks of the numbers.
  obtain ⟨_, _, _, settled⟩ := bind_eq_ok settled
  obtain ⟨_, _, _, settled⟩ := bind_eq_ok settled
  obtain ⟨_, _, _, settled⟩ := bind_eq_ok settled
  obtain ⟨_, _, _, settled⟩ := bind_eq_ok settled
  obtain ⟨_, settled⟩ := guard_eq_ok settled
  obtain ⟨_, settled⟩ := guard_eq_ok settled
  -- The last check looks at the variables that the loop starts with.
  obtain ⟨scope, between, looked, checked⟩ := bind_eq_ok settled
  obtain ⟨unbound, returned⟩ := guard_eq_ok checked
  obtain ⟨rfl, rfl⟩ := scope_eq_ok looked
  obtain ⟨result, rfl⟩ := pure_eq_ok returned
  obtain ⟨rfl, _⟩ := Prod.mk.inj result
  simpa using unbound

/-- A sum keeps the variables that its loop starts with and leaves its own unbound. -/
theorem after_summed {call : Call} {rest : List Argument} {machine head : Machine} {name : String}
    {first : Float} {progression : Progression}
    (split : call.arguments = start :: stop :: counter :: step :: body :: rest)
    (bodyKeeps : body.Keeps assigned)
    (settled : sumRange start stop counter step machine = .ok (name, first, progression) head) :
    head.scope.Keeps assigned ((summed call).after machine).scope ∧
      ((summed call).after machine).scope.contains name = false := by
  -- A visit sets the counter and evaluates the body, so the loop stays inside its frame.
  have visited : ∀ counter next sum : Float, Preserves (Scope.Inside assigned name head.scope)
      (do
        modifyScope (·.bindLocal name (.num counter))
        return addend sum (← body.evaluate)) :=
    fun _ _ _ => preserves_bindLocal (bodyKeeps.bind fun _ => keeps_pure _)
  have swept := withFrame_run (unbound_of_sumRange settled) visited progression
    (.stepTooSmall "for" progression.step) first 0
  have run : (summed call).after machine = (withFrame (progression.run
      (.stepTooSmall "for" progression.step) (fun counter _ sum => do
        modifyScope (·.bindLocal name (.num counter))
        return addend sum (← body.evaluate)) first 0)).after head := by
    simp only [summed, split]
    rw [after_bind_of_ok settled]
    exact after_bind_pure _ _ head
  rwa [run]

/-- A sum keeps the variables. -/
theorem keeps_summed {call : Call} (keeps : ∀ operand ∈ call.arguments, operand.Keeps assigned) :
    Keeps assigned (summed call) := by
  rcases call with ⟨name, arguments⟩
  match arguments with
  | start :: stop :: counter :: step :: body :: rest =>
    -- The range keeps the variables, and so does the loop where it is reached.
    have range : Keeps assigned (sumRange start stop counter step) :=
      keeps_sumRange (keeps start (by simp)) (keeps stop (by simp)) (keeps step (by simp))
    refine .of_after fun machine => ?_
    have settling := range.after machine
    cases settled : sumRange start stop counter step machine with
    | ok result head =>
      obtain ⟨name, first, progression⟩ := result
      rw [after_of_ok settled] at settling
      exact settling.trans (after_summed rfl (keeps body (by simp)) settled).1
    | error error head =>
      rw [after_of_error settled] at settling
      rwa [summed, after_bind_of_error settled]
  | [] | [_] | [_, _] | [_, _, _] | [_, _, _, _] => exact keeps_throw _

end Sum

section Plot

variable {curve variableName minimum maximum step : Argument} {rest : List Argument}

/-- A plot has the effect of nothing, or of its loop over a variable that is not bound. -/
theorem preserves_plotted (assigned : String → Prop) {call : Call} {invariant : Scope → Prop}
    (split : call.arguments = curve :: variableName :: minimum :: maximum :: step :: rest)
    (closed : ∀ (name : String) (before after : Scope),
      boundVariable "plot" variableName.tree = .ok name → before.contains name = false →
      before.Keeps assigned after → after.contains name = false →
      invariant before → invariant after) :
    Preserves invariant (plotted call) := by
  -- Measuring evaluates nothing, so up to the loop the variables do not change.
  have measured : ∀ argument : Argument, Preserves invariant argument.measure :=
    fun argument => .bind .scope fun _ => .ofExcept _
  simp only [plotted, split]
  refine (Preserves.ofExcept _).bind_of_ok fun _ name between named holds => ?_
  refine Preserves.bind (measured minimum) (fun low => ?_) between holds
  refine (measured maximum).bind fun high => (measured step).bind fun width => ?_
  -- Behind the check the variables are still those that were looked at.
  refine .guard fun _ => Preserves.scope.bind_of_ok fun _ scope _ looked holds => ?_
  obtain ⟨rfl, rfl⟩ := scope_eq_ok looked
  rename_i machine
  by_cases bound : machine.scope.contains name = true
  · rw [if_pos bound]
    exact holds
  rw [if_neg bound]
  suffices kept : Preserves (fun scope => invariant scope ∧ scope.contains name = false) _ from
    (kept machine ⟨holds, by simpa using bound⟩).1
  refine .guard fun _ => .guard fun _ => .bind ?_ fun points => .bind (.draw _) fun _ => .pure _
  rintro machine ⟨holds, unbound⟩
  have visited : ∀ (counter next : Float) (points : List (Float × Float)),
      Preserves (Scope.Inside assigned name machine.scope) (do
        modifyScope (·.bindLocal name (.num next))
        return (next, ← curve.measure) :: points) :=
    fun _ _ _ => preserves_bindLocal ((Argument.keeps_measure curve).bind fun _ => keeps_pure _)
  have swept := withFrame_run unbound visited ⟨high, width⟩ (.stepTooSmall "plot" width)
    (low - width) []
  exact ⟨closed name _ _ (ofExcept_eq_ok named) unbound swept.1 swept.2 holds, swept.2⟩

/-- A plot keeps the variables. -/
theorem keeps_plotted (call : Call) : Keeps assigned (plotted call) := by
  -- Without five operands the call fails before anything is done.
  rcases call with ⟨name, arguments⟩
  match arguments with
  | curve :: variableName :: minimum :: maximum :: step :: rest =>
    intro before
    exact preserves_plotted assigned rfl fun _ _ _ _ _ looped _ kept => kept.trans looped
  | [] | [_] | [_, _] | [_, _, _] | [_, _, _, _] => exact keeps_throw _

end Plot

end Operation

omit assigned in
/-- A handler that is found is one of the entries. -/
theorem Registry.mem_of_find? {registry : Registry} {name : String} {handler : Handler}
    (found : registry.find? name = some handler) : (name, handler) ∈ registry.entries := by
  -- Whatever a lookup finds is one of the entries.
  obtain ⟨before, behind, split, _⟩ := List.lookup_eq_some_iff.1 found
  simp [split]

omit assigned in
/-- What holds of each built-in operation with its handler holds of every handler that is found. -/
@[elab_as_elim] theorem Registry.builtin_cases {motive : String → Handler → Prop} {name : String}
    {handler : Handler} (found : Registry.builtin.find? name = some handler)
    (arithmetic : ∀ name arity, motive name ⟨arity, Operation.arithmetic⟩)
    (toDouble : motive "toDouble" ⟨1, Operation.toDouble⟩)
    (simplified : motive "simplify" ⟨1, Operation.simplified⟩)
    (plotted : motive "plot" ⟨5, Operation.plotted⟩)
    (assign : motive ":=" ⟨2, Operation.assign⟩)
    (choose : motive "if" ⟨3, Operation.choose⟩)
    (repeated : motive "repeat" ⟨2, Operation.repeated⟩)
    (summed : motive "for" ⟨5, Operation.summed⟩)
    (randomlyPicked : motive "randomlyPick" ⟨2, Operation.randomlyPicked⟩) :
    motive name handler := by
  have entry := Registry.mem_of_find? found
  simp only [Registry.builtin, List.mem_cons, List.not_mem_nil, or_false, Prod.mk.injEq] at entry
  rcases entry with ⟨rfl, rfl⟩ | ⟨rfl, rfl⟩ | ⟨rfl, rfl⟩ | ⟨rfl, rfl⟩ | ⟨rfl, rfl⟩ | ⟨rfl, rfl⟩ |
    ⟨rfl, rfl⟩ | ⟨rfl, rfl⟩ | ⟨rfl, rfl⟩ | ⟨rfl, rfl⟩ | ⟨rfl, rfl⟩ | ⟨rfl, rfl⟩ | ⟨rfl, rfl⟩ |
    ⟨rfl, rfl⟩ | ⟨rfl, rfl⟩ | ⟨rfl, rfl⟩
  -- The first eight entries compute by folding.
  iterate 8 exact arithmetic _ _
  · exact toDouble
  · exact simplified
  · exact plotted
  · exact assign
  · exact choose
  · exact repeated
  · exact summed
  · exact randomlyPicked

/-- Each built-in operation keeps the variables if its operands do, but for its own target. -/
theorem keeps_builtin {name : String} {handler : Handler} {call : Call}
    (found : Registry.builtin.find? name = some handler) (named : call.name = name)
    (arity : call.arguments.length = handler.arity)
    (keeps : ∀ operand ∈ call.arguments, operand.Keeps assigned)
    (target : ∀ name value, call.tree = .assign name value → assigned name) :
    Keeps assigned (handler.run call) := by
  -- The operations are taken one by one.
  revert named arity
  refine Registry.builtin_cases found ?_ ?_ ?_ ?_ ?_ ?_ ?_ ?_ ?_
  · exact fun _ _ _ _ => Operation.keeps_arithmetic keeps
  · exact fun _ _ => Operation.keeps_toDouble call
  · exact fun _ _ => Operation.keeps_simplified call
  · exact fun _ _ => Operation.keeps_plotted call
  · exact fun named arity => Operation.keeps_assign keeps target named arity
  · exact fun _ _ => Operation.keeps_choose keeps
  · exact fun _ _ => Operation.keeps_repeated keeps
  · exact fun _ _ => Operation.keeps_summed keeps
  · exact fun _ _ => Operation.keeps_randomlyPicked keeps

end Operations

/-- The operands as they are written are those of the dispatched call. -/
theorem map_tree_arguments (registry : Registry) (operands : List Expr) :
    (arguments registry operands).map (·.tree) = operands := by
  -- Each argument keeps the tree of its operand.
  induction operands with
  | nil => rfl
  | cons first rest ih => simp [arguments, ih]

/-- There is one argument for each operand. -/
theorem length_arguments (registry : Registry) (operands : List Expr) :
    (arguments registry operands).length = operands.length := by
  -- Each operand has one argument, which keeps its tree.
  rw [← List.length_map (·.tree), map_tree_arguments]

/-- What an operand assigns, the operation assigns. -/
theorem Expr.Assigns.operand {name target : String} {operands : List Expr} {operand : Expr}
    (member : operand ∈ operands) (assigns : operand.Assigns target) :
    (Expr.op name operands).Assigns target := by
  -- A part of an operand is a part of the operation.
  obtain ⟨value, part⟩ := assigns
  exact ⟨value, .operand member part⟩

mutual

/-- Evaluation keeps the variables but for the assignments in the expression. -/
theorem keeps_evaluate (expr : Expr) : Keeps expr.Assigns (evaluate .builtin expr) := by
  -- An operation is dispatched with operands that keep the variables already.
  cases expr with
  | num value => exact keeps_pure _
  | var name => exact keeps_scope.bind fun _ => keeps_pure _
  | op name operands =>
    rw [evaluate]
    split
    · exact keeps_throw _
    · rename_i handler found
      split
      · rename_i arity
        refine keeps_builtin found rfl ((length_arguments _ _).trans arity) ?_ ?_
        · intro argument member
          obtain ⟨operand, isOperand, keeps⟩ := keeps_arguments operands argument member
          exact keeps.mono fun _ assigns => assigns.operand isOperand
        · intro target value tree
          refine ⟨value, ?_⟩
          rw [Call.tree, map_tree_arguments] at tree
          rw [← tree]
          exact .whole
      · exact keeps_throw _

/-- Each operand keeps the variables but for its own assignments. -/
theorem keeps_arguments (operands : List Expr) : ∀ argument ∈ arguments .builtin operands,
    ∃ operand ∈ operands, argument.Keeps operand.Assigns := by
  -- Each argument evaluates the operand at its place.
  intro argument member
  cases operands with
  | nil => exact absurd member (by simp [arguments])
  | cons first rest =>
    rw [arguments, List.mem_cons] at member
    rcases member with rfl | member
    · exact ⟨first, by simp, keeps_evaluate first⟩
    · obtain ⟨operand, isOperand, keeps⟩ := keeps_arguments rest argument member
      exact ⟨operand, by simp [isOperand], keeps⟩

end

namespace Session

/-- What a session can be asked for. -/
inductive Request where
  | interpret (input : String)
  | evaluate (expr : Expr)

/-- The session that a request leaves behind, whether it succeeds or fails. -/
def serve (session : Session) : Request → Session
  | .interpret input => (session.interpret input).2
  | .evaluate expr => (session.evaluate expr).2

/-- An evaluation leaves the session behind with the machine that it ends with. -/
theorem evaluate_snd (session : Session) (expr : Expr) :
    (session.evaluate expr).2 =
      { session with
        machine := (Calculator.evaluate session.registry expr).after session.machine } := by
  -- Whether the evaluation succeeds or fails, the session keeps the machine that it leaves.
  unfold Session.evaluate
  split
  · rename_i ran
    rw [after_of_ok ran]
  · rename_i ran
    rw [after_of_error ran]

/-- An input that is read leaves the session behind that its evaluation does. -/
theorem interpret_snd (session : Session) (input : String) :
    (session.interpret input).2 =
      match readExpr input with
      | .ok expr => (session.evaluate expr).2
      | .error _ => session := by
  -- An input that is not read leaves the session as it is.
  unfold interpret
  cases readExpr input with
  | error failure => rfl
  | ok expr =>
    simp only
    split <;> simp_all

/-- Requests keep the operations and the number of frames. -/
theorem serve_depth {session : Session} (builtin : session.registry = .builtin)
    (request : Request) :
    (session.serve request).registry = .builtin ∧
      (session.serve request).machine.scope.depth = session.machine.scope.depth := by
  -- Both requests come down to an evaluation, which keeps the number of frames.
  have evaluated : ∀ expr, (session.evaluate expr).2.registry = .builtin ∧
      (session.evaluate expr).2.machine.scope.depth = session.machine.scope.depth := by
    intro expr
    rw [evaluate_snd, builtin]
    exact ⟨rfl, ((keeps_evaluate expr).after session.machine).depth_eq⟩
  cases request with
  | evaluate expr => exact evaluated expr
  | interpret input =>
    rw [serve, interpret_snd]
    cases readExpr input with
    | error failure => exact ⟨builtin, rfl⟩
    | ok expr => exact evaluated expr

/-- Any number of requests keeps the number of frames. -/
theorem foldl_serve_depth {session : Session} (builtin : session.registry = .builtin)
    (requests : List Request) :
    (requests.foldl serve session).machine.scope.depth = session.machine.scope.depth := by
  -- The requests are served one after another, each by a session with the built-in operations.
  induction requests generalizing session with
  | nil => rfl
  | cons request rest ih =>
    obtain ⟨still, depth⟩ := serve_depth builtin request
    rw [List.foldl_cons, ih still, depth]

end Session

/--
Evaluation never damages the stack of frames, whether it succeeds or fails.

The frames are as many as before; all but the global one bind the names that they bound, and the
global one also binds these, and beyond them only targets of assignments in the expression. A sum
whose variable was found unbound, and a plot whose variable was, leave it unbound in every frame,
and a session is back in its global frame after any requests.
-/
theorem evaluate_keeps_frames :
    (∀ (expr : Expr) (machine : Machine),
      ((evaluate .builtin expr).after machine).scope.depth = machine.scope.depth ∧
      List.Forall₂ (fun before after : Frame => ∀ name, after.contains name = before.contains name)
        machine.scope.locals ((evaluate .builtin expr).after machine).scope.locals ∧
      (∀ name, machine.scope.globals.contains name = true →
        ((evaluate .builtin expr).after machine).scope.globals.contains name = true) ∧
      ∀ name, ((evaluate .builtin expr).after machine).scope.globals.contains name = true →
        machine.scope.globals.contains name = false →
        ∃ value, Expr.IsPart (.assign name value) expr) ∧
    (∀ (start stop counter step body : Expr) (machine head : Machine) (name : String)
      (first : Float) (progression : Progression),
      Operation.sumRange ⟨start, evaluate .builtin start⟩ ⟨stop, evaluate .builtin stop⟩
        ⟨counter, evaluate .builtin counter⟩ ⟨step, evaluate .builtin step⟩ machine =
          .ok (name, first, progression) head →
      ((evaluate .builtin (.op "for" [start, stop, counter, step, body])).after
        machine).scope.contains name = false) ∧
    (∀ (curve variableName minimum maximum step : Expr) (machine : Machine) (name : String),
      boundVariable "plot" variableName = .ok name → machine.scope.contains name = false →
      ((evaluate .builtin (.op "plot" [curve, variableName, minimum, maximum, step])).after
        machine).scope.contains name = false) ∧
    ∀ (sink : Sink) (random : Generator) (requests : List Session.Request),
      (requests.foldl Session.serve (.start .builtin sink random)).machine.scope.depth = 1 := by
  -- All parts follow from what an evaluation keeps; sums and plots leave the frame they enter.
  refine ⟨?_, ?_, ?_, ?_⟩
  · intro expr machine
    have kept := (keeps_evaluate expr).after machine
    exact ⟨kept.depth_eq, kept.locals, kept.globals,
      fun name bound unbound => (kept.fresh name bound unbound).1⟩
  · intro start stop counter step body machine head name first progression settled
    have dispatched : evaluate .builtin (.op "for" [start, stop, counter, step, body]) =
        Operation.summed ⟨"for", arguments .builtin [start, stop, counter, step, body]⟩ := rfl
    have bodyKeeps : Argument.Keeps body.Assigns ⟨body, evaluate .builtin body⟩ :=
      keeps_evaluate body
    rw [dispatched]
    exact (Operation.after_summed rfl bodyKeeps settled).2
  · intro curve variableName minimum maximum step machine name named unbound
    have dispatched : evaluate .builtin
        (.op "plot" [curve, variableName, minimum, maximum, step]) = Operation.plotted
          ⟨"plot", arguments .builtin [curve, variableName, minimum, maximum, step]⟩ := rfl
    have kept : Preserves (·.contains name = false) (Operation.plotted
        ⟨"plot", arguments .builtin [curve, variableName, minimum, maximum, step]⟩) := by
      refine Operation.preserves_plotted (fun _ => False) rfl ?_
      intro other before after sameName _ _ stillUnbound _
      obtain rfl := Except.ok.inj (named.symm.trans sameName)
      exact stillUnbound
    rw [dispatched]
    exact kept machine unbound
  · intro sink random requests
    exact Session.foldl_serve_depth rfl requests

/-- A machine inside a loop over `x`, with a global `z`. -/
private def sampleMachine : Machine :=
  ⟨⟨[⟨[("x", .num 4)]⟩], ⟨[("z", .num 5)]⟩⟩, .recording [], .ofSeed 7⟩

/-- A counter that its body assigns to is gone after the sum, a plotted variable after the plot,
and a name that is new in the global frame has an assignment. -/
theorem evaluate_keeps_frames_samples :
    ((evaluate .builtin (.op "for" [.num 3, .num 0, .var "i", .num (-1),
      .assign "i" (.num 7)])).after sampleMachine).scope.contains "i" = false ∧
    ((evaluate .builtin (.op "plot" [.var "i", .var "i", .num 0, .num 2,
      .num 1])).after sampleMachine).scope.contains "i" = false ∧
    ((evaluate .builtin (.assign "y" (.var "x"))).after sampleMachine).scope.depth = 2 ∧
    ((evaluate .builtin (.assign "y" (.var "x"))).after sampleMachine).scope.globals.contains "z" =
      true ∧
    ∃ value, Expr.IsPart (.assign "y" value) (.assign "y" (.var "x")) := by
  -- The range of the sum is settled by evaluation, and the names are looked up in the sample.
  obtain ⟨frames, sums, plots, _⟩ := evaluate_keeps_frames
  have settled : Operation.sumRange ⟨.num 3, evaluate .builtin (.num 3)⟩
      ⟨.num 0, evaluate .builtin (.num 0)⟩ ⟨.var "i", evaluate .builtin (.var "i")⟩
      ⟨.num (-1), evaluate .builtin (.num (-1))⟩ sampleMachine =
        .ok ("i", 2, ⟨0, -1⟩) sampleMachine := rfl
  have unbound : sampleMachine.scope.contains "i" = false := by decide
  have bound : sampleMachine.scope.globals.contains "z" = true := by decide
  have newly : ((evaluate .builtin (.assign "y" (.var "x"))).after
      sampleMachine).scope.globals.contains "y" = true := by decide
  obtain ⟨depth, _, kept, fresh⟩ := frames (.assign "y" (.var "x")) sampleMachine
  exact ⟨sums _ _ _ _ _ _ _ _ _ _ settled, plots _ _ _ _ _ _ "i" rfl unbound, depth,
    kept "z" bound, fresh "y" newly (by decide)⟩

end Calculator
