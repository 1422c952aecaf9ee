import Calculator.Proofs.Evaluation.Invariant
import Calculator.Proofs.Scope.Order
import Mathlib.Logic.Function.Basic

/-! Frames of bindings refine one stack of bindings for each name. -/

namespace Calculator

/-- What can be done to variables. -/
inductive Scope.Move where
  | assign (name : String) (value : Expr)
  | bindLocal (name : String) (value : Expr)
  | remove (name : String)
  | clear
  | enter
  | leave

/-- For each name its bindings, each with the level of its frame, the innermost first. The global
frame has the level zero. -/
@[ext] structure Stacks where
  /-- The level of the innermost frame. -/
  level : Nat
  of : String → List (Nat × Expr)

namespace Stacks

/-- Nothing is bound, and only the global frame is there. -/
def empty : Stacks := ⟨0, fun _ => []⟩

/-- Changes the stack of one name and no other. -/
def modify (held : Stacks) (name : String) (change : List (Nat × Expr) → List (Nat × Expr)) :
    Stacks :=
  { held with of := Function.update held.of name (change (held.of name)) }

/-- Gives the innermost binding another value, or makes a global binding. -/
def assign (held : Stacks) (name : String) (value : Expr) : Stacks :=
  held.modify name fun
    | [] => [(0, value)]
    | (level, _) :: outer => (level, value) :: outer

/-- Binds a name at the innermost level, in place of a binding that it has there. -/
def bindLocal (held : Stacks) (name : String) (value : Expr) : Stacks :=
  held.modify name fun stack =>
    if stack.head?.map (·.1) = some held.level then (held.level, value) :: stack.tail
    else (held.level, value) :: stack

/-- Takes the innermost binding of a name away. -/
def remove (held : Stacks) (name : String) : Stacks := held.modify name List.tail

/-- Enters a frame. -/
def enter (held : Stacks) : Stacks := { held with level := held.level + 1 }

/-- Leaves a frame with the bindings of its level. The global frame is never left. -/
def leave (held : Stacks) : Stacks :=
  if held.level = 0 then held
  else ⟨held.level - 1, fun name => (held.of name).filter (·.1 != held.level)⟩

/-- Moves on stacks. -/
def move (held : Stacks) : Scope.Move → Stacks
  | .assign name value => held.assign name value
  | .bindLocal name value => held.bindLocal name value
  | .remove name => held.remove name
  | .clear => .empty
  | .enter => held.enter
  | .leave => held.leave

end Stacks

namespace Scope

section View

/-- The bindings of a name in some frames, the innermost first. The level of a frame is the number
of frames around it. -/
def stackIn (name : String) : List Frame → List (Nat × Expr)
  | [] => []
  | frame :: outer => ((frame.get? name).map (outer.length, ·)).toList ++ stackIn name outer

/-- The stack of each name. -/
def toStacks (scope : Scope) : Stacks :=
  ⟨scope.locals.length, fun name => stackIn name scope.frames⟩

variable {name other : String} {value : Expr} {frame : Frame} {outer : List Frame}

/-- A frame that binds the name has the head of the stack. -/
theorem stackIn_of_bound (bound : frame.get? name = some value) :
    stackIn name (frame :: outer) = (outer.length, value) :: stackIn name outer := by
  -- The frame adds its value on top.
  simp [stackIn, bound]

/-- A frame that does not bind the name is passed over. -/
theorem stackIn_of_unbound (unbound : frame.get? name = none) :
    stackIn name (frame :: outer) = stackIn name outer := by
  -- The frame adds nothing.
  simp [stackIn, unbound]

/-- Levels are below the number of frames. -/
theorem level_lt {frames : List Frame} {binding : Nat × Expr}
    (member : binding ∈ stackIn name frames) : binding.1 < frames.length := by
  -- The innermost frame has as many frames around it as are left, and all others have fewer.
  induction frames with
  | nil => exact absurd member List.not_mem_nil
  | cons frame outer ih =>
    cases bound : frame.get? name with
    | none =>
      rw [stackIn_of_unbound bound] at member
      exact Nat.lt_succ_of_lt (ih member)
    | some value =>
      rw [stackIn_of_bound bound, List.mem_cons] at member
      rcases member with rfl | member
      · exact Nat.lt_succ_self _
      · exact Nat.lt_succ_of_lt (ih member)

/-- Levels fall from the innermost binding outwards. -/
theorem pairwise_level (name : String) (frames : List Frame) :
    (stackIn name frames).Pairwise fun inner outer => outer.1 < inner.1 := by
  -- By induction on the frames; the binding on top has the level of its own frame.
  induction frames with
  | nil => exact .nil
  | cons frame outer ih =>
    cases bound : frame.get? name with
    | none => rwa [stackIn_of_unbound bound]
    | some value =>
      rw [stackIn_of_bound bound]
      exact .cons (fun binding member => level_lt member) ih

/-- No level is above that of the innermost frame. -/
theorem level_le {scope : Scope} {binding : Nat × Expr}
    (member : binding ∈ scope.toStacks.of name) : binding.1 ≤ scope.toStacks.level := by
  have below : binding.1 < scope.frames.length := level_lt member
  -- The global frame is there in addition to the local ones.
  simp only [frames, List.length_append, List.length_singleton] at below
  exact Nat.le_of_lt_succ below

/-- The innermost value is the head of the stack. -/
theorem get?_eq_head? (scope : Scope) (name : String) :
    scope.get? name = ((scope.toStacks.of name).head?).map (·.2) := by
  -- By induction on the frames; the first that binds the name has its value on top.
  rw [get?, toStacks]
  induction scope.frames with
  | nil => rfl
  | cons frame outer ih =>
    cases bound : frame.get? name with
    | none => simp [bound, stackIn_of_unbound, ih]
    | some value => simp [bound, stackIn_of_bound]

/-- A name is bound if its stack is not empty. -/
theorem contains_iff (scope : Scope) (name : String) :
    scope.contains name = true ↔ scope.toStacks.of name ≠ [] := by
  -- By induction on the frames; one binding is enough for both.
  rw [contains, toStacks]
  induction scope.frames with
  | nil => simp [stackIn]
  | cons frame outer ih =>
    cases bound : frame.get? name with
    | none => simp [Frame.contains, bound, stackIn_of_unbound, ← ih]
    | some value => simp [Frame.contains, bound, stackIn_of_bound]

end View

section Operations

variable {name other : String} {change : Frame → Frame}

/-- The global frame is the one that is changed where there is no other. -/
theorem frames_modifyBinder_nil (name : String) (change : Frame → Frame) (globals : Frame) :
    (modifyBinder ⟨[], globals⟩ name change).frames = [change globals] := rfl

/-- The search for the binder of a name passes one frame after another. -/
theorem frames_modifyBinder_cons (name : String) (change : Frame → Frame) (frame : Frame)
    (outer : List Frame) (globals : Frame) :
    (modifyBinder ⟨frame :: outer, globals⟩ name change).frames =
      if frame.contains name then change frame :: frames ⟨outer, globals⟩
      else frame :: (modifyBinder ⟨outer, globals⟩ name change).frames := by
  -- The search ends at the first frame that binds the name.
  by_cases bound : frame.contains name = true
  · simp [modifyBinder, modifyBinder?, bound, frames]
  · simp only [modifyBinder, modifyBinder?, if_neg bound]
    cases modifyBinder? name change outer <;> rfl

/-- Changing a binder leaves as many frames. -/
theorem length_frames_modifyBinder (scope : Scope) (name : String) (change : Frame → Frame) :
    (scope.modifyBinder name change).frames.length = scope.frames.length := by
  -- By induction on the local frames; a change replaces one frame by another.
  obtain ⟨locals, globals⟩ := scope
  induction locals with
  | nil => rfl
  | cons frame outer ih =>
    rw [frames_modifyBinder_cons]
    split
    · rfl
    · simpa [frames] using ih

/-- The new value of a binder takes the place of the head, at the level of the head or globally. -/
theorem stackIn_modifyBinder (scope : Scope) {replacement : Option Expr}
    (changed : ∀ frame : Frame, (change frame).get? name = replacement) :
    stackIn name (scope.modifyBinder name change).frames =
      (replacement.map ((((stackIn name scope.frames).head?.map (·.1)).getD 0), ·)).toList ++
        (stackIn name scope.frames).tail := by
  obtain ⟨locals, globals⟩ := scope
  induction locals with
  | nil =>
    -- The global frame is changed, whether it binds the name or not.
    rw [frames_modifyBinder_nil]
    cases bound : globals.get? name <;> simp [frames, stackIn, changed, bound]
  | cons frame outer ih =>
    have passed : frames ⟨frame :: outer, globals⟩ = frame :: frames ⟨outer, globals⟩ := rfl
    rw [frames_modifyBinder_cons, passed]
    cases bound : frame.get? name with
    | none =>
      -- The frame is passed over by the search and by the stack alike.
      rw [if_neg (by simp [Frame.contains, bound]), stackIn_of_unbound bound,
        stackIn_of_unbound bound, ih]
    | some value =>
      -- The frame is the binder, and it has the head of the stack.
      rw [if_pos (by simp [Frame.contains, bound]), stackIn_of_bound bound]
      simp [stackIn, changed]

/-- The stack of another name is left. -/
theorem stackIn_modifyBinder_of_kept (scope : Scope) (name : String)
    (kept : ∀ frame : Frame, (change frame).get? other = frame.get? other) :
    stackIn other (scope.modifyBinder name change).frames = stackIn other scope.frames := by
  obtain ⟨locals, globals⟩ := scope
  induction locals with
  | nil =>
    rw [frames_modifyBinder_nil]
    simp [frames, stackIn, kept]
  | cons frame outer ih =>
    have passed : frames ⟨frame :: outer, globals⟩ = frame :: frames ⟨outer, globals⟩ := rfl
    rw [frames_modifyBinder_cons, passed]
    split
    · simp [stackIn, kept]
    · -- The frame keeps its level, since as many frames stand around it as before.
      rw [stackIn, stackIn, ih, length_frames_modifyBinder]

/-- Changing what a binder holds under its name changes the stack of that name. -/
theorem toStacks_modifyBinder (scope : Scope) {replacement : Option Expr}
    (changed : ∀ (frame : Frame) (other : String),
      (change frame).get? other = if other = name then replacement else frame.get? other) :
    (scope.modifyBinder name change).toStacks = scope.toStacks.modify name fun stack =>
      (replacement.map (((stack.head?.map (·.1)).getD 0), ·)).toList ++ stack.tail := by
  -- The levels stay, the changed name loses its top, and all others keep their stacks.
  apply Stacks.ext
  · have lengths := length_frames_modifyBinder scope name change
    simpa [frames, toStacks, Stacks.modify] using lengths
  · funext other
    by_cases same : other = name
    · subst same
      have replaced := stackIn_modifyBinder scope fun frame =>
        (changed frame other).trans (if_pos rfl)
      simp [Stacks.modify, toStacks, replaced]
    · have kept := stackIn_modifyBinder_of_kept scope name fun frame =>
        (changed frame other).trans (if_neg same)
      simp [Stacks.modify, toStacks, kept, same]

/-- Assigning gives the head another value, or makes a global binding. -/
theorem toStacks_assign (scope : Scope) (name : String) (value : Expr) :
    (scope.assign name value).toStacks = scope.toStacks.assign name value := by
  rw [assign, toStacks_modifyBinder scope fun frame other => frame.get?_insert name other value,
    Stacks.assign]
  congr 1
  funext stack
  -- The head decides the level, and without one it is that of the global frame.
  cases stack <;> rfl

/-- Removing pops the head. -/
theorem toStacks_remove (scope : Scope) (name : String) :
    (scope.remove name).2.toStacks = scope.toStacks.remove name :=
  toStacks_modifyBinder scope fun frame other => frame.get?_erase name other

/-- A binding in the innermost frame replaces the head if that is there, and else is pushed. -/
theorem stackIn_insert (name : String) (value : Expr) (frame : Frame) (outer : List Frame) :
    stackIn name (frame.insert name value :: outer) =
      let stack := stackIn name (frame :: outer)
      if stack.head?.map (·.1) = some outer.length then (outer.length, value) :: stack.tail
      else (outer.length, value) :: stack := by
  have bound : (frame.insert name value).get? name = some value := by
    simp [Frame.get?_insert]
  rw [stackIn_of_bound bound]
  cases before : frame.get? name with
  | some old => simp [stackIn_of_bound before]
  | none =>
    -- All other levels are below that of the innermost frame.
    have apart : (stackIn name outer).head?.map (·.1) ≠ some outer.length := by
      intro same
      obtain ⟨binding, isHead, same⟩ := Option.map_eq_some_iff.mp same
      have below := level_lt (List.mem_of_mem_head? isHead)
      omega
    simp only [stackIn_of_unbound before, if_neg apart]

/-- Binding locally replaces the head if it is at the innermost level, and else pushes. -/
theorem toStacks_bindLocal (scope : Scope) (name : String) (value : Expr) :
    (scope.bindLocal name value).toStacks = scope.toStacks.bindLocal name value := by
  -- The innermost frame may be a local one or the global one.
  obtain ⟨frame, outer, before, after, level, sameLevel⟩ : ∃ frame outer,
      scope.frames = frame :: outer ∧
      (scope.bindLocal name value).frames = frame.insert name value :: outer ∧
      scope.locals.length = outer.length ∧
      (scope.bindLocal name value).locals.length = outer.length := by
    obtain ⟨locals, globals⟩ := scope
    cases locals with
    | nil => exact ⟨globals, [], rfl, rfl, rfl, rfl⟩
    | cons frame rest =>
      exact ⟨frame, rest ++ [globals], rfl, rfl, by simp, by simp [bindLocal]⟩
  simp only [toStacks, before, after, level, sameLevel, Stacks.bindLocal, Stacks.modify]
  congr 1
  funext other
  by_cases same : other = name
  · subst same
    rw [stackIn_insert, Function.update_self]
  · simp [stackIn, Frame.get?_insert, same]

/-- Entering a frame binds nothing. -/
theorem toStacks_push (scope : Scope) : scope.push.toStacks = scope.toStacks.enter := by
  -- The new frame is empty.
  apply Stacks.ext
  · rfl
  · funext name
    exact stackIn_of_unbound rfl

/-- Without the bindings of the innermost level, those in the frames around it are left. -/
theorem filter_stackIn (name : String) (frame : Frame) (outer : List Frame) :
    (stackIn name (frame :: outer)).filter (·.1 != outer.length) = stackIn name outer := by
  -- All bindings of the outer frames have lower levels than the innermost one.
  have kept : (stackIn name outer).filter (·.1 != outer.length) = stackIn name outer := by
    rw [List.filter_eq_self]
    intro binding member
    simpa using Nat.ne_of_lt (level_lt member)
  cases bound : frame.get? name with
  | none => rw [stackIn_of_unbound bound, kept]
  | some value => simp [stackIn_of_bound bound, kept]

/-- Leaving a frame takes the bindings of its level away. -/
theorem toStacks_pop (scope : Scope) : scope.pop.toStacks = scope.toStacks.leave := by
  obtain ⟨locals, globals⟩ := scope
  cases locals with
  | nil => rfl
  | cons frame rest =>
    -- The frame that is left has the level that is taken off the stacks.
    have level : (toStacks ⟨frame :: rest, globals⟩).level = (rest ++ [globals]).length := by
      simp [toStacks]
    rw [Stacks.leave, if_neg (by simp [toStacks]), level]
    apply Stacks.ext
    · simp [toStacks, pop]
    · funext name
      exact (filter_stackIn name frame (rest ++ [globals])).symm

end Operations

section Moves

/-- Moves on frames. -/
def move (scope : Scope) : Move → Scope
  | .assign name value => scope.assign name value
  | .bindLocal name value => scope.bindLocal name value
  | .remove name => (scope.remove name).2
  | .clear => .empty
  | .enter => scope.push
  | .leave => scope.pop

/-- Each move does to the stacks what it does to the frames. -/
theorem toStacks_move (scope : Scope) (move : Move) :
    (scope.move move).toStacks = scope.toStacks.move move := by
  -- Each kind of move has its own lemma.
  cases move with
  | assign name value => exact scope.toStacks_assign name value
  | bindLocal name value => exact scope.toStacks_bindLocal name value
  | remove name => exact scope.toStacks_remove name
  | clear => rfl
  | enter => exact scope.toStacks_push
  | leave => exact scope.toStacks_pop

/-- Any number of moves does to the stacks what it does to the frames. -/
theorem toStacks_foldl_move (scope : Scope) (moves : List Move) :
    (moves.foldl move scope).toStacks = moves.foldl Stacks.move scope.toStacks := by
  -- By induction on the moves; each one is followed on both sides.
  induction moves generalizing scope with
  | nil => rfl
  | cons move rest ih => rw [List.foldl_cons, ih, toStacks_move, List.foldl_cons]

end Moves

section Scripts

open Evaluation

/-- A step of a script on the variables. A frame runs steps of its own and then succeeds, or fails
for a reason of its own. -/
inductive Step where
  | assign (name : String) (value : Expr)
  | bindLocal (name : String) (value : Expr)
  | remove (name : String)
  | clear
  | frame (steps : List Step) (failure : Option EvalError)

/-- Takes a step. Removing a name answers its value. -/
def Step.run : Step → Evaluation (Option Expr)
  | assign name value => do
    modifyScope (·.assign name value)
    return none
  | bindLocal name value => do
    modifyScope (·.bindLocal name value)
    return none
  | remove name => do
    let (value, scope) := (← scope).remove name
    modifyScope fun _ => scope
    return value
  | clear => do
    modifyScope fun _ => .empty
    return none
  | frame steps failure => withFrame do
    modify fun machine => steps.foldl (fun machine step => step.run.after machine) machine
    failure.elim (pure none) throw

/-- The moves that a step consists of. -/
def Step.moves : Step → List Move
  | assign name value => [.assign name value]
  | bindLocal name value => [.bindLocal name value]
  | remove name => [.remove name]
  | clear => [.clear]
  | frame steps _ => .enter :: (steps.flatMap moves ++ [.leave])

/-- While steps are taken from a machine on, a point is passed, and the moves have been made that
led there. A point inside a frame is passed while the frame is open. -/
inductive Passes : List Step → Machine → List Move → Machine → Prop
  | here {steps : List Step} {machine : Machine} : Passes steps machine [] machine
  | later {step : Step} {rest : List Step} {machine point : Machine} {moves : List Move}
      (passes : Passes rest (step.run.after machine) moves point) :
      Passes (step :: rest) machine (step.moves ++ moves) point
  | inside {steps rest : List Step} {failure : Option EvalError} {machine point : Machine}
      {moves : List Move}
      (passes : Passes steps { machine with scope := machine.scope.push } moves point) :
      Passes (.frame steps failure :: rest) machine (.enter :: moves) point

/-- What holds of a frame whenever it holds of its steps holds of every step. -/
@[induction_eliminator]
theorem Step.induction {motive : Step → Prop} (assign : ∀ name value, motive (.assign name value))
    (bindLocal : ∀ name value, motive (.bindLocal name value))
    (remove : ∀ name, motive (.remove name)) (clear : motive .clear)
    (frame : ∀ steps failure, (∀ step ∈ steps, motive step) → motive (.frame steps failure)) :
    ∀ step, motive step
  | .assign name value => assign name value
  | .bindLocal name value => bindLocal name value
  | .remove name => remove name
  | .clear => clear
  | .frame steps failure => frame steps failure fun step _ =>
    induction assign bindLocal remove clear frame step

/-- A frame is entered before its steps and left after them, whether it succeeds or fails. -/
theorem Step.after_frame (steps : List Step) (failure : Option EvalError) (machine : Machine) :
    let inner : Machine := { machine with scope := machine.scope.push }
    let ended := steps.foldl (fun machine step => step.run.after machine) inner
    (frame steps failure).run.after machine = { ended with scope := ended.scope.pop } := by
  -- A frame is left in the same way after a failure.
  intro inner ended
  rw [run]
  cases failure <;> rfl

/-- A step leaves the variables behind that its moves do. -/
theorem Step.scope_run (step : Step) (machine : Machine) :
    (step.run.after machine).scope = step.moves.foldl move machine.scope := by
  induction step generalizing machine with
  | assign name value | bindLocal name value | remove name | clear =>
    rw [run, moves]
    rfl
  | frame steps failure ih =>
    -- The steps inside start from any machine, since each starts where the one before it ended.
    have inner (machine : Machine) :
        (steps.foldl (fun machine step => step.run.after machine) machine).scope =
          (steps.flatMap moves).foldl move machine.scope := by
      induction steps generalizing machine with
      | nil => rfl
      | cons step rest rest_ih =>
        simp only [List.forall_mem_cons] at ih
        rw [List.foldl_cons, rest_ih ih.2, ih.1, List.flatMap_cons, List.foldl_append]
    simp only [after_frame, inner, moves, List.foldl_cons, List.foldl_append, List.foldl_nil]
    rfl

/-- The variables at a point are those that the moves up to there lead to. -/
theorem Passes.scope {steps : List Step} {machine point : Machine} {moves : List Move}
    (passes : Passes steps machine moves point) :
    point.scope = moves.foldl move machine.scope := by
  -- Steps that are over have made all their moves; an open frame has only been entered.
  induction passes with
  | here => rfl
  | later _ ih => rw [ih, Step.scope_run, List.foldl_append]
  | inside _ ih => exact ih

/-- The frames that are open after a further move, the innermost first. Each is marked when the
variables are cleared inside it. -/
def mark (marks : List Bool) : Move → List Bool
  | .enter => false :: marks
  | .leave => marks.tail
  | .clear => marks.map fun _ => true
  | .assign _ _ | .bindLocal _ _ | .remove _ => marks

/-- The open frames without a mark are the innermost ones, and there are as many as levels above
the global one. -/
def Marked (held : Stacks) (marks : List Bool) : Prop :=
  ∃ cleared, marks = .replicate held.level false ++ .replicate cleared true

/-- There are as many open frames without a mark as levels above the global one. -/
theorem Marked.count_false {held : Stacks} {marks : List Bool} (marked : Marked held marks) :
    marks.count false = held.level := by
  -- The marks that are not false are those of cleared frames.
  obtain ⟨cleared, rfl⟩ := marked
  simp [List.count_replicate]

/-- A move changes the marks as it changes the level. -/
theorem Marked.move {held : Stacks} {marks : List Bool} (marked : Marked held marks)
    (move : Move) : Marked (held.move move) (mark marks move) := by
  obtain ⟨cleared, rfl⟩ := marked
  cases move with
  | assign | bindLocal | remove => exact ⟨cleared, rfl⟩
  | clear => exact ⟨held.level + cleared, by simp [mark, Stacks.move, Stacks.empty]⟩
  | enter => exact ⟨cleared, rfl⟩
  | leave =>
    obtain ⟨level, stack⟩ := held
    cases level with
    | zero =>
      -- All open frames have been cleared away, so the one that is left has a mark.
      refine ⟨cleared - 1, ?_⟩
      simp [mark, Stacks.move, Stacks.leave]
    | succ level => exact ⟨cleared, by simp [mark, Stacks.move, Stacks.leave, List.replicate_succ]⟩

/-- The marks fit the level after any number of moves. -/
theorem Marked.foldl_move {held : Stacks} {marks : List Bool} (marked : Marked held marks)
    (moves : List Move) : Marked (moves.foldl Stacks.move held) (moves.foldl mark marks) := by
  -- By induction on the moves; each one keeps the marks right.
  induction moves generalizing held marks with
  | nil => exact marked
  | cons move rest ih => exact ih (marked.move move)

end Scripts

end Scope

/--
Frames of bindings refine one stack of bindings for each name.

From the first variables on, whatever script of steps is run and whatever point of it is passed,
also inside frames that are going to fail: the bindings of each name are those that the moves up to
there leave on its stack, at falling levels. The innermost value of a name, which removing it
answers, is the head of its stack; the names that are bound are those whose stack is not empty, and
they are listed by their bytes. There is one frame more than open frames in which the variables have
not been cleared.
-/
theorem scope_refines_stacks {steps : List Scope.Step} {machine point : Machine}
    {moves : List Scope.Move} (starts : machine.scope = .empty)
    (passes : Scope.Passes steps machine moves point) :
    let held := moves.foldl Stacks.move .empty
    let enclosing := moves.foldl Scope.mark []
    let scope := point.scope
    scope.toStacks = held ∧
      (∀ name, ∀ binding ∈ held.of name, binding.1 ≤ held.level) ∧
      (∀ name, (held.of name).Pairwise fun inner outer => outer.1 < inner.1) ∧
      (∀ name, scope.get? name = (held.of name).head?.map (·.2)) ∧
      (∀ name, (Scope.Step.remove name).run.answer point =
        .ok ((held.of name).head?.map (·.2))) ∧
      (∀ name, scope.contains name = true ↔ held.of name ≠ []) ∧
      (∀ name, name ∈ scope.names ↔ held.of name ≠ []) ∧
      scope.names.Pairwise (fun first second => utf8Bytes first < utf8Bytes second) ∧
      scope.size = scope.names.length ∧ (scope.isEmpty = true ↔ scope.names = []) ∧
      scope.depth = held.level + 1 ∧ scope.depth = 1 + enclosing.count false ∧
      1 ≤ scope.depth ∧ scope.depth ≤ 1 + enclosing.length ∧
      ((∀ cleared ∈ enclosing, cleared = false) → scope.depth = 1 + enclosing.length) := by
  intro held enclosing scope
  have view : scope.toStacks = held := by
    have reached : scope = moves.foldl Scope.move .empty := starts ▸ passes.scope
    rw [reached, Scope.toStacks_foldl_move]
    rfl
  -- What is left is read off the view, apart from the number of open frames.
  have depth : scope.depth = held.level + 1 := congrArg (·.level + 1) view
  -- Before the script no frame is open.
  have marked : Scope.Marked held enclosing := Scope.Marked.foldl_move ⟨0, rfl⟩ moves
  have unmarked : enclosing.count false = held.level := marked.count_false
  have within : enclosing.count false ≤ enclosing.length := List.count_le_length
  refine ⟨view, fun name binding member => ?_, fun name => ?_,
    fun name => view ▸ scope.get?_eq_head? name, fun name => ?_,
    fun name => view ▸ scope.contains_iff name, fun name => ?_, ?_, rfl, scope.isEmpty_iff, depth,
    by omega, by omega, by omega, fun none => ?_⟩
  · rw [← view] at member ⊢
    exact Scope.level_le member
  · rw [← view]
    exact Scope.pairwise_level name scope.frames
  · rw [← view, ← scope.get?_eq_head?, Scope.Step.run]
    rfl
  · rw [Scope.mem_names, scope.contains_iff, view]
  · exact scope.pairwise_names.imp utf8Bytes_lt
  · have all : enclosing.count false = enclosing.length :=
      List.count_eq_length.mpr fun mark member => (none mark member).symm
    omega

/-- Clearing inside a frame that is going to fail leaves the global frame only, where the next
assignment ends up. -/
theorem scope_refines_stacks_cleared :
    let start : Machine := ⟨.empty, .recording [], .ofSeed 7⟩
    let inner : List Scope.Step := [.bindLocal "x" (.num 2), .clear, .assign "y" (.num 3)]
    let steps : List Scope.Step := [.assign "x" (.num 1), .frame inner (some .infiniteCount)]
    ∃ point, Scope.Passes steps start [.assign "x" (.num 1), .enter, .bindLocal "x" (.num 2),
        .clear, .assign "y" (.num 3)] point ∧
      point.scope.get? "x" = none ∧ point.scope.get? "y" = some (.num 3) ∧
      point.scope.depth = 1 := by
  -- The point lies inside the frame, behind its third step.
  intro start inner steps
  have passes : Scope.Passes steps start (_ ++ .enter :: (_ ++ (_ ++ (_ ++ [])))) _ :=
    .later (.inside (.later (.later (.later .here))))
  simp only [Scope.Step.moves] at passes
  obtain ⟨_, _, _, values, _, _, _, _, _, _, _, depth, _⟩ := scope_refines_stacks rfl passes
  refine ⟨_, passes, (values "x").trans ?_, (values "y").trans ?_, depth.trans ?_⟩
  · simp [Stacks.move, Stacks.assign, Stacks.modify, Stacks.empty]
  · simp [Stacks.move, Stacks.assign, Stacks.modify, Stacks.empty]
  · simp [Scope.mark]

end Calculator
