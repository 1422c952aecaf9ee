import Calculator.Proofs.Evaluation.Calls

/-! Shadowing: evaluation never binds a name in two frames at once. -/

namespace Calculator

open Evaluation

namespace Frame

/-- No name is bound in both frames. -/
def Apart (frame other : Frame) : Prop :=
  ∀ name, frame.contains name = true → other.contains name = false

/-- At most one name is bound. -/
def Single (frame : Frame) : Prop :=
  ∀ name other, frame.contains name = true → frame.contains other = true → name = other

/-- A frame stands apart from others exactly when none of them binds one of its names. -/
theorem forall_apart_iff {frame : Frame} {others : List Frame} :
    (∀ other ∈ others, frame.Apart other) ↔
      ∀ name, frame.contains name = true → others.any (·.contains name) = false := by
  -- The name and the other frame are asked for in either order.
  simp only [Apart, List.any_eq_false, Bool.not_eq_true]
  exact ⟨fun apart name bound other member => apart other member name bound,
    fun apart other member name bound => apart name bound other member⟩

/-- Frames stay apart as long as they keep their names. -/
theorem pairwise_apart_of_forall₂ {frames others : List Frame}
    (same : List.Forall₂ SameNames frames others) (apart : frames.Pairwise Apart) :
    others.Pairwise Apart := by
  induction same with
  | nil => exact .nil
  | @cons frame other _ rest head outer ih =>
    rw [List.pairwise_cons, forall_apart_iff] at apart ⊢
    refine ⟨fun name bound => ?_, ih apart.2⟩
    -- The frames around the first one bind together what they bound.
    rw [Scope.any_contains_of_forall₂ outer]
    exact apart.1 name ((head name).symm.trans bound)

/-- Frames that bind one name at most do so as long as they keep their names. -/
theorem single_of_forall₂ {frames others : List Frame} (same : List.Forall₂ SameNames frames others)
    (single : ∀ frame ∈ frames, frame.Single) : ∀ other ∈ others, other.Single := by
  -- The frames bind the same names pair by pair, so what is bound once stays so.
  induction same with
  | nil => simp
  | @cons frame other _ rest head _ ih =>
    simp only [List.forall_mem_cons] at single ⊢
    refine ⟨fun name used bound boundToo => ?_, ih single.2⟩
    exact single.1 name used ((head name).symm.trans bound) ((head used).symm.trans boundToo)

end Frame

namespace Scope

open Calculator.Frame (Apart)

/-- No name is bound in two frames. -/
def Unshadowed (scope : Scope) : Prop := scope.frames.Pairwise Apart

/-- A single frame cannot shadow anything. -/
theorem unshadowed_of_depth {scope : Scope} (single : scope.depth = 1) : scope.Unshadowed := by
  -- With one frame there is no pair of frames.
  have noLocals : scope.locals = [] := List.length_eq_zero_iff.mp (by simpa [depth] using single)
  simp [Unshadowed, frames, noLocals]

/-- The local frames are apart from each other, and the global one binds none of their names. -/
theorem unshadowed_iff {scope : Scope} :
    scope.Unshadowed ↔ scope.locals.Pairwise Apart ∧
      ∀ name, scope.bindsLocally name = true → scope.globals.contains name = false := by
  -- The frames are the local ones and the global one, and the pairs are split alike.
  simp only [Unshadowed, frames, List.pairwise_append, List.pairwise_singleton, true_and,
    List.mem_singleton, forall_eq, bindsLocally, List.any_eq_true, Apart]
  refine and_congr_right fun _ => ⟨?_, ?_⟩
  · rintro apart name ⟨frame, member, bound⟩
    exact apart frame member name bound
  · intro apart frame member name bound
    exact apart name ⟨frame, member, bound⟩

/-- Assignments shadow nothing: a name that is new in the global frame was bound nowhere. -/
theorem Unshadowed.of_extends {before after : Scope} (unshadowed : before.Unshadowed)
    (kept : before.Extends after) : after.Unshadowed := by
  obtain ⟨apart, hidden⟩ := unshadowed_iff.mp unshadowed
  have keptApart := Frame.pairwise_apart_of_forall₂ kept.locals apart
  refine unshadowed_iff.mpr ⟨keptApart, fun name bound => ?_⟩
  rw [kept.bindsLocally name] at bound
  by_contra boundGlobally
  -- The name was not global before, so it is new there, but then no local frame binds it.
  obtain ⟨_, unbound⟩ := kept.fresh name (by simpa using boundGlobally) (hidden name bound)
  simp [unbound] at bound

/-- The frames that were entered since the start, the innermost first. -/
def enteredSince (start scope : Scope) : List Frame :=
  scope.locals.take (scope.depth - start.depth)

/-- Since the start no name is shadowed, no frame is lost, and each new frame binds one name at
most. -/
structure Orderly (start scope : Scope) : Prop where
  unshadowed : scope.Unshadowed
  deep : start.depth ≤ scope.depth
  single : ∀ frame ∈ start.enteredSince scope, frame.Single

namespace Orderly

variable {start before scope after : Scope} {variableName : String}

/-- The start is orderly if it shadows nothing. -/
theorem refl (unshadowed : start.Unshadowed) : Orderly start start where
  -- No frame has been entered yet.
  unshadowed := unshadowed
  deep := Nat.le_refl _
  single := by simp [enteredSince]

/-- Assignments keep the order. -/
theorem of_extends (orderly : Orderly start before) (kept : before.Extends after) :
    Orderly start after where
  -- The frames that were entered are the same ones, and they still bind the same names.
  unshadowed := orderly.unshadowed.of_extends kept
  deep := by
    rw [kept.depth_eq]
    exact orderly.deep
  single := by
    have entered := orderly.single
    rw [enteredSince] at entered ⊢
    rw [kept.depth_eq]
    exact Frame.single_of_forall₂ (List.forall₂_take _ kept.locals) entered

/-- A loop that is ready for its body has added a frame with its variable, which was unbound. -/
theorem of_atBody (orderly : Orderly start before) (ready : AtBody variableName before scope) :
    Orderly start scope := by
  obtain ⟨inside, frame, outer, split, own⟩ := ready
  have outside : scope.pop = ⟨outer, scope.globals⟩ := by simp [pop, split]
  -- Around the loop's frame the order was kept.
  have around := orderly.of_extends inside.kept
  have unbound := inside.unbound
  rw [outside] at around unbound
  have frames : scope.frames = frame :: (Scope.mk outer scope.globals).frames := by
    simp [Scope.frames, split]
  have depth : scope.depth = (Scope.mk outer scope.globals).depth + 1 := by
    simp [Scope.depth, split]
  have deep := around.deep
  refine ⟨?_, by omega, ?_⟩
  · rw [Unshadowed, frames, List.pairwise_cons, Frame.forall_apart_iff]
    refine ⟨fun name bound => ?_, around.unshadowed⟩
    rw [(own name).mp bound]
    exact unbound
  · have more : scope.depth - start.depth =
        (Scope.mk outer scope.globals).depth - start.depth + 1 := by omega
    have entered : start.enteredSince scope =
        frame :: start.enteredSince ⟨outer, scope.globals⟩ := by
      rw [enteredSince, more, split, List.take_succ_cons, enteredSince]
    rw [entered, List.forall_mem_cons]
    refine ⟨fun name other bound boundToo => ?_, around.single⟩
    rw [(own name).mp bound, (own other).mp boundToo]

end Orderly

end Scope

/-- To evaluate the expression on the machine, another expression is evaluated on another machine,
at any depth of nesting. -/
inductive Nested (expr : Expr) (machine : Machine) : Expr → Machine → Prop
  | start : Nested expr machine expr machine
  | call {name : String} {operands : List Expr} {operand : Expr} {outer inner : Machine}
      {place : Nat} (nested : Nested expr machine (.op name operands) outer)
      (calls : Calls name operands outer place inner) (found : operands[place]? = some operand) :
      Nested expr machine operand inner

/-- What an operand finds when it is evaluated is as orderly as what the operation found. -/
theorem Calls.orderly {start : Scope} {name : String} {operands : List Expr}
    {machine inner : Machine} {place : Nat} (calls : Calls name operands machine place inner)
    (orderly : start.Orderly machine.scope) : start.Orderly inner.scope := by
  by_cases isBody : name = "for" ∧ place = 4
  · obtain ⟨rfl, rfl⟩ := isBody
    -- A sum is dispatched with five operands, of which the body is the last.
    obtain ⟨handler, found, arity⟩ := calls.exists_handler
    obtain rfl : ⟨5, Operation.summed⟩ = handler := Option.some.inj found
    match operands, arity with
    | [_, _, _, _, _], _ =>
      obtain ⟨_, _, ready⟩ := calls.atBody
      exact orderly.of_atBody ready
  · exact orderly.of_extends (calls.scope_extends fun named at4 => isBody ⟨named, at4⟩)

/-- Every nested evaluation finds the variables in order. -/
theorem Nested.orderly {expr part : Expr} {machine inner : Machine}
    (nested : Nested expr machine part inner) (unshadowed : machine.scope.Unshadowed) :
    machine.scope.Orderly inner.scope := by
  -- From one call to the next, outermost first.
  induction nested with
  | start => exact .refl unshadowed
  | call _ calls _ ih => exact calls.orderly ih

/-- An evaluation leaves the variables in order, whether it succeeds or fails. -/
theorem Scope.Orderly.evaluate {start : Scope} {machine : Machine}
    (orderly : start.Orderly machine.scope) (expr : Expr) :
    start.Orderly ((evaluate .builtin expr).after machine).scope :=
  orderly.of_extends (((keeps_evaluate expr).after machine).mono fun _ _ => trivial)

/--
No shadowing ever arises from evaluation.

Where no name is bound in two frames at the start, as in a session's single frame, this is so
whenever an expression is evaluated in between, at any depth, and after each such evaluation,
whether it succeeds or fails. Of the frames that were entered since the start each binds one name
at most, and when the body of a sum is evaluated, the innermost frame binds the variable of the sum
and nothing else.
-/
theorem evaluate_never_shadows :
    (∀ scope : Scope, scope.depth = 1 → scope.Unshadowed) ∧
    (∀ (expr : Expr) (machine : Machine), machine.scope.Unshadowed →
      ∀ part inner, Nested expr machine part inner →
        let left := (evaluate .builtin part).after inner
        inner.scope.Unshadowed ∧ left.scope.Unshadowed ∧
          (∀ frame ∈ machine.scope.enteredSince inner.scope, frame.Single) ∧
          ∀ frame ∈ machine.scope.enteredSince left.scope, frame.Single) ∧
    ∀ start stop counter step body machine inner,
      Calls "for" [start, stop, counter, step, body] machine 4 inner →
      ∃ variableName frame around, boundVariable "for" counter = .ok variableName ∧
        inner.scope.locals = frame :: around ∧
        ∀ name, frame.contains name = true ↔ name = variableName := by
  -- The nested evaluations start in order, and each evaluation keeps that order.
  refine ⟨fun scope single => Scope.unshadowed_of_depth single, ?_, ?_⟩
  · intro expr machine unshadowed part inner nested left
    have found := nested.orderly unshadowed
    have leaves := found.evaluate part
    exact ⟨found.unshadowed, leaves.unshadowed, found.single, leaves.single⟩
  · intro start stop counter step body machine inner calls
    obtain ⟨variableName, named, ready⟩ := calls.atBody
    obtain ⟨frame, around, split, own⟩ := ready.own
    exact ⟨variableName, frame, around, named, split, own⟩

/-- A sum over `i` of assignments to a global `x`. -/
private def assigningSum : Expr :=
  .op "for" [.num 0, .num 1, .var "i", .num 1, .assign "x" (.var "i")]

/-- In the first round of a sum whose body assigns a global variable, the loop's frame holds the
counter alone, and the body shadows nothing. -/
theorem evaluate_never_shadows_sum :
    let machine : Machine := ⟨⟨[], ⟨[("x", .num 4)]⟩⟩, .recording [], .ofSeed 7⟩
    let inner : Machine := { machine with scope := machine.scope.push.bindLocal "i" (.num 0) }
    Nested assigningSum machine (.assign "x" (.var "i")) inner ∧
      ((evaluate .builtin (.assign "x" (.var "i"))).after inner).scope.Unshadowed ∧
      ∃ frame around, inner.scope.locals = frame :: around ∧
        ∀ name, frame.contains name = true ↔ name = "i" := by
  -- The first round of the sum binds its counter and then evaluates the assignment.
  intro machine inner
  obtain ⟨single, inBetween, bodies⟩ := evaluate_never_shadows
  have settled : Operation.sumRange ⟨.num 0, evaluate .builtin (.num 0)⟩
      ⟨.num 1, evaluate .builtin (.num 1)⟩ ⟨.var "i", evaluate .builtin (.var "i")⟩
      ⟨.num 1, evaluate .builtin (.num 1)⟩ machine = .ok ("i", 0, ⟨1, 1⟩) machine := rfl
  have before : Progression.isBefore ⟨1, 1⟩ 0 = true := rfl
  have moves : ((0 : Float) + 1 == 0) = false := rfl
  have round : Calls "for" [.num 0, .num 1, .var "i", .num 1, .assign "x" (.var "i")] machine 4
      inner := Calls.first_round settled before moves
  have nested : Nested assigningSum machine (.assign "x" (.var "i")) inner :=
    .call .start round rfl
  obtain ⟨_, leaves, _⟩ := inBetween assigningSum machine (single _ rfl) _ inner nested
  obtain ⟨_, frame, around, named, split, own⟩ := bodies _ _ _ _ _ _ _ round
  obtain rfl := Except.ok.inj named
  exact ⟨nested, leaves, frame, around, split, own⟩

end Calculator
