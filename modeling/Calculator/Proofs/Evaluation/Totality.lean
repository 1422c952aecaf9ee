import Calculator.Proofs.Evaluation.Confinement
import Calculator.Proofs.Resolution.Termination

/-! Evaluation is total: its recursion and its loops come to an end on every expression, and no
operand or frame that it reaches for is missing. -/

namespace Calculator

section Recursion

variable {α β : Type} {body : (α → β) → α → β} {calls : α → α → Prop} {solution : α → β}

/-- The recursion comes to an end, and the function is its only solution. -/
structure Settles (body : (α → β) → α → β) (calls : α → α → Prop) (solution : α → β) : Prop where
  terminates : Terminates body calls
  only : ∀ other, other = body other ↔ other = solution

/-- A recursion that comes to an end settles on what solves it. -/
theorem Terminates.settles (terminates : Terminates body calls)
    (solves : solution = body solution) : Settles body calls solution :=
  ⟨terminates, terminates.solution_iff solves⟩

end Recursion

section Operands

/-- One step of evaluation, by what `walk` makes of the operands. -/
def evaluateBody (registry : Registry) (walk : Expr → Evaluation Expr) : Expr → Evaluation Expr
  | .num value => pure (.num value)
  | .var name => do return ((← Evaluation.scope).get? name).getD (.var name)
  | .op name operands =>
    match registry.find? name with
    | none => throw (.unknownOperation name)
    | some handler =>
      if operands.length = handler.arity then
        handler.run ⟨name, operands.map fun operand => ⟨operand, walk operand⟩⟩
      else throw (.wrongArity name handler.arity operands.length)

/-- The first expression is an operand of the second. -/
inductive Expr.IsOperand : Expr → Expr → Prop
  | intro {name : String} {operands : List Expr} {operand : Expr} (member : operand ∈ operands) :
      IsOperand operand (.op name operands)

/-- No expression has operands within operands forever. -/
theorem Expr.wellFounded_isOperand : WellFounded Expr.IsOperand := by
  -- An operand is smaller than its operation.
  refine Subrelation.wf ?_ (measure (sizeOf : Expr → Nat)).wf
  rintro operand expr ⟨member⟩
  exact Expr.sizeOf_lt_of_mem member

/-- Evaluation asks only for the operands, whatever the operations do with them. The value of a
variable, which may lead back to the variable, is not asked for. -/
theorem terminates_evaluateBody (registry : Registry) :
    Terminates (evaluateBody registry) Expr.IsOperand where
  wellFounded := Expr.wellFounded_isOperand
  asksOnly := by
    intro first second expr agree
    cases expr with
    | num value => rfl
    | var name => rfl
    | op name operands =>
      -- A handler sees the two walks through its operands alone, and on these they agree.
      have operandwise : (operands.map fun operand => (⟨operand, first operand⟩ : Argument)) =
          operands.map fun operand => ⟨operand, second operand⟩ := by
        apply List.map_congr_left
        intro operand member
        rw [agree operand ⟨member⟩]
      simp only [evaluateBody, operandwise]

/-- Operands are dispatched as they are written, each with its evaluation. -/
theorem arguments_eq_map (registry : Registry) (operands : List Expr) :
    arguments registry operands =
      operands.map fun operand => ⟨operand, evaluate registry operand⟩ := by
  -- The arguments are made one by one.
  induction operands with
  | nil => rw [arguments, List.map_nil]
  | cons first rest ih => rw [arguments, ih, List.map_cons]

/-- Evaluation takes these steps. -/
theorem evaluate_eq_evaluateBody (registry : Registry) :
    evaluate registry = evaluateBody registry (evaluate registry) := by
  -- Each kind of tree is evaluated by its own branch of the body.
  funext expr
  cases expr with
  | num value => rw [evaluate, evaluateBody]
  | var name => rw [evaluate, evaluateBody]
  | op name operands =>
    rw [evaluate, arguments_eq_map]
    rfl

end Operands

section Loops

variable {α : Type}

namespace Progression

/-- One round of a loop, by what `walk` makes of the rounds after it. -/
def loopBody (progression : Progression) (stuck : Float → EvalError)
    (visit : Float → Float → α → Evaluation α) (walk : Float × α → Evaluation α) :
    Float × α → Evaluation α
  | (counter, value) =>
    if progression.isBefore counter then
      if counter + progression.step == counter then throw (stuck counter)
      else do
        let value ← visit counter (counter + progression.step) value
        walk (counter + progression.step, value)
    else pure value

/-- The first round comes right after the second, with whatever value that one gives. -/
def Advances (progression : Progression) (next round : Float × α) : Prop :=
  progression.isBefore round.1 = true ∧ (round.1 + progression.step == round.1) = false ∧
    next.1 = round.1 + progression.step

/-- No loop advances forever. -/
theorem wellFounded_advances (progression : Progression) :
    WellFounded (progression.Advances (α := α)) := by
  refine Subrelation.wf ?_ (measure fun round : Float × α => progression.remaining round.1).wf
  intro next round advances
  obtain ⟨before, moved, stepped⟩ := advances
  -- A step that moves leaves fewer doubles up to the bound.
  have closer := progression.remaining_lt round.1 before (by simp [moved])
  rwa [← stepped] at closer

/-- A loop asks only for the rounds that it advances to. -/
theorem terminates_loopBody (progression : Progression) (stuck : Float → EvalError)
    (visit : Float → Float → α → Evaluation α) :
    Terminates (progression.loopBody stuck visit) progression.Advances where
  wellFounded := progression.wellFounded_advances
  asksOnly := by
    intro first second round agree
    obtain ⟨counter, value⟩ := round
    simp only [loopBody]
    split
    · next before =>
      split
      · rfl
      · next moves =>
        -- The next counter is known before the visit, its value only after it.
        congr 1
        funext result
        exact agree _ ⟨before, by simpa using moves, rfl⟩
    · rfl

/-- Loops take these rounds. -/
theorem run_eq_loopBody (progression : Progression) (stuck : Float → EvalError)
    (visit : Float → Float → α → Evaluation α) :
    (fun round : Float × α => progression.run stuck visit round.1 round.2) =
      progression.loopBody stuck visit fun round =>
        progression.run stuck visit round.1 round.2 := by
  -- One round of the loop is the body of the recursion.
  funext ⟨counter, value⟩
  simp only [loopBody]
  rw [run]

end Progression

namespace Operation

/-- One round of a repetition, by what `walk` makes of the rounds after it. -/
def timesBody (body : Argument) (walk : Nat × Expr → Evaluation Expr) :
    Nat × Expr → Evaluation Expr
  | (0, last) => return last
  | (count + 1, _) => do walk (count, ← body.require "repeat: invalid body")

/-- The first round has one repetition less to go than the second. -/
def CountsDown (next round : Nat × Expr) : Prop := next.1 + 1 = round.1

/-- A repetition asks only for the rounds that are left. -/
theorem terminates_timesBody (body : Argument) : Terminates (timesBody body) CountsDown where
  -- The count goes down by one, and the body asks for no other count.
  wellFounded := by
    refine Subrelation.wf ?_ (measure fun round : Nat × Expr => round.1).wf
    intro next round down
    exact Nat.lt_of_succ_le (Nat.le_of_eq down)
  asksOnly := by
    intro first second round agree
    obtain ⟨count, last⟩ := round
    cases count with
    | zero => rfl
    | succ count =>
      simp only [timesBody]
      congr 1
      funext result
      exact agree _ rfl

/-- Repetitions take these rounds. -/
theorem times_eq_timesBody (body : Argument) :
    (fun round : Nat × Expr => times body round.1 round.2) =
      timesBody body fun round => times body round.1 round.2 := by
  -- Zero rounds give the last result, and otherwise one round comes first.
  funext ⟨count, last⟩
  cases count <;> rfl

end Operation

end Loops

section Operand

/-- Somewhere in the failure an operand is missing that an operation reached for. -/
def EvalError.missesOperand : EvalError → Bool
  | missingOperand _ => true
  | unresolved _ _ cause => cause.missesOperand
  | _ => false

/-- Failures that match have no operand missing. -/
theorem EvalError.Matches.missesOperand {names : String → String → Prop} {error other : EvalError}
    (matching : Matches names error other) : error.missesOperand = false := by
  -- No kind of error that is matched speaks of a missing operand.
  induction matching with
  | @plain error isPlain => cases error <;> first | rfl | exact nomatch isPlain
  | unresolved _ _ _ ih => exact ih
  | _ => rfl

/-- An evaluation matches itself, so it never fails for want of an operand. -/
theorem missesOperand_of_evaluate {expr : Expr} {machine : Machine} {error : EvalError}
    (failed : (evaluate .builtin expr).answer machine = .error error) :
    error.missesOperand = false := by
  -- With all names reachable, every machine is indistinguishable from itself.
  have starts : (confinement fun _ => True).machines (machine.scope, machine.scope)
      machine machine :=
    { scopes := .of_frames (List.forall₂_same.mpr fun frame _ =>
        Frame.matches_only.mpr ⟨fun _ _ => rfl, by simp [Frame.Closed], by simp [Frame.Closed]⟩)
      sink := rfl
      random := rfl
      left := .refl machine.scope
      right := .refl machine.scope }
  have runs := (confinement fun _ => True).runs_evaluate (fun _ => sharesTosses_confinement)
    (Expr.matches_only.mpr ⟨rfl, by simp⟩ : Expr.Matches _ expr expr)
    (machine.scope, machine.scope)
  obtain ⟨answers, _⟩ := runs.answer starts
  rw [failed] at answers
  cases answers with
  | error causes => exact causes.missesOperand

end Operand

namespace Scope

/-- The place of the frame that an assignment changes, counted from the innermost frame: that of
the first binder, or else that of the global frame. -/
def place (scope : Scope) (name : String) : Nat :=
  min (scope.frames.findIdx (·.contains name)) (scope.depth - 1)

/-- The place is that of a frame. -/
theorem place_lt (scope : Scope) (name : String) : scope.place name < scope.frames.length := by
  -- The place is counted along the local frames, and the global one comes behind them.
  simp only [place, depth, frames, List.length_append, List.length_singleton]
  omega

/-- The frame that is changed is the first binder among the local frames, or else the one behind
them. -/
theorem modify_binder_append (name : String) (change : Frame → Frame) (locals : List Frame)
    (globals : Frame) :
    (match modifyBinder? name change locals with
      | some locals => locals ++ [globals]
      | none => locals ++ [change globals]) =
      (locals ++ [globals]).modify
        (min ((locals ++ [globals]).findIdx (·.contains name)) locals.length) change := by
  induction locals with
  | nil => simp [modifyBinder?]
  | cons frame outer ih =>
    by_cases bound : frame.contains name = true
    · simp [modifyBinder?, bound, List.findIdx_cons]
    · -- The frame is passed over, and the place among the frames around it is one less.
      have next : min ((frame :: outer ++ [globals]).findIdx (·.contains name))
          (frame :: outer).length =
          min ((outer ++ [globals]).findIdx (·.contains name)) outer.length + 1 := by
        simp [List.findIdx_cons, bound, Nat.add_min_add_right]
      rw [next]
      simp only [List.cons_append, List.modify_succ_cons, ← ih, modifyBinder?, if_neg bound]
      cases modifyBinder? name change outer <;> rfl

/-- An assignment changes the frame at its place and no other. -/
theorem frames_assign (scope : Scope) (name : String) (value : Expr) :
    (scope.assign name value).frames =
      scope.frames.modify (scope.place name) (·.insert name value) := by
  -- The innermost frame that binds the name is the one at its place.
  have changed := modify_binder_append name (·.insert name value) scope.locals scope.globals
  refine .trans ?_ changed
  rw [assign, modifyBinder, frames]
  cases modifyBinder? name (·.insert name value) scope.locals <;> rfl

/-- A local binding changes the innermost frame and no other. -/
theorem frames_bindLocal (scope : Scope) (name : String) (value : Expr) :
    (scope.bindLocal name value).frames = scope.frames.modify 0 (·.insert name value) := by
  -- The innermost frame is the first one, be it local or global.
  obtain ⟨locals, globals⟩ := scope
  cases locals <;> rfl

end Scope

/--
Evaluation is total.

Without any limit, evaluation goes from an operation to its operands, a loop from a counter to the
next, a repetition from a round to the next, simplification from a variable to its value, and
resolution to what simplification leaves. None of these can go on forever, whatever the expression,
the variables, the plots and the random source are, and each has the one solution that evaluation
is made of. An evaluation never fails for want of an operand, leaves as many frames as it found,
and every frame that it changes is there.
-/
theorem evaluate_total :
    Settles (evaluateBody .builtin) Expr.IsOperand (evaluate .builtin) ∧
    (∀ (α : Type) (progression : Progression) (stuck : Float → EvalError)
      (visit : Float → Float → α → Evaluation α),
      Settles (progression.loopBody stuck visit) progression.Advances
        fun round => progression.run stuck visit round.1 round.2) ∧
    (∀ body, Settles (Operation.timesBody body) Operation.CountsDown
      fun round => Operation.times body round.1 round.2) ∧
    (∀ scope mode, Settles (simplifyBody mode scope) scope.Enters (simplifyTask mode scope) ∧
      ∀ expr, simplify mode scope expr = simplifyTask mode scope ([], expr)) ∧
    (∀ scope, Settles (resolveBody scope) scope.Demands (toNumber scope)) ∧
    (∀ expr machine error, (evaluate .builtin expr).answer machine = .error error →
      error.missesOperand = false) ∧
    (∀ expr machine,
      ((evaluate .builtin expr).after machine).scope.depth = machine.scope.depth) ∧
    ∀ (scope : Scope) name value,
      scope.place name < scope.frames.length ∧
      (scope.assign name value).frames =
        scope.frames.modify (scope.place name) (·.insert name value) ∧
      (scope.bindLocal name value).frames = scope.frames.modify 0 (·.insert name value) := by
  -- Each recursion terminates on its own order; the other parts are facts about all evaluations.
  refine ⟨?_, ?_, ?_, ?_, ?_, ?_, ?_, ?_⟩
  · exact (terminates_evaluateBody .builtin).settles (evaluate_eq_evaluateBody .builtin)
  · intro α progression stuck visit
    exact (progression.terminates_loopBody stuck visit).settles
      (progression.run_eq_loopBody stuck visit)
  · intro body
    exact (Operation.terminates_timesBody body).settles (Operation.times_eq_timesBody body)
  · intro scope mode
    have solves := simplifyTask_eq_simplifyBody mode scope
    exact ⟨(terminates_simplifyBody mode scope).settles solves, fun _ => rfl⟩
  · intro scope
    exact (terminates_resolveBody scope).settles (toNumber_eq_resolveBody scope)
  · intro expr machine error failed
    exact missesOperand_of_evaluate failed
  · intro expr machine
    exact ((keeps_evaluate expr).after machine).depth_eq
  · intro scope name value
    exact ⟨scope.place_lt name, scope.frames_assign name value, scope.frames_bindLocal name value⟩

/-- A choice with one operand fails the sum that it is the start of, but not by reaching for the
others, and inside a frame it leaves both frames there. -/
theorem evaluate_total_short_choice :
    let sum : Expr := .op "for" [.op "if" [.num 1], .num 3, .var "i", .num 1, .var "i"]
    let machine : Machine := ⟨⟨[.empty], .empty⟩, .recording [], .ofSeed 7⟩
    (evaluate .builtin sum).answer machine = .error (.wrongArity "if" 3 1) ∧
      (EvalError.wrongArity "if" 3 1).missesOperand = false ∧
      ((evaluate .builtin sum).after machine).scope.depth = 2 := by
  -- The start of the sum has too few operands, which is found before any of them is asked for.
  intro sum machine
  have failed : (evaluate .builtin sum).answer machine = .error (.wrongArity "if" 3 1) := rfl
  obtain ⟨_, _, _, _, _, operands, depths, _⟩ := evaluate_total
  exact ⟨failed, operands sum machine _ failed, depths sum machine⟩

end Calculator
