import Calculator.Proofs.Evaluation.Randomness
import Mathlib.Logic.Equiv.Basic

/-! Renaming: evaluation commutes with every injective renaming of the variables. -/

namespace Calculator

open Evaluation

variable {rho : String → String}

section Expressions

/-- Renames the variables of an expression. Its operations keep their names. -/
def Expr.rename (rho : String → String) : Expr → Expr
  | .num value => .num value
  | .var name => .var (rho name)
  | .op name operands => .op name (operands.map (rename rho))

/-- Renames the variables that a failure shows. -/
def EvalError.rename (rho : String → String) : EvalError → EvalError
  | notAssignable target => notAssignable (target.rename rho)
  | notNumber role found => notNumber role (found.rename rho)
  | unresolved role found cause => unresolved role (found.rename rho) (cause.rename rho)
  | invalidLoopVariable construct found => invalidLoopVariable construct (found.rename rho)
  | undefinedVariable name => undefinedVariable (rho name)
  | recursiveDefinition name => recursiveDefinition (rho name)
  | alreadyDefined construct name => alreadyDefined construct (rho name)
  | other => other

/-- The second name is the first one renamed. -/
def RenamedTo (rho : String → String) (name other : String) : Prop := other = rho name

/-- An injective renaming pairs each name with at most one. -/
theorem biUnique_renamedTo (injective : rho.Injective) : Relator.BiUnique (RenamedTo rho) :=
  ⟨fun _ _ _ left right => injective (left.symm.trans right),
    fun _ _ _ left right => left.trans right.symm⟩

/-- An expression matches its renamed copy and nothing else. -/
theorem Expr.matches_renamedTo {expr other : Expr} :
    Matches (RenamedTo rho) expr other ↔ other = expr.rename rho := by
  induction expr generalizing other with
  | num value =>
    rw [rename]
    constructor
    · rintro ⟨⟩
      rfl
    · rintro rfl
      exact .num value
  | var name =>
    rw [rename]
    constructor
    · rintro ⟨⟩
      next paired => rw [paired]
    · rintro rfl
      exact .var rfl
  | op name operands ih =>
    rw [rename]
    -- The operands are renamed one by one.
    have operandwise (others : List Expr) :
        List.Forall₂ (Matches (RenamedTo rho)) operands others ↔
          others = operands.map (rename rho) := by
      induction operands generalizing others with
      | nil => simp
      | cons first rest rest_ih =>
        simp only [List.forall_mem_cons] at ih
        simp [List.forall₂_cons_left_iff, ih.1, rest_ih ih.2]
    constructor
    · intro matching
      cases matching with
      | op _ pairs => rw [(operandwise _).mp pairs]
    · rintro rfl
      exact .op name ((operandwise _).mpr rfl)

/-- A failure matches only its renamed copy. -/
theorem EvalError.Matches.eq_rename {error other : EvalError}
    (matching : Matches (RenamedTo rho) error other) : other = error.rename rho := by
  induction matching with
  | plain isPlain =>
    -- What shows no variable is kept.
    unfold rename
    split
    case h_8 => rfl
    all_goals cases isPlain
  | notAssignable matching | notNumber _ matching | invalidLoopVariable _ matching =>
    rw [rename, Expr.matches_renamedTo.mp matching]
  | unresolved _ matching _ ih => rw [rename, Expr.matches_renamedTo.mp matching, ih]
  | undefinedVariable paired | recursiveDefinition paired | alreadyDefined _ paired =>
    rw [rename, paired]

/-- Renames an answer, be it a result or a failure. -/
def renameAnswer (rho : String → String) : Except EvalError Expr → Except EvalError Expr
  | .ok value => .ok (value.rename rho)
  | .error cause => .error (cause.rename rho)

/-- An answer matches only its renamed copy. -/
theorem AnswersMatch.eq_renameAnswer {answer other : Except EvalError Expr}
    (matching : AnswersMatch (RenamedTo rho) (Expr.Matches (RenamedTo rho)) answer other) :
    other = renameAnswer rho answer := by
  -- Values and errors are renamed as a whole.
  cases matching with
  | ok values => rw [renameAnswer, Expr.matches_renamedTo.mp values]
  | error causes => rw [renameAnswer, causes.eq_rename]

end Expressions

namespace Frame

/-- Renames the bound variables and those in their values. -/
def rename (rho : String → String) (frame : Frame) : Frame :=
  ⟨frame.entries.map fun entry => (rho entry.1, entry.2.rename rho)⟩

/-- A renamed variable has the renamed value. -/
theorem get?_rename (injective : rho.Injective) (frame : Frame) (name : String) :
    (frame.rename rho).get? (rho name) = (frame.get? name).map (·.rename rho) := by
  rw [rename, get?, get?]
  induction frame.entries with
  | nil => rfl
  | cons entry rest ih =>
    obtain ⟨first, value⟩ := entry
    simp only [List.map_cons, List.lookup_cons]
    -- Only the name itself is renamed to its new name.
    have together : (rho name == rho first) = (name == first) := by simp [injective.eq_iff]
    rw [together]
    split
    · rfl
    · exact ih

/-- A renamed variable is bound where the variable was. -/
theorem contains_rename (injective : rho.Injective) (frame : Frame) (name : String) :
    (frame.rename rho).contains (rho name) = frame.contains name := by
  -- A name is bound exactly if its new name is.
  rw [contains, contains, get?_rename injective, Option.isSome_map]

/-- A value that is given before the renaming is given after it under the renamed name. -/
theorem insert_rename (injective : rho.Injective) (frame : Frame) (name : String) (value : Expr) :
    (frame.insert name value).rename rho =
      (frame.rename rho).insert (rho name) (value.rename rho) := by
  rw [rename, rename, insert, insert]
  congr 1
  induction frame.entries with
  | nil => rfl
  | cons entry rest ih =>
    -- The entries are passed up to the one with the name, on both sides to the same one.
    simp only [List.map_cons, put, injective.eq_iff]
    split
    · rfl
    · rw [List.map_cons, ih]

/-- A frame matches its renamed copy. -/
theorem matches_rename (injective : rho.Injective) (frame : Frame) :
    frame.Matches (RenamedTo rho) (frame.rename rho) := by
  -- Each value is found under the new name of its variable.
  intro name paired isPaired
  rw [isPaired, get?_rename injective]
  cases frame.get? name with
  | none => exact .none
  | some value => exact .some (Expr.matches_renamedTo.mpr rfl)

end Frame

namespace Scope

/-- Renames the variables in every frame. -/
def rename (rho : String → String) (scope : Scope) : Scope :=
  ⟨scope.locals.map (·.rename rho), scope.globals.rename rho⟩

/-- Variables match their renamed copies. -/
theorem matches_rename (injective : rho.Injective) (scope : Scope) :
    scope.Matches (RenamedTo rho) (scope.rename rho) := by
  -- The frames are renamed one by one.
  refine ⟨?_, scope.globals.matches_rename injective⟩
  rw [rename, List.forall₂_map_right_iff, List.forall₂_same]
  exact fun frame _ => frame.matches_rename injective

/-- The innermost binder of a renamed variable is the renamed binder. -/
theorem modifyBinder?_rename (injective : rho.Injective) (name : String)
    (change update : Frame → Frame) (frames : List Frame)
    (changes : ∀ frame : Frame, update (frame.rename rho) = (change frame).rename rho) :
    modifyBinder? (rho name) update (frames.map (·.rename rho)) =
      (modifyBinder? name change frames).map (List.map (·.rename rho)) := by
  -- The frames are searched from the inside out, and the renamed ones in the same order.
  induction frames with
  | nil => rfl
  | cons frame outer ih =>
    rw [List.map_cons, modifyBinder?, modifyBinder?, frame.contains_rename injective, ih]
    split
    · simp [changes]
    · simp [Option.map_map, Function.comp_def]

/-- Assigning and renaming commute. -/
theorem assign_rename (injective : rho.Injective) (scope : Scope) (name : String) (value : Expr) :
    (scope.assign name value).rename rho =
      (scope.rename rho).assign (rho name) (value.rename rho) := by
  -- The innermost frame that binds the name changes on both sides, or else the global one.
  have binders := modifyBinder?_rename injective name (·.insert name value)
    (·.insert (rho name) (value.rename rho)) scope.locals
    fun frame => (frame.insert_rename injective name value).symm
  simp only [assign, modifyBinder, rename, binders]
  cases modifyBinder? name (·.insert name value) scope.locals with
  | some locals => rfl
  | none => simp [Frame.insert_rename injective]

/-- Binding a local variable and renaming commute. -/
theorem bindLocal_rename (injective : rho.Injective) (scope : Scope) (name : String)
    (value : Expr) :
    (scope.bindLocal name value).rename rho =
      (scope.rename rho).bindLocal (rho name) (value.rename rho) := by
  -- The innermost frame is changed on both sides.
  obtain ⟨locals, globals⟩ := scope
  cases locals <;> simp [bindLocal, rename, Frame.insert_rename injective]

/-- Entering a frame and renaming commute. -/
theorem push_rename (scope : Scope) : scope.push.rename rho = (scope.rename rho).push := rfl

/-- Leaving a frame and renaming commute. -/
theorem pop_rename (scope : Scope) : scope.pop.rename rho = (scope.rename rho).pop := by
  -- The innermost frame is dropped on both sides.
  simp [pop, rename]

end Scope

section Machines

/-- The plots have the same points, under captions from a curve and from its renamed copy. -/
def ScatterPlot.Renamed (rho : String → String) (plot other : ScatterPlot) : Prop :=
  other.points = plot.points ∧ ∃ curve name, plot = .ofCurve curve name plot.points ∧
    other = .ofCurve (curve.rename rho) (rho name) plot.points

/-- The second machine has the renamed variables and the same generator, and what has been drawn on
either since the start has the same points. -/
structure Machine.Renamed (rho : String → String) (start : Sink × Sink)
    (plain renamed : Machine) : Prop where
  scope : renamed.scope = plain.scope.rename rho
  random : renamed.random = plain.random
  plots : ∃ plots others, plain.sink = start.1.drawAll plots ∧
    renamed.sink = start.2.drawAll others ∧ List.Forall₂ (ScatterPlot.Renamed rho) plots others

/-- Evaluations on variables and on their renamed copies. -/
def renamedVariables (rho : String → String) (injective : rho.Injective) : Simulation where
  names := RenamedTo rho
  World := Sink × Sink
  inner start := start
  machines := Machine.Renamed rho
  unique := biUnique_renamedTo injective
  scopes := by
    intro start plain renamed held
    rw [held.scope]
    exact plain.scope.matches_rename injective
  assign := by
    rintro start plain renamed name _ value other held rfl values
    rw [Expr.matches_renamedTo.mp values]
    exact ⟨by simp only [held.scope, Scope.assign_rename injective], held.random, held.plots⟩
  push held := ⟨by simp only [held.scope, Scope.push_rename], held.random, held.plots⟩
  bindLocal := by
    rintro start plain renamed name _ number held rfl
    refine ⟨?_, held.random, held.plots⟩
    simp only [held.scope, Scope.bindLocal_rename injective, Expr.rename]
  pop held := ⟨by simp only [held.scope, Scope.pop_rename], held.random, held.plots⟩
  draw := by
    rintro start plain renamed curve _ name _ points held curves rfl
    rw [Expr.matches_renamedTo.mp curves]
    obtain ⟨plots, others, drawn, drawnToo, pairs⟩ := held.plots
    refine ⟨held.scope, held.random, plots ++ [.ofCurve curve name points],
      others ++ [.ofCurve (curve.rename rho) (rho name) points], ?_, ?_, ?_⟩
    · rw [Sink.drawAll_concat, ← drawn]
      rfl
    · rw [Sink.drawAll_concat, ← drawnToo]
      rfl
    · exact List.rel_append pairs (.cons ⟨rfl, curve, name, rfl, rfl⟩ .nil)

/-- The same side shows on machines with the same generator. -/
theorem renamedVariables_sharesTosses (injective : rho.Injective) :
    (renamedVariables rho injective).SharesTosses := by
  -- The generators are the same, and so is what they toss.
  intro start plain renamed held
  refine ResultsMatch.ok ?_ ⟨held.scope, ?_, held.plots⟩
  · exact congrArg (fun generator => generator.toss.1) held.random.symm
  · exact congrArg (fun generator => generator.toss.2) held.random

end Machines

/--
Evaluation commutes with renaming.

A renamed expression on renamed variables has the renamed answer, be it a result or a failure, and
leaves the renamed variables behind. The generator ends up the same, and the plots that are drawn
have the same points one by one, whatever the two sinks held before.
-/
theorem evaluate_rename (injective : rho.Injective) (expr : Expr) (scope : Scope)
    (random : Generator) (sink other : Sink) :
    let plain : Machine := ⟨scope, sink, random⟩
    let renamed : Machine := ⟨scope.rename rho, other, random⟩
    let left := (evaluate .builtin expr).after plain
    let right := (evaluate .builtin (expr.rename rho)).after renamed
    (evaluate .builtin (expr.rename rho)).answer renamed =
        renameAnswer rho ((evaluate .builtin expr).answer plain) ∧
      right.scope = left.scope.rename rho ∧ right.random = left.random ∧
      ∃ plots others, left.sink = sink.drawAll plots ∧ right.sink = other.drawAll others ∧
        List.Forall₂ (ScatterPlot.Renamed rho) plots others := by
  intro plain renamed left right
  -- Before the evaluation nothing has been drawn.
  have starts : Machine.Renamed rho (sink, other) plain renamed :=
    ⟨rfl, rfl, [], [], rfl, rfl, .nil⟩
  have matching : Expr.Matches (RenamedTo rho) expr (expr.rename rho) :=
    Expr.matches_renamedTo.mpr rfl
  have runs := (renamedVariables rho injective).runs_evaluate
    (fun _ => renamedVariables_sharesTosses injective) matching (sink, other)
  obtain ⟨answers, ends⟩ := runs.answer starts
  exact ⟨answers.eq_renameAnswer, ends.scope, ends.random, ends.plots⟩

/-- A loop variable may swap its name with a variable that the body uses. -/
theorem evaluate_rename_swap :
    let scope : Scope := ⟨[], ⟨[("x", .op "*" [.var "i", .num 3])]⟩⟩
    let swapped : Scope := ⟨[], ⟨[("i", .op "*" [.var "x", .num 3])]⟩⟩
    let sum := Expr.op "for" [.num 0, .num 2, .var "i", .num 1, .var "x"]
    let other := Expr.op "for" [.num 0, .num 2, .var "x", .num 1, .var "i"]
    (evaluate .builtin other).answer ⟨swapped, .recording [], .ofSeed 7⟩ =
      renameAnswer (Equiv.swap "x" "i")
        ((evaluate .builtin sum).answer ⟨scope, .recording [], .ofSeed 7⟩) := by
  -- The swap of the two names turns the one sum and its variables into the other.
  intro scope swapped sum other
  have scopes : scope.rename (Equiv.swap "x" "i") = swapped := by
    simp [scope, swapped, Scope.rename, Frame.rename, Expr.rename]
  have sums : sum.rename (Equiv.swap "x" "i") = other := by
    simp [sum, other, Expr.rename]
  rw [← scopes, ← sums]
  exact (evaluate_rename (Equiv.swap "x" "i").injective sum scope (.ofSeed 7) (.recording [])
    (.recording [])).1

end Calculator
