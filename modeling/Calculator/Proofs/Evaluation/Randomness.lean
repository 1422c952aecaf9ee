import Calculator.Proofs.Evaluation.Confinement

/-! Randomness: only random choices draw from the generator, and each that is dispatched draws
once. -/

namespace Calculator

open Evaluation

section Registration

/-- A registered operation is found under its name, and all others as before. -/
theorem Registry.find?_register (registry : Registry) (name other : String) (handler : Handler) :
    (registry.register name handler).find? other =
      if other = name then some handler else registry.find? other := by
  -- The new entry stands before the others, and older ones under its name are gone.
  rw [find?, register, find?]
  by_cases same : other = name
  · simp [same]
  · have passed : (other == name) = false := beq_false_of_ne same
    simp only [List.lookup_cons, passed, if_neg same]
    exact lookup_filter same registry.entries

end Registration

section SameVariables

/-- Draws plots one after another. -/
def Sink.drawAll (sink : Sink) (plots : List ScatterPlot) : Sink :=
  plots.foldl (fun sink plot => sink.draw plot) sink

/-- A further plot is drawn last. -/
theorem Sink.drawAll_concat (sink : Sink) (plots : List ScatterPlot) (plot : ScatterPlot) :
    sink.drawAll (plots ++ [plot]) = (sink.drawAll plots).draw plot := by
  -- The last plot is drawn after all others.
  simp [drawAll]

/-- The points of a curve under its captions. -/
def ScatterPlot.ofCurve (curve : Expr) (name : String) (points : List (Float × Float)) :
    ScatterPlot :=
  ⟨curve.text, name, s!"f({name})", points⟩

variable {World : Type} {beside : World → Sink × Generator → Sink × Generator → Prop}

/-- The machines have the same variables, and what they hold beside them is related. -/
structure SameVariables (beside : World → Sink × Generator → Sink × Generator → Prop)
    (world : World) (first second : Machine) : Prop where
  scope : first.scope = second.scope
  rest : beside world (first.sink, first.random) (second.sink, second.random)

/-- Drawing the same curve on both sides keeps them related. -/
def KeptByDrawing (beside : World → Sink × Generator → Sink × Generator → Prop) : Prop :=
  ∀ world first second curve name points, beside world first second →
    beside world (first.1.draw (.ofCurve curve name points), first.2)
      (second.1.draw (.ofCurve curve name points), second.2)

/-- Each name is paired with itself and with no other. -/
theorem biUnique_self : Relator.BiUnique (Only fun _ => True) := biUnique_only

/-- Evaluations of the same expressions on the same variables, with plots and random sources that
may differ. -/
def sameVariables (beside : World → Sink × Generator → Sink × Generator → Prop)
    (kept : KeptByDrawing beside) : Simulation where
  names := Only fun _ => True
  World := World
  inner world := world
  machines := SameVariables beside
  unique := biUnique_self
  scopes := by
    intro world first second same
    rw [same.scope]
    exact second.scope.matches_self
  assign := by
    intro world first second name paired value other same isPaired values
    obtain ⟨rfl, _⟩ := isPaired
    obtain ⟨rfl, _⟩ := Expr.matches_only.mp values
    exact ⟨congrArg (·.assign name value) same.scope, same.rest⟩
  push same := ⟨congrArg Scope.push same.scope, same.rest⟩
  bindLocal := by
    intro world first second name paired number same isPaired
    obtain ⟨rfl, _⟩ := isPaired
    exact ⟨congrArg (·.bindLocal name (.num number)) same.scope, same.rest⟩
  pop same := ⟨congrArg Scope.pop same.scope, same.rest⟩
  draw := by
    intro world first second curve other name paired points same curves isPaired
    obtain ⟨rfl, _⟩ := isPaired
    obtain ⟨rfl, _⟩ := Expr.matches_only.mp curves
    exact ⟨same.scope, kept world _ _ curve name points same.rest⟩

/-- An evaluation has the same answer on both sides, and they stay related. -/
theorem SameVariables.evaluate (kept : KeptByDrawing beside) {world : World}
    {first second : Machine} (same : SameVariables beside world first second)
    {registry counterpart : Registry} {expr : Expr}
    (handlers : ∀ name, expr.Applies name →
      (sameVariables beside kept).Handlers name (registry.find? name) (counterpart.find? name)) :
    (evaluate registry expr).answer first = (evaluate counterpart expr).answer second ∧
      SameVariables beside world ((evaluate registry expr).after first)
        ((evaluate counterpart expr).after second) := by
  -- Each tree matches itself, as all names are reachable.
  have matching : Expr.Matches (Only fun _ => True) expr expr :=
    Expr.matches_only.mpr ⟨rfl, fun _ _ => trivial⟩
  have runs := (sameVariables beside kept).runs_evaluate_of_handlers handlers matching world
  obtain ⟨answers, ends⟩ := runs.answer same
  exact ⟨answers.eq_of_only, ends⟩

end SameVariables

section Independence

/-- The plots are the same, and the generators are those that the two sides started with. -/
def Unrandomized (start : Generator × Generator) (first second : Sink × Generator) : Prop :=
  first.1 = second.1 ∧ first.2 = start.1 ∧ second.2 = start.2

/-- Plots are drawn without a look at the generator. -/
theorem unrandomized_draw : KeptByDrawing Unrandomized := by
  -- The plot is drawn on both sides, and the generators are not touched.
  intro start first second curve name points same
  obtain ⟨sinks, left, right⟩ := same
  exact ⟨congrArg (Sink.draw _) sinks, left, right⟩

/-- Without a random choice, two generators make no difference and are not drawn from. -/
theorem evaluate_unrandomized {expr : Expr} (without : ¬ expr.Applies "randomlyPick")
    (scope : Scope) (sink : Sink) (first second : Generator) :
    (evaluate .builtin expr).answer ⟨scope, sink, first⟩ =
        (evaluate .builtin expr).answer ⟨scope, sink, second⟩ ∧
      SameVariables Unrandomized (first, second)
        ((evaluate .builtin expr).after ⟨scope, sink, first⟩)
        ((evaluate .builtin expr).after ⟨scope, sink, second⟩) := by
  have starts : SameVariables Unrandomized (first, second) ⟨scope, sink, first⟩
      ⟨scope, sink, second⟩ := ⟨rfl, rfl, rfl, rfl⟩
  refine starts.evaluate unrandomized_draw fun name applies => ?_
  -- A toss would tell the generators apart, but no operation that is dispatched asks for one.
  refine Simulation.handlers_builtin _ fun named => absurd applies ?_
  rwa [named]

end Independence

section Tallies

/-- The mark that stands for a random choice. A curve is never drawn under such captions. -/
def ScatterPlot.tally : ScatterPlot := ⟨"", "", "", []⟩

/-- The plot is a mark. -/
def ScatterPlot.isTally (plot : ScatterPlot) : Bool := plot.yLabel == ""

/-- A curve is not taken for a mark. -/
@[simp] theorem ScatterPlot.isTally_ofCurve (curve : Expr) (name : String)
    (points : List (Float × Float)) : (ofCurve curve name points).isTally = false := by
  -- The second label of a curve is never empty, but that of a tally is.
  have labelled : (ofCurve curve name points).yLabel ≠ "" := by
    simp [ofCurve, toString]
  exact beq_false_of_ne labelled

/-- A random choice that leaves a mark in the sink each time it is dispatched. -/
def Operation.tallied (call : Call) : Evaluation Expr := do
  draw .tally
  randomlyPicked call

/-- The built-in operations, with an observer of the random choices. -/
def Registry.tallying : Registry := Registry.builtin.register "randomlyPick" ⟨2, Operation.tallied⟩

/-- Beside an observer who has noted marks among the plots: without the marks the plots are those
that were drawn since the start, and the generator has its old key and one more draw for each
mark. -/
def Tallied (start plain observed : Sink × Generator) : Prop :=
  ∃ plots, observed.1 = .recording plots ∧
    plain.1 = start.1.drawAll (plots.filter (!·.isTally)) ∧
    plain.2 = ⟨start.2.key, start.2.drawn + plots.countP (·.isTally)⟩ ∧ observed.2 = plain.2

/-- A curve that is drawn adds no mark. -/
theorem tallied_draw : KeptByDrawing Tallied := by
  -- The plot of a curve is no tally, so it reaches both sinks and adds to no count.
  intro start plain observed curve name points held
  obtain ⟨plots, noted, drawn, random, sameRandom⟩ := held
  refine ⟨plots ++ [.ofCurve curve name points], ?_, ?_, ?_, sameRandom⟩
  · simp [noted, Sink.draw]
  · simp [drawn, List.filter_append, Sink.drawAll_concat]
  · simp [random, List.countP_append]

/-- A toss goes with a mark on the observer's side and shows the same side of the coin. -/
theorem runs_toss_tallied (start : Sink × Generator) :
    (sameVariables Tallied tallied_draw).Runs start Eq toss
      (do draw .tally; toss) := by
  intro plain observed held
  obtain ⟨scope, plots, noted, drawn, random, sameRandom⟩ := held
  refine ResultsMatch.ok ?_ ⟨scope, plots ++ [.tally], ?_, ?_, ?_, ?_⟩
  · exact congrArg (fun generator => generator.toss.1) sameRandom.symm
  · simp only at noted
    simp [noted, Sink.draw]
  · simpa [List.filter_append, ScatterPlot.isTally, ScatterPlot.tally] using drawn
  · -- The new mark stands for the draw that the toss takes.
    simp only at random
    simp only [random, List.countP_append]
    rfl
  · exact congrArg (fun generator => generator.toss.2) sameRandom

/-- The observed operations run like the built-in ones. -/
theorem handlers_tallying (name : String) :
    (sameVariables Tallied tallied_draw).Handlers name (Registry.builtin.find? name)
      (Registry.tallying.find? name) := by
  rw [Registry.tallying, Registry.find?_register]
  split
  · next named =>
    subst named
    refine Option.Rel.some ⟨rfl, fun start operands others arguments arity => ?_⟩
    -- Both sides toss before they evaluate one of their two operands.
    rcases arguments with _ | ⟨first, _ | ⟨second, _⟩⟩
    iterate 2 simp at arity
    simp only [Operation.randomlyPicked, Operation.tallied, ← bind_assoc]
    refine (runs_toss_tallied start).bind fun {side other} same => ?_
    subst same
    split
    · exact first.runs start
    · exact second.runs start
  · next apart => exact Simulation.handlers_builtin _ fun named => absurd named apart

end Tallies

/--
Randomness enters only through random choices.

Where no random choice stands in the expression, whatever the values of the variables hold, two
generators give the same answer, be it a result or a failure, the same variables and the same plots,
and each of them is left as it was. In any evaluation, 64 bits are drawn for each random choice that
is dispatched and for nothing else: an observer who marks every such dispatch among the plots sees
the same evaluation, and the generator keeps its key and has as many more draws behind it as there
are marks.
-/
theorem randomness_only_by_choice :
    (∀ (expr : Expr) (scope : Scope) (sink : Sink) (first second : Generator),
      ¬ expr.Applies "randomlyPick" →
      let left := (evaluate .builtin expr).after ⟨scope, sink, first⟩
      let right := (evaluate .builtin expr).after ⟨scope, sink, second⟩
      (evaluate .builtin expr).answer ⟨scope, sink, first⟩ =
          (evaluate .builtin expr).answer ⟨scope, sink, second⟩ ∧
        left.scope = right.scope ∧ left.sink = right.sink ∧
        left.random = first ∧ right.random = second) ∧
    ∀ (expr : Expr) (machine : Machine),
      let plain := (evaluate .builtin expr).after machine
      let watched : Machine := { machine with sink := .recording [] }
      let observed := (evaluate .tallying expr).after watched
      (evaluate .builtin expr).answer machine = (evaluate .tallying expr).answer watched ∧
        plain.scope = observed.scope ∧ plain.random = observed.random ∧
        ∃ plots, observed.sink = .recording plots ∧
          plain.sink = machine.sink.drawAll (plots.filter (!·.isTally)) ∧
          plain.random.key = machine.random.key ∧
          plain.random.drawn = machine.random.drawn + plots.countP (·.isTally) := by
  refine ⟨?_, ?_⟩
  · intro expr scope sink first second without left right
    obtain ⟨answers, ends⟩ := evaluate_unrandomized without scope sink first second
    obtain ⟨sinks, keptFirst, keptSecond⟩ := ends.rest
    exact ⟨answers, ends.scope, sinks, keptFirst, keptSecond⟩
  · intro expr machine plain watched observed
    -- Before the evaluation the observer has noted nothing.
    have starts : SameVariables Tallied (machine.sink, machine.random) machine watched :=
      ⟨rfl, [], rfl, rfl, rfl, rfl⟩
    obtain ⟨answers, ends⟩ := starts.evaluate tallied_draw fun name _ => handlers_tallying name
    obtain ⟨plots, noted, drawn, random, sameRandom⟩ := ends.rest
    have advanced : plain.random =
        ⟨machine.random.key, machine.random.drawn + plots.countP (·.isTally)⟩ := random
    exact ⟨answers, ends.scope, sameRandom.symm, plots, noted, drawn, by rw [advanced],
      by rw [advanced]⟩

/-- A choice that is observed leaves a mark and takes a toss before it goes on with an operand. -/
theorem after_tallying_pick (first second : Expr) (machine : Machine) :
    (evaluate .tallying (.op "randomlyPick" [first, second])).after machine =
      (if machine.random.toss.1 then evaluate .tallying first else evaluate .tallying second).after
        { machine with sink := machine.sink.draw .tally, random := machine.random.toss.2 } := by
  -- Both are the same program, run up to the toss.
  have same : evaluate .tallying (.op "randomlyPick" [first, second]) machine =
      (if machine.random.toss.1 then evaluate .tallying first else evaluate .tallying second)
        { machine with sink := machine.sink.draw .tally, random := machine.random.toss.2 } := rfl
  rw [after, after, same]

/-- A variable whose value is a random choice is used and simplified without a draw, and a choice
inside another one takes a second draw, whichever sides the coin shows. -/
theorem randomness_only_by_choice_samples :
    (let stored : Scope := ⟨[], ⟨[("x", .op "randomlyPick" [.num 1, .num 2])]⟩⟩
      let product : Expr := .op "*" [.var "x", .op "simplify" [.var "x"]]
      let run := evaluate .builtin product
      run.answer ⟨stored, .recording [], .ofSeed 1⟩ =
          run.answer ⟨stored, .recording [], .ofSeed 2⟩ ∧
        (run.after ⟨stored, .recording [], .ofSeed 1⟩).random = .ofSeed 1) ∧
    let pick := fun (first second : Expr) => Expr.op "randomlyPick" [first, second]
    let nested := pick (pick (.var "x") (.var "y")) (pick (.var "y") (.var "x"))
    let start : Machine := ⟨.empty, .recording [], .ofSeed 7⟩
    let drawn := (evaluate .builtin nested).after start
    ((evaluate .tallying nested).after start).sink = .recording [.tally, .tally] ∧
      drawn.random.key = (Generator.ofSeed 7).key ∧ drawn.random.drawn = 2 := by
  obtain ⟨unrandomized, tallied⟩ := randomness_only_by_choice
  refine ⟨?_, ?_⟩
  · intro stored product run
    have without : ¬ product.Applies "randomlyPick" := by simp [product]
    obtain ⟨answers, _, _, kept, _⟩ := unrandomized product stored (.recording [])
      (.ofSeed 1) (.ofSeed 2) without
    exact ⟨answers, kept⟩
  · intro pick nested start drawn
    -- Each toss leaves a mark, and the variables that are evaluated last leave none.
    have marks : ((evaluate .tallying nested).after start).sink = .recording [.tally, .tally] := by
      rw [after_tallying_pick]
      split <;> rw [after_tallying_pick] <;> split <;> rfl
    obtain ⟨_, _, _, plots, noted, _, key, count⟩ := tallied nested start
    obtain rfl : [.tally, .tally] = plots := Sink.recording.inj (marks.symm.trans noted)
    exact ⟨marks, key, count⟩

end Calculator
