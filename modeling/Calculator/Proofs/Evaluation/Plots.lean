import Calculator.Proofs.Evaluation.Arithmetic
import Calculator.Proofs.Evaluation.Randomness
import Calculator.Proofs.Evaluation.Rounds

/-! Plots: a plot is drawn with all of its samples or not at all, and it leaves nothing else
behind. -/

namespace Calculator

open Evaluation

section Refusals

variable {α β : Type} {machine : Machine} {settled : Prop}

/-- The computation fails and leaves the machine as it is. -/
def Evaluation.Refuses (run : Evaluation α) (machine : Machine) : Prop :=
  ∃ error, run machine = .error error machine

/-- There is a value to pass on, or the chain is refused. -/
theorem ofExcept_or_refuses {result : Except EvalError α} {next : α → Evaluation β}
    (passed : ∀ value, result = .ok value → settled ∨ (next value).Refuses machine) :
    settled ∨ (Evaluation.ofExcept result >>= next).Refuses machine := by
  -- A failure refuses the machine as it is.
  cases result with
  | ok value => exact passed value rfl
  | error error => exact .inr ⟨error, rfl⟩

/-- An operand stands for a number as it is written, or the chain is refused. -/
theorem measure_or_refuses {argument : Argument} {next : Float → Evaluation α}
    (passed : ∀ value, toNumber machine.scope argument.tree = .ok value →
      settled ∨ (next value).Refuses machine) :
    settled ∨ (argument.measure >>= next).Refuses machine :=
  ofExcept_or_refuses passed

/-- A check is passed, or the chain is refused. -/
theorem guard_or_refuses {condition : Prop} [Decidable condition] {error : EvalError}
    {next : Unit → Evaluation α}
    (passed : ¬ condition → settled ∨ (next ()).Refuses machine) :
    settled ∨ Evaluation.Refuses (if condition then throw error >>= next else next ()) machine := by
  -- A check that fails refuses the machine as it is.
  split
  · exact .inr ⟨error, rfl⟩
  · exact passed ‹_›

end Refusals

/-- What a plot settles before it samples its curve: the variable and the range of the samples. -/
structure PlotRange where
  name : String
  minimum : Float
  maximum : Float
  step : Float

namespace PlotRange

/-- The operands of a plot stand for its range and pass every check. -/
structure Settled (range : PlotRange) (scope : Scope)
    (variableName minimum maximum step : Expr) : Prop where
  named : boundVariable "plot" variableName = .ok range.name
  minimum : toNumber scope minimum = .ok range.minimum
  maximum : toNumber scope maximum = .ok range.maximum
  step : toNumber scope step = .ok range.step
  ordered : ¬ range.maximum < range.minimum
  unbound : scope.contains range.name = false
  positive : ¬ range.step ≤ 0
  finite : (range.minimum.isFinite && range.maximum.isFinite && range.step.isFinite) = true

/-- The counters of the sampling loop. -/
def progression (range : PlotRange) : Progression := ⟨range.maximum, range.step⟩

/-- The places of the samples in order; the first sample is at index one. -/
def sampleAt (range : PlotRange) (index : Nat) : Float :=
  range.progression.counterAt (range.minimum - range.step) index

/-- Sampling starts a step before the range. -/
theorem sampleAt_zero (range : PlotRange) : range.sampleAt 0 = range.minimum - range.step := rfl

/-- The variables at a sample: the plot's own one stands for the place, in a frame of its own. -/
def scopeAt (range : PlotRange) (scope : Scope) (index : Nat) : Scope :=
  scope.push.bindLocal range.name (.num (range.sampleAt index))

/-- The sampling comes to its end, and the curve has a number at each sample. -/
structure Completes (range : PlotRange) (scope : Scope) (curve : Expr) (count : Nat) : Prop where
  takes : range.progression.Takes (range.minimum - range.step) count
  reaches : ¬ range.progression.isBefore (range.sampleAt count) = true
  numbers : ∀ index < count, ∃ value,
    toNumber (range.scopeAt scope (index + 1)) curve = .ok value

/-- The curve has these heights at the samples. -/
def Measures (range : PlotRange) (scope : Scope) (curve : Expr) (count : Nat)
    (height : Nat → Float) : Prop :=
  ∀ index < count, toNumber (range.scopeAt scope (index + 1)) curve = .ok (height (index + 1))

/-- A sampling that comes to its end measures the curve. -/
theorem Completes.exists_measures {range : PlotRange} {scope : Scope} {curve : Expr} {count : Nat}
    (completes : range.Completes scope curve count) :
    ∃ height, range.Measures scope curve count height := by
  -- Heights are numbered as the samples are, from one on.
  choose! height measured using completes.numbers
  exact ⟨fun index => height (index - 1), measured⟩

/-- The points of a plot, in the order in which they are sampled. -/
def points (range : PlotRange) (count : Nat) (height : Nat → Float) : List (Float × Float) :=
  (List.range count).map fun index => (range.sampleAt (index + 1), height (index + 1))

/-- Takes a sample: binds the variable to the place and measures the curve. -/
def sample (range : PlotRange) (curve : Argument) (index : Nat) : Evaluation (Float × Float) := do
  modifyScope (·.bindLocal range.name (.num (range.sampleAt (index + 1))))
  return (range.sampleAt (index + 1), ← curve.measure)

/-- Takes all samples, the last one first in the result. -/
def sampled (range : PlotRange) (curve : Argument) : Evaluation (List (Float × Float)) :=
  withFrame <| range.progression.run (.stepTooSmall "plot" range.step)
    (fun _ x points => do
      modifyScope (·.bindLocal range.name (.num x))
      return (x, ← curve.measure) :: points)
    (range.minimum - range.step) []

section Samples

variable {range : PlotRange} {curve : Argument} {machine reached : Machine} {index count : Nat}
  {results : List (Float × Float)}

/-- The machine in the sampling loop: nothing but the plot's own frame has been added to it. -/
def Sampling (range : PlotRange) (machine reached : Machine) : Prop :=
  reached = { machine with scope := machine.scope.push } ∨
    ∃ index, reached = { machine with scope := range.scopeAt machine.scope index }

/-- Leaving the frame of the samples gives back the machine. -/
theorem Sampling.pop (sampling : range.Sampling machine reached) :
    { reached with scope := reached.scope.pop } = machine := by
  -- Between the samples only the inner frame differs from the start.
  obtain rfl | ⟨index, rfl⟩ := sampling <;> rfl

/-- The frame of the samples holds the plot's variable only, and binding it again replaces it. -/
theorem bindLocal_scopeAt (scope : Scope) (index : Nat) (value : Expr) :
    (range.scopeAt scope index).bindLocal range.name value =
      scope.push.bindLocal range.name value := by
  -- The frame of the plot holds its variable only, so the next value replaces the one before.
  simp [scopeAt, Scope.bindLocal, Scope.push, Frame.insert, Frame.put, Frame.empty]

/-- A sample depends on its place only, and not on the samples before it. -/
theorem Sampling.sample_eq (sampling : range.Sampling machine reached) (curve : Argument)
    (index : Nat) :
    range.sample curve index reached =
      (Evaluation.ofExcept (toNumber (range.scopeAt machine.scope (index + 1)) curve.tree) >>=
        fun value => pure (range.sampleAt (index + 1), value))
        { machine with scope := range.scopeAt machine.scope (index + 1) } := by
  obtain rfl | ⟨earlier, rfl⟩ := sampling
  · rfl
  · -- What is left of the sample before is the value of the variable, which is replaced.
    show (curve.measure >>= fun value => pure (range.sampleAt (index + 1), value))
      { machine with
        scope := (range.scopeAt machine.scope earlier).bindLocal range.name
          (.num (range.sampleAt (index + 1))) } = _
    rw [bindLocal_scopeAt]
    rfl

/-- Where the curve has a number, a sample is that number at its place. -/
theorem Sampling.sample_of_number (sampling : range.Sampling machine reached) {value : Float}
    (number : toNumber (range.scopeAt machine.scope (index + 1)) curve.tree = .ok value) :
    range.sample curve index reached = .ok (range.sampleAt (index + 1), value)
      { machine with scope := range.scopeAt machine.scope (index + 1) } := by
  -- The sample binds its place and measures the curve there.
  rw [sampling.sample_eq, number]
  rfl

/-- Where the curve has no number, the sample fails. -/
theorem Sampling.sample_of_error (sampling : range.Sampling machine reached) {error : EvalError}
    (fails : toNumber (range.scopeAt machine.scope (index + 1)) curve.tree = .error error) :
    range.sample curve index reached = .error error
      { machine with scope := range.scopeAt machine.scope (index + 1) } := by
  -- The sample binds its place, and the measure of the curve fails there.
  rw [sampling.sample_eq, fails]
  rfl

/-- A sample stays in the loop, whether it succeeds or fails. -/
theorem Sampling.after (sampling : range.Sampling machine reached) (curve : Argument)
    (index : Nat) : range.Sampling machine ((range.sample curve index).after reached) := by
  -- The variable is bound before the curve is measured, so a failure leaves it bound as well.
  refine .inr ⟨index + 1, ?_⟩
  cases measured : toNumber (range.scopeAt machine.scope (index + 1)) curve.tree with
  | ok value => exact after_of_ok (sampling.sample_of_number measured)
  | error error => exact after_of_error (sampling.sample_of_error measured)

/-- Any number of samples stays in the loop. -/
theorem sampling_of_rounds
    (rounds : Rounds (range.sample curve) { machine with scope := machine.scope.push } count
      results reached) : range.Sampling machine reached := by
  -- By what each round keeps: the machine is at the start or after one of the samples.
  apply rounds.keeps (range.Sampling machine)
  · exact .inl rfl
  · exact fun index _ sampling => sampling.after curve index

/-- Samples have been taken where the curve has numbers. -/
theorem numbers_of_rounds
    (rounds : Rounds (range.sample curve) { machine with scope := machine.scope.push } count
      results reached) :
    ∀ index < count, ∃ value,
      toNumber (range.scopeAt machine.scope (index + 1)) curve.tree = .ok value := by
  induction rounds with
  | none => exact fun _ within => absurd within (Nat.not_lt_zero _)
  | @next last _ _ _ _ earlier ran ih =>
    intro index within
    obtain before | rfl := Nat.lt_succ_iff_lt_or_eq.mp within
    · exact ih index before
    · -- The last sample would have failed without a number.
      cases measured : toNumber (range.scopeAt machine.scope (index + 1)) curve.tree with
      | ok value => exact ⟨value, rfl⟩
      | error error =>
        rw [(sampling_of_rounds earlier).sample_of_error measured] at ran
        cases ran

/-- The samples taken are the points of the plot. -/
theorem points_of_rounds {height : Nat → Float}
    (measures : range.Measures machine.scope curve.tree count height)
    (rounds : Rounds (range.sample curve) { machine with scope := machine.scope.push } count
      results reached) : results = range.points count height := by
  induction rounds with
  | none => rfl
  | @next last _ _ _ _ earlier ran ih =>
    have before := ih fun index within => measures index (Nat.lt_succ_of_lt within)
    -- The last round gives the last point, whatever the rounds before it left bound.
    have measured := measures last (Nat.lt_succ_self last)
    rw [(sampling_of_rounds earlier).sample_of_number measured] at ran
    cases ran
    rw [before, points, points, List.range_succ, List.map_append]
    rfl

/-- The visits of the loop are the samples, which are collected in front of each other. -/
theorem visitsBy_sample (range : PlotRange) (curve : Argument) :
    range.progression.VisitsBy (range.minimum - range.step) (range.sample curve)
      (fun points point => point :: points)
      (fun _ x points => do
        modifyScope (·.bindLocal range.name (.num x))
        return (x, ← curve.measure) :: points) := by
  -- A sample is what a visit does before it puts the point in front.
  intro index points
  simp only [sample, bind_assoc, pure_bind]
  rfl

/-- A sampling that comes to its end gives the points of the plot and leaves the machine as it
is. -/
theorem Completes.sampled_eq (completes : range.Completes machine.scope curve.tree count)
    {height : Nat → Float} (measures : range.Measures machine.scope curve.tree count height) :
    range.sampled curve machine = .ok (range.points count height).reverse machine := by
  obtain ⟨results, reached, rounds⟩ | ⟨index, within, results, reached, error, left, rounds,
    failed⟩ := rounds_or_fails (range.sample curve) { machine with scope := machine.scope.push }
      count
  · have ran : range.sampled curve machine = _ := withFrame_eq_of_ok
      (Progression.run_of_finished completes.takes (visitsBy_sample range curve) rounds
        completes.reaches)
    rw [(sampling_of_rounds rounds).pop, points_of_rounds measures rounds] at ran
    rw [ran, List.foldl_flip_cons_eq_append', List.append_nil]
  · -- The curve has a height at each sample, so none fails.
    rw [(sampling_of_rounds rounds).sample_of_number (measures index within)] at failed
    cases failed

/-- A sampling comes to its end, or it fails and leaves the machine as it is. -/
theorem completes_or_refuses (range : PlotRange) (curve : Argument) (machine : Machine) :
    (∃ count, range.Completes machine.scope curve.tree count) ∨
      (range.sampled curve).Refuses machine := by
  obtain ⟨count, takes⟩ := range.progression.exists_takes (range.minimum - range.step)
  obtain ⟨results, reached, rounds⟩ | ⟨index, within, results, reached, error, left, rounds,
    failed⟩ := rounds_or_fails (range.sample curve) { machine with scope := machine.scope.push }
      count
  · by_cases before : range.progression.isBefore (range.sampleAt count) = true
    · -- All samples are taken, but the step does not lead to the end of the range.
      have ran : range.sampled curve machine = _ := withFrame_eq_of_error
        (Progression.run_of_stuck takes (visitsBy_sample range curve) rounds before)
      rw [(sampling_of_rounds rounds).pop] at ran
      exact .inr ⟨_, ran⟩
    · exact .inl ⟨count, takes, before, numbers_of_rounds rounds⟩
  · -- Also a sample that fails stays in the loop, whose frame is then left.
    have after := (sampling_of_rounds rounds).after curve index
    rw [after_of_error failed] at after
    have ran : range.sampled curve machine = _ := withFrame_eq_of_error
      (Progression.run_of_failed takes (visitsBy_sample range curve) rounds within failed)
    rw [after.pop] at ran
    exact .inr ⟨error, ran⟩

end Samples

end PlotRange

namespace Operation

section Plots

variable {curve variableName minimum maximum step : Argument} {machine : Machine}
  {range : PlotRange}

/-- A plot with a settled range takes the samples and draws them. -/
theorem plotted_of_settled (curve : Argument)
    (settled : range.Settled machine.scope variableName.tree minimum.tree maximum.tree step.tree) :
    plotted ⟨"plot", [curve, variableName, minimum, maximum, step]⟩ machine =
      (range.sampled curve >>= fun points => do
        Evaluation.draw (.ofCurve curve.tree range.name points.reverse)
        return .num 1) machine := by
  have unbound : ¬ machine.scope.contains range.name = true := by simp [settled.unbound]
  have finite : ¬ (!(range.minimum.isFinite && range.maximum.isFinite &&
      range.step.isFinite)) = true := by simp [settled.finite]
  -- Each operand stands for its part of the range, and each check is passed.
  refine (bind_eq_of_ok ((ofExcept_eq_ok_iff machine).mpr settled.named)).trans ?_
  refine (bind_eq_of_ok (measure_eq_ok_iff.mpr settled.minimum)).trans ?_
  refine (bind_eq_of_ok (measure_eq_ok_iff.mpr settled.maximum)).trans ?_
  refine (bind_eq_of_ok (measure_eq_ok_iff.mpr settled.step)).trans ?_
  refine (congrFun (if_neg settled.ordered) machine).trans ((bind_eq_of_ok rfl).trans ?_)
  refine (congrFun (if_neg unbound) machine).trans ?_
  refine (congrFun (if_neg settled.positive) machine).trans ?_
  exact congrFun (if_neg finite) machine

/-- The range of a plot is settled, or the plot is refused. -/
theorem settled_or_refuses (curve variableName minimum maximum step : Argument)
    (machine : Machine) :
    (∃ range : PlotRange,
      range.Settled machine.scope variableName.tree minimum.tree maximum.tree step.tree) ∨
      (plotted ⟨"plot", [curve, variableName, minimum, maximum, step]⟩).Refuses machine := by
  refine ofExcept_or_refuses fun name named => ?_
  refine measure_or_refuses fun low lowest => measure_or_refuses fun high highest => ?_
  refine measure_or_refuses fun width wide => guard_or_refuses fun ordered => ?_
  -- The variables are looked at here, and they are still those that the operands were measured in.
  show _ ∨ Refuses (if machine.scope.contains name then _ else _) machine
  refine guard_or_refuses fun unbound => guard_or_refuses fun positive => ?_
  refine guard_or_refuses fun finite => ?_
  exact .inl ⟨⟨name, low, high, width⟩, named, lowest, highest, wide, ordered,
    by simpa using unbound, positive, by simpa using finite⟩

/-- A plot whose samples come to their end draws them and does nothing else. -/
theorem plotted_of_measures (curve variableName minimum maximum step : Argument) {count : Nat}
    {height : Nat → Float}
    (settled : range.Settled machine.scope variableName.tree minimum.tree maximum.tree step.tree)
    (completes : range.Completes machine.scope curve.tree count)
    (measures : range.Measures machine.scope curve.tree count height) :
    plotted ⟨"plot", [curve, variableName, minimum, maximum, step]⟩ machine =
      .ok (.num 1) { machine with
        sink := machine.sink.draw
          (.ofCurve curve.tree range.name (range.points count height)) } := by
  -- The points are collected from the last to the first and then turned around.
  rw [plotted_of_settled curve settled, bind_eq_of_ok (completes.sampled_eq measures),
    List.reverse_reverse]
  rfl

/-- A plot whose samples come to their end draws one plot and does nothing else. -/
theorem plotted_of_completes (curve variableName minimum maximum step : Argument) {count : Nat}
    (settled : range.Settled machine.scope variableName.tree minimum.tree maximum.tree step.tree)
    (completes : range.Completes machine.scope curve.tree count) :
    ∃ drawn, plotted ⟨"plot", [curve, variableName, minimum, maximum, step]⟩ machine =
      .ok (.num 1) { machine with sink := machine.sink.draw drawn } := by
  -- A plot that comes to its end has measured all its samples.
  obtain ⟨height, measures⟩ := completes.exists_measures
  exact ⟨_, plotted_of_measures curve variableName minimum maximum step settled completes measures⟩

/-- The range of a plot is settled and its samples come to their end, or the plot is refused. -/
theorem completes_or_refuses (curve variableName minimum maximum step : Argument)
    (machine : Machine) :
    (∃ (range : PlotRange) (count : Nat),
      range.Settled machine.scope variableName.tree minimum.tree maximum.tree step.tree ∧
        range.Completes machine.scope curve.tree count) ∨
      (plotted ⟨"plot", [curve, variableName, minimum, maximum, step]⟩).Refuses machine := by
  -- The checks come first, and then the samples are taken one after another.
  obtain ⟨range, settled⟩ | refused := settled_or_refuses curve variableName minimum maximum step
    machine
  · obtain ⟨count, completes⟩ | ⟨error, failed⟩ := range.completes_or_refuses curve machine
    · exact .inl ⟨range, count, settled, completes⟩
    · refine .inr ⟨error, ?_⟩
      rw [plotted_of_settled curve settled, bind_eq_of_error failed]
  · exact .inr refused

end Plots

end Operation

/-- One more plot is kept, behind those that were kept before. -/
theorem Sink.draw_cases (sink : Sink) (plot : ScatterPlot) :
    (∀ plots, sink = .recording plots → ∃ drawn, sink.draw plot = .recording (plots ++ [drawn])) ∧
      ∀ size pictures, sink = .pictures size pictures →
        ∃ drawn, sink.draw plot = .pictures size (pictures ++ [drawn]) := by
  -- Each kind of sink puts the plot behind the others in its own form.
  constructor
  · rintro plots rfl
    exact ⟨plot, rfl⟩
  · rintro size pictures rfl
    exact ⟨⟨plot.title, Svg.document size plot⟩, rfl⟩

/--
A plot is drawn as a whole or not at all, and nothing else is left of it.

Whatever the operands are, the variables in all frames and the generator are afterwards what they
were. If the plot fails, then so is the sink. If it succeeds, its result is one, and the sink keeps
one more plot, behind those that it kept before. It succeeds if and only if its operands stand for a
range that passes all checks, the step leads to the end of the range, and the curve has a number at
each sample.
-/
theorem plot_leaves_only_its_plot (curve variableName minimum maximum step : Expr)
    (machine : Machine) :
    let plot := evaluate .builtin (.op "plot" [curve, variableName, minimum, maximum, step])
    let left := plot.after machine
    left.scope = machine.scope ∧ left.random = machine.random ∧
    (∀ error, plot.answer machine = .error error → left.sink = machine.sink) ∧
    (∀ value, plot.answer machine = .ok value → value = .num 1 ∧
      (∀ plots, machine.sink = .recording plots →
        ∃ drawn, left.sink = .recording (plots ++ [drawn])) ∧
      ∀ size pictures, machine.sink = .pictures size pictures →
        ∃ drawn, left.sink = .pictures size (pictures ++ [drawn])) ∧
    ((∃ value, plot.answer machine = .ok value) ↔
      ∃ (range : PlotRange) (count : Nat),
        range.Settled machine.scope variableName minimum maximum step ∧
          range.Completes machine.scope curve count) := by
  intro plot left
  have draws {range : PlotRange} {count : Nat}
      (settled : range.Settled machine.scope variableName minimum maximum step)
      (completes : range.Completes machine.scope curve count) :
      ∃ drawn, plot machine = .ok (.num 1) { machine with sink := machine.sink.draw drawn } :=
    Operation.plotted_of_completes ⟨curve, _⟩ ⟨variableName, _⟩ ⟨minimum, _⟩ ⟨maximum, _⟩
      ⟨step, _⟩ settled completes
  -- There are two cases only: the samples come to their end, or the machine is left as it is.
  obtain ⟨range, count, settled, completes⟩ | ⟨error, refused⟩ := Operation.completes_or_refuses
    ⟨curve, evaluate .builtin curve⟩ ⟨variableName, evaluate .builtin variableName⟩
    ⟨minimum, evaluate .builtin minimum⟩ ⟨maximum, evaluate .builtin maximum⟩
    ⟨step, evaluate .builtin step⟩ machine
  · obtain ⟨drawn, drew⟩ := draws settled completes
    have leaves : left = _ := after_of_ok drew
    have answered : plot.answer machine = .ok (.num 1) := by rw [answer, drew]
    rw [leaves, answered]
    refine ⟨rfl, rfl, fun error failed => ?_, fun value same => ?_, ?_⟩
    · cases failed
    · exact ⟨(Except.ok.inj same).symm, machine.sink.draw_cases drawn⟩
    · exact ⟨fun _ => ⟨range, count, settled, completes⟩, fun _ => ⟨.num 1, rfl⟩⟩
  · have failed : plot machine = _ := refused
    have leaves : left = _ := after_of_error failed
    have answered : plot.answer machine = .error error := by rw [answer, failed]
    rw [leaves, answered]
    refine ⟨rfl, rfl, fun _ _ => rfl, fun value same => ?_, ?_, ?_⟩
    · cases same
    · rintro ⟨value, same⟩
      cases same
    · -- Samples that come to their end would have been drawn.
      rintro ⟨range, count, settled, completes⟩
      obtain ⟨drawn, drew⟩ := draws settled completes
      cases failed.symm.trans drew

/-- A plot that is kept. -/
private def earlierPlot : ScatterPlot := ⟨"z", "z", "f(z)", []⟩

/-- A machine that keeps a plot. -/
private def plottingMachine : Machine :=
  ⟨⟨[], ⟨[("y", .num 4)]⟩⟩, .recording [earlierPlot], .ofSeed 7⟩

/-- A plot of one sample is drawn behind an earlier plot, and one whose curve is an assignment
leaves no trace. -/
theorem plot_leaves_only_its_plot_samples :
    let plot (curve : Expr) :=
      evaluate .builtin (.op "plot" [curve, .var "x", .num 1, .num 1, .num 1])
    ((plot (.var "x")).after plottingMachine).scope = plottingMachine.scope ∧
    (∃ drawn, ((plot (.var "x")).after plottingMachine).sink = .recording [earlierPlot, drawn]) ∧
    ((plot (.assign "y" (.num 5))).after plottingMachine).scope = plottingMachine.scope ∧
    ((plot (.assign "y" (.num 5))).after plottingMachine).sink = plottingMachine.sink := by
  intro plot
  obtain ⟨scope, _, _, succeeds, ⟨_, ok⟩⟩ := plot_leaves_only_its_plot
    (.var "x") (.var "x") (.num 1) (.num 1) (.num 1) plottingMachine
  obtain ⟨assignedScope, _, fails, _, ⟨completed, _⟩⟩ := plot_leaves_only_its_plot
    (.assign "y" (.num 5)) (.var "x") (.num 1) (.num 1) (.num 1) plottingMachine
  refine ⟨scope, ?_, assignedScope, ?_⟩
  · -- There is one sample, at the only place of the range.
    have takes : Progression.Takes ⟨1, 1⟩ (1 - 1) 1 := by
      constructor
      · intro index within
        obtain rfl := Nat.lt_one_iff.mp within
        exact ⟨by decide, by decide⟩
      · exact fun round => absurd round.before (by decide)
    obtain ⟨value, answered⟩ := ok ⟨⟨"x", 1, 1, 1⟩, 1,
      ⟨rfl, rfl, rfl, rfl, by decide, by decide, by decide, by decide⟩, takes, by decide, by
        intro index within
        obtain rfl := Nat.lt_one_iff.mp within
        exact ⟨_, rfl⟩⟩
    exact (succeeds value answered).2.1 _ rfl
  · cases answered : (plot (.assign "y" (.num 5))).answer plottingMachine with
    | error error => exact fails error answered
    | ok value =>
      obtain ⟨range, count, settled, completes⟩ := completed ⟨value, answered⟩
      obtain ⟨name, minimum, maximum, step⟩ := range
      cases settled.named
      cases settled.minimum
      cases settled.maximum
      cases settled.step
      -- The first sample is before the end of the range, and there the curve has no number.
      have some : 0 < count := by
        apply Nat.pos_of_ne_zero
        rintro rfl
        exact completes.reaches (by decide)
      obtain ⟨number, measured⟩ := completes.numbers 0 some
      cases measured

end Calculator
