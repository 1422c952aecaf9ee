import Calculator.Proofs.Evaluation.Counters
import Calculator.Proofs.Evaluation.Plots
import Calculator.Proofs.Evaluation.Sums

/-! Samples: where a plot is sampled and in which order, and where its first sample is. -/

namespace Calculator

open Evaluation

/-- A new frame with one name leaves all other names as they are. -/
theorem Scope.get?_push_bindLocal (scope : Scope) {name other : String} (apart : other ≠ name)
    (value : Expr) : (scope.push.bindLocal name value).get? other = scope.get? other := by
  -- The new frame is asked first, and it has no value for the other name.
  have absent : (Frame.empty.insert name value).get? other = none := by
    rw [Frame.get?_insert, if_neg apart]
    rfl
  simp [Scope.push, Scope.bindLocal, Scope.get?, Scope.frames, absent]

namespace PlotRange

open Binary

section Ranges

variable {range : PlotRange} {scope : Scope} {variableName minimum maximum step : Expr}
  (settled : range.Settled scope variableName minimum maximum step)

include settled

/-- A settled range is finite. -/
theorem Settled.isFinite :
    (range.minimum.isFinite = true ∧ range.maximum.isFinite = true) ∧
      range.step.isFinite = true := by
  -- The three checks are made together.
  simpa only [Bool.and_eq_true] using settled.finite

/-- The step of a settled range is above zero. -/
theorem Settled.pos : 0 < range.step := by
  -- The check refuses steps up to zero, and of numbers all others are above it.
  have zero := isNumber_zero
  have number := isNumber_of_isFinite settled.isFinite.2
  have positive := settled.positive
  rw [le_iff_place number zero] at positive
  rw [lt_iff_place zero number]
  omega

/-- The sampling goes on below the end of the range. -/
theorem Settled.isBefore_iff {counter : Float} :
    range.progression.isBefore counter = true ↔ counter < range.maximum := by
  -- The step is above zero, so the bound is reached from below.
  have up : range.progression.step > 0 := settled.pos
  simp only [Progression.isBefore, if_pos up, decide_eq_true_eq]
  rfl

/-- Samples are at numbers. -/
theorem Settled.isNumber_sampleAt (index : Nat) : IsNumber (range.sampleAt index) := by
  -- From a number, finite steps lead to numbers.
  obtain ⟨⟨lowest, _⟩, wide⟩ := settled.isFinite
  exact range.progression.isNumber_counterAt wide
    (isNumber_sub (isNumber_of_isFinite lowest) wide) index

end Ranges

/-- The first sample is where a step back from the minimum and a step forth lead. -/
theorem fst_of_head?_points {range : PlotRange} {count : Nat} {height : Nat → Float}
    {point : Float × Float} (first : (range.points count height).head? = some point) :
    point.1 = range.minimum - range.step + range.step := by
  -- The first point is the one with index zero, one step after the start.
  rw [points, List.head?_map, List.head?_range] at first
  split at first
  · cases first
  · cases first
    rfl

/-- A sampling comes to its end if the step leads there and the curve has heights. -/
theorem completes_of_measures {range : PlotRange} {scope : Scope} {curve : Expr} {count : Nat}
    {height : Nat → Float}
    (rounds : ∀ index < count, range.progression.HasRound (range.sampleAt index))
    (reaches : ¬ range.progression.isBefore (range.sampleAt count) = true)
    (measures : range.Measures scope curve count height) : range.Completes scope curve count where
  takes := ⟨rounds, fun round => reaches round.before⟩
  reaches := reaches
  numbers := fun index within => ⟨_, measures index within⟩

section Order

variable {range : PlotRange} {scope : Scope} {curve variableName minimum maximum step : Expr}
  {count : Nat} (settled : range.Settled scope variableName minimum maximum step)
  (completes : range.Completes scope curve count)

include settled completes

/-- All samples but the last are below the end of the range, and so is what comes before them. -/
theorem Completes.lt_maximum {index : Nat} (within : index < count) :
    range.sampleAt index < range.maximum :=
  settled.isBefore_iff.mp (completes.takes.rounds index within).before

/-- The last sample is at the end of the range or beyond it. -/
theorem Completes.maximum_le :
    ¬ range.sampleAt count < range.maximum ∧ range.maximum ≤ range.sampleAt count := by
  -- The sampling has stopped at its bound, and numbers are ordered totally.
  have highest := isNumber_of_isFinite settled.isFinite.1.2
  have last := settled.isNumber_sampleAt count
  have reaches : ¬ range.sampleAt count < range.maximum := fun below =>
    completes.reaches (settled.isBefore_iff.mpr below)
  refine ⟨reaches, ?_⟩
  rw [lt_iff_place last highest] at reaches
  rw [le_iff_place highest last]
  omega

/-- The samples are taken from left to right. -/
theorem Completes.pairwise_points (height : Nat → Float) :
    ((range.points count height).map Prod.fst).Pairwise (· < ·) := by
  obtain ⟨⟨lowest, _⟩, wide⟩ := settled.isFinite
  have rising := range.progression.strictMonoOn_place wide
    (isNumber_sub (isNumber_of_isFinite lowest) wide) completes.takes.moves settled.pos
  -- The places are listed by their index, and they rise with it.
  rw [points, List.map_map, List.pairwise_map]
  refine List.pairwise_lt_range.imp_of_mem fun {index other} _ within before => ?_
  rw [List.mem_range] at within
  show range.sampleAt (index + 1) < range.sampleAt (other + 1)
  rw [lt_iff_place (settled.isNumber_sampleAt _) (settled.isNumber_sampleAt _)]
  exact rising (Set.mem_Iic.mpr (by omega)) (Set.mem_Iic.mpr (by omega)) (by omega)

/-- A plot has no points if its range is one place from which the step does not lead back. -/
theorem Completes.points_eq_nil_iff (height : Nat → Float) :
    range.points count height = [] ↔
      (range.minimum == range.maximum) = true ∧
        (range.minimum - range.step == range.minimum) = true := by
  obtain ⟨⟨lowest, highest⟩, wide⟩ := settled.isFinite
  have low := isNumber_of_isFinite lowest
  have high := isNumber_of_isFinite highest
  have back := isNumber_sub low wide
  have backwards := place_sub_le low wide settled.pos
  have ordered := settled.ordered
  rw [lt_iff_place high low] at ordered
  -- There are no points exactly when the sampling ends where it starts, a step before the range.
  have none_iff : range.points count height = [] ↔
      ¬ range.minimum - range.step < range.maximum := by
    rw [points, List.map_eq_nil_iff, List.range_eq_nil, ← sampleAt_zero]
    constructor
    · rintro rfl
      exact (completes.maximum_le settled).1
    · intro beyond
      by_contra some
      exact beyond (completes.lt_maximum settled (Nat.pos_of_ne_zero some))
  rw [none_iff, lt_iff_place back high, beq_iff_place low high, beq_iff_place back low]
  omega

/-- Where the step back from the minimum is exact, the first sample is at the minimum. -/
theorem Completes.head?_points_of_exact (height : Nat → Float)
    (finite : (range.minimum - range.step).isFinite = true)
    (exact : valueOf (range.minimum - range.step) = valueOf range.minimum - valueOf range.step) :
    ∃ point, (range.points count height).head? = some point ∧
      (point.1 == range.minimum) = true := by
  obtain ⟨⟨lowest, _⟩, wide⟩ := settled.isFinite
  have zero : (0 : Float).isFinite = true := rfl
  have positive : 0 < valueOf range.step := (lt_iff_valueOf zero wide).mp settled.pos
  -- An exact step back leads to a smaller value, so the sampling starts below the range.
  have some : range.points count height ≠ [] := by
    intro none
    have stays := ((completes.points_eq_nil_iff settled height).mp none).2
    rw [beq_iff_valueOf finite lowest, exact] at stays
    linarith
  -- From there the step forth is exact as well: it leads to the minimum, which is a double.
  have first := List.head?_eq_some_head some
  refine ⟨_, first, ?_⟩
  rw [fst_of_head?_points first]
  apply add_beq_of_valueOf finite wide lowest
  linarith

end Order

end PlotRange

section Drawn

variable {curve variableName minimum maximum step value : Expr} {machine left : Machine}

/-- A plot whose samples come to their end succeeds and draws them. -/
theorem evaluate_plot {range : PlotRange} {count : Nat} {height : Nat → Float}
    (settled : range.Settled machine.scope variableName minimum maximum step)
    (completes : range.Completes machine.scope curve count)
    (measures : range.Measures machine.scope curve count height) :
    evaluate .builtin (.op "plot" [curve, variableName, minimum, maximum, step]) machine =
      .ok (.num 1) { machine with
        sink := machine.sink.draw (.ofCurve curve range.name (range.points count height)) } :=
  Operation.plotted_of_measures ⟨curve, _⟩ ⟨variableName, _⟩ ⟨minimum, _⟩ ⟨maximum, _⟩ ⟨step, _⟩
    settled completes measures

/-- A plot that succeeds draws the points of a settled range. -/
theorem exists_drawn
    (succeeds : evaluate .builtin (.op "plot" [curve, variableName, minimum, maximum, step])
      machine = .ok value left) :
    ∃ (range : PlotRange) (count : Nat) (height : Nat → Float),
      range.Settled machine.scope variableName minimum maximum step ∧
      range.Completes machine.scope curve count ∧
      range.Measures machine.scope curve count height ∧
      left = { machine with
        sink := machine.sink.draw (.ofCurve curve range.name (range.points count height)) } := by
  obtain ⟨range, count, settled, completes⟩ | ⟨error, refused⟩ := Operation.completes_or_refuses
    ⟨curve, evaluate .builtin curve⟩ ⟨variableName, evaluate .builtin variableName⟩
    ⟨minimum, evaluate .builtin minimum⟩ ⟨maximum, evaluate .builtin maximum⟩
    ⟨step, evaluate .builtin step⟩ machine
  · -- It has one outcome only, which is the one of the samples that come to their end.
    obtain ⟨height, measures⟩ := completes.exists_measures
    cases succeeds.symm.trans (evaluate_plot settled completes measures)
    exact ⟨range, count, height, settled, completes, measures, rfl⟩
  · cases succeeds.symm.trans refused

end Drawn

/--
A plot is sampled a step apart, from a step before its range on and up to its end.

For a plot that succeeds, let `x` start a step before the minimum and go on by the step. Its points
are at `x 1` to `x count`, in this order, where `x count` is the first that is not below the
maximum; so all points but the last are below the maximum, the last is not, and they are taken from
left to right. The height of a point is the number that the curve stands for when the variable of
the plot is bound to the place, in a new frame: what other variables are defined by is read there,
too, and follows the sample. The title is the text of the curve, and the labels are the variable
and the function of it.
-/
theorem plot_samples_its_range (curve variableName minimum maximum step value : Expr)
    (machine left : Machine)
    (succeeds : evaluate .builtin (.op "plot" [curve, variableName, minimum, maximum, step])
      machine = .ok value left) :
    ∃ (name : String) (low high width : Float) (count : Nat) (y : Nat → Float),
      let x (index : Nat) : Float := (fun x => x + width)^[index] (low - width)
      let scopeAt (index : Nat) : Scope := machine.scope.push.bindLocal name (.num (x index))
      let points := (List.range count).map fun index => (x (index + 1), y (index + 1))
      boundVariable "plot" variableName = .ok name ∧ toNumber machine.scope minimum = .ok low ∧
      toNumber machine.scope maximum = .ok high ∧ toNumber machine.scope step = .ok width ∧
      left = { machine with
        sink := machine.sink.draw ⟨curve.text, name, s!"f({name})", points⟩ } ∧
      (∀ index < count, x index < high) ∧ ¬ x count < high ∧ high ≤ x count ∧
      (points.map Prod.fst).Pairwise (· < ·) ∧
      (∀ index, 0 < index → index ≤ count → toNumber (scopeAt index) curve = .ok (y index)) ∧
      ∀ index, toNumber (scopeAt index) (.var name) = .ok (x index) ∧
        ∀ other definition number, other ≠ name → machine.scope.get? other = some definition →
          (toNumber (scopeAt index) (.var other) = .ok number ↔
            toNumber (scopeAt index) definition = .ok number) := by
  -- A plot that succeeds has a settled range, whose samples come to their end.
  obtain ⟨range, count, height, settled, completes, measures, leaves⟩ := exists_drawn succeeds
  obtain ⟨reaches, maximum_le⟩ := completes.maximum_le settled
  refine ⟨range.name, range.minimum, range.maximum, range.step, count, height, ?_⟩
  refine ⟨settled.named, settled.minimum, settled.maximum, settled.step, leaves,
    fun index within => completes.lt_maximum settled within, reaches, maximum_le,
    completes.pairwise_points settled height, fun index some within => ?_,
    fun index => ⟨?_, fun other definition number apart defined => ?_⟩⟩
  · obtain ⟨index, rfl⟩ := Nat.exists_eq_add_one_of_ne_zero some.ne'
    exact measures index within
  · rw [toNumber_var_iff (machine.scope.push.get?_bindLocal range.name _)]
    rfl
  · exact toNumber_var_iff ((machine.scope.get?_push_bindLocal apart _).trans defined)

/-- A machine where the variable `a` is defined by another, which is not bound. -/
private def definingMachine : Machine := ⟨⟨[], ⟨[("a", .var "x")]⟩⟩, .recording [], .ofSeed 7⟩

/-- What is defined by the variable of a plot has the samples as its heights. -/
private theorem measures_defined {range : PlotRange} (named : range.name = "x") (count : Nat) :
    range.Measures definingMachine.scope (.var "a") count range.sampleAt := by
  intro index _
  rw [PlotRange.scopeAt, named]
  -- The curve is read through its definition, which is bound to the sample.
  have defined : definingMachine.scope.get? "a" = some (.var "x") := rfl
  refine (toNumber_var_iff
    ((definingMachine.scope.get?_push_bindLocal (by decide) _).trans defined)).2 ?_
  exact (toNumber_var_iff (Scope.get?_bindLocal _ _ _)).2 rfl

/-- The range from one to three in steps of one. -/
private def oneToThree : PlotRange := ⟨"x", 1, 3, 1⟩

/-- A curve that is defined by the plot's variable follows the samples, which are taken from left to
right at one, two and three. -/
theorem plot_samples_its_range_followed :
    let x (index : Nat) : Float := (fun x => x + 1)^[index] (1 - 1)
    let points := [(x 1, x 1), (x 2, x 2), (x 3, x 3)]
    evaluate .builtin (.op "plot" [.var "a", .var "x", .num 1, .num 3, .num 1]) definingMachine =
        .ok (.num 1) { definingMachine with sink := .recording [⟨"a", "x", "f(x)", points⟩] } ∧
      ((x 1 == 1) = true ∧ (x 2 == 2) = true ∧ (x 3 == 3) = true) ∧
      (points.map Prod.fst).Pairwise (· < ·) ∧ (∀ index < 3, x index < 3) ∧ ¬ x 3 < 3 := by
  have settled : oneToThree.Settled definingMachine.scope (.var "x") (.num 1) (.num 3) (.num 1) :=
    ⟨rfl, rfl, rfl, rfl, by decide, by decide, by decide, by decide⟩
  have measures : oneToThree.Measures definingMachine.scope (.var "a") 3 oneToThree.sampleAt :=
    measures_defined rfl 3
  have completes := PlotRange.completes_of_measures (by decide) (by decide) measures
  have succeeds := evaluate_plot settled completes measures
  obtain ⟨name, low, high, width, count, y, named, lowest, highest, wide, leaves, below, ends, _,
    rising, heights, follows⟩ := plot_samples_its_range (.var "a") (.var "x") (.num 1) (.num 3)
      (.num 1) (.num 1) definingMachine _ succeeds
  cases named
  cases lowest
  cases highest
  cases wide
  -- The third sample is the first one that is not below three.
  obtain rfl : count = 3 := by
    rcases Nat.lt_trichotomy count 3 with fewer | three | more
    · exact absurd (completes.lt_maximum settled fewer) ends
    · exact three
    · exact absurd (below 3 more) (completes.maximum_le settled).1
  -- The curve is read through its definition, which is the plot's variable.
  have follow (index : Nat) (some : 0 < index) (within : index ≤ 3) :
      y index = (fun x => x + 1)^[index] (1 - 1) := by
    obtain ⟨sampled, defined⟩ := follows index
    have followed := (defined "a" (.var "x") (y index) (by decide) rfl).mp
      (heights index some within)
    exact Except.ok.inj (followed.symm.trans sampled)
  have three : List.range 3 = [0, 1, 2] := rfl
  rw [leaves, three, List.map_cons, List.map_cons, List.map_cons, List.map_nil,
    follow 1 (by decide) (by decide), follow 2 (by decide) (by decide),
    follow 3 (by decide) (by decide)] at succeeds
  exact ⟨succeeds, ⟨by decide, by decide, by decide⟩, rising, below, ends⟩

/-- The range of a single place. -/
private def singlePlace : PlotRange := ⟨"x", 3, 3, 1⟩

/-- A plot of a single place, whose curve is defined by its variable, succeeds. -/
private theorem evaluate_singlePlace :
    ∃ left, evaluate .builtin (.op "plot" [.var "a", .var "x", .num 3, .num 3, .num 1])
      definingMachine = .ok (.num 1) left := by
  -- The one sample is at the end of the range, and the curve is measured there.
  have settled : singlePlace.Settled definingMachine.scope (.var "x") (.num 3) (.num 3) (.num 1) :=
    ⟨rfl, rfl, rfl, rfl, by decide, by decide, by decide, by decide⟩
  have measures : singlePlace.Measures definingMachine.scope (.var "a") 1 singlePlace.sampleAt :=
    measures_defined rfl 1
  have completes := PlotRange.completes_of_measures (by decide) (by decide) measures
  exact ⟨_, evaluate_plot settled completes measures⟩

/--
The first sample of a plot is where a step back from its minimum and a step forth lead.

A plot that succeeds has a point, unless its range is one place from which the step does not lead
away. Its first point is at the minimum if the step back is exact.
-/
theorem plot_starts_back_and_forth (curve variableName minimum maximum step value : Expr)
    (machine left : Machine)
    (succeeds : evaluate .builtin (.op "plot" [curve, variableName, minimum, maximum, step])
      machine = .ok value left) :
    ∃ (low high width : Float) (drawn : ScatterPlot),
      toNumber machine.scope minimum = .ok low ∧ toNumber machine.scope maximum = .ok high ∧
      toNumber machine.scope step = .ok width ∧
      left = { machine with sink := machine.sink.draw drawn } ∧
      (drawn.points = [] ↔ (low == high) = true ∧ (low - width == low) = true) ∧
      (∀ point, drawn.points.head? = some point → point.1 = low - width + width) ∧
      ((low - width).isFinite = true →
        Binary.valueOf (low - width) = Binary.valueOf low - Binary.valueOf width →
        ∃ point, drawn.points.head? = some point ∧ (point.1 == low) = true) := by
  -- All parts are facts about the points of the settled range.
  obtain ⟨range, count, height, settled, completes, _, leaves⟩ := exists_drawn succeeds
  refine ⟨range.minimum, range.maximum, range.step, _, settled.minimum, settled.maximum,
    settled.step, leaves, completes.points_eq_nil_iff settled height,
    fun point => PlotRange.fst_of_head?_points, completes.head?_points_of_exact settled height⟩

/-- A plot of a single place has its first point there if a step back from it is exact. -/
theorem plot_starts_back_and_forth_exact :
    ∃ left drawn point, evaluate .builtin
        (.op "plot" [.var "a", .var "x", .num 3, .num 3, .num 1]) definingMachine =
          .ok (.num 1) left ∧
      left = { definingMachine with sink := definingMachine.sink.draw drawn } ∧
      drawn.points.head? = some point ∧ (point.1 == 3) = true := by
  -- From three, a step of one back is exact, as all the numbers are whole and small.
  obtain ⟨left, succeeds⟩ := evaluate_singlePlace
  obtain ⟨low, high, width, drawn, lowest, highest, wide, leaves, _, _, starts⟩ :=
    plot_starts_back_and_forth (.var "a") (.var "x") (.num 3) (.num 3) (.num 1) (.num 1)
      definingMachine left succeeds
  cases lowest
  cases highest
  cases wide
  have exact : Binary.valueOf (3 - 1) = Binary.valueOf 3 - Binary.valueOf 1 := by
    have back : Binary.valueOf (3 - 1) = Binary.valueOf 2 :=
      (Binary.beq_iff_valueOf rfl rfl).mp (by decide)
    have three : Binary.valueOf 3 = (3 : Nat) := (Binary.valueOf_ofNat (by decide)).2
    have two : Binary.valueOf 2 = (2 : Nat) := (Binary.valueOf_ofNat (by decide)).2
    have one : Binary.valueOf 1 = (1 : Nat) := (Binary.valueOf_ofNat (by decide)).2
    rw [back, three, two, one]
    norm_num
  obtain ⟨point, first, same⟩ := starts rfl exact
  exact ⟨left, drawn, point, succeeds, leaves, first, same⟩

/-- The range of a place that a step back and forth does not lead to. -/
private def missedPlace : PlotRange := ⟨"x", 0.1, 0.1, 1⟩

/-- The range of a place that the step does not lead away from. -/
private def stuckPlace : PlotRange := ⟨"x", 1, 1, 1e-20⟩

/-- A step of one back from a tenth and forth again does not lead to a tenth, and where the step
does not lead away from the range, the plot has no points. -/
theorem plot_misses_minimum :
    ∃ missed stuck : ScatterPlot,
      evaluate .builtin (.op "plot" [.var "x", .var "x", .num 0.1, .num 0.1, .num 1])
          definingMachine =
        .ok (.num 1) { definingMachine with sink := definingMachine.sink.draw missed } ∧
      (∃ point, missed.points.head? = some point ∧ (point.1 == 0.1) = false) ∧
      evaluate .builtin (.op "plot" [.var "x", .var "x", .num 1, .num 1, .num 1e-20])
          definingMachine =
        .ok (.num 1) { definingMachine with sink := definingMachine.sink.draw stuck } ∧
      stuck.points = [] := by
  have measures (range : PlotRange) (count : Nat) (named : range.name = "x") :
      range.Measures definingMachine.scope (.var "x") count range.sampleAt := by
    intro index _
    rw [PlotRange.scopeAt, named, toNumber_var_iff (Scope.get?_bindLocal _ _ _)]
    rfl
  have missedSettled :
      missedPlace.Settled definingMachine.scope (.var "x") (.num 0.1) (.num 0.1) (.num 1) :=
    ⟨rfl, rfl, rfl, rfl, by decide, by decide, by decide, by decide⟩
  have stuckSettled :
      stuckPlace.Settled definingMachine.scope (.var "x") (.num 1) (.num 1) (.num 1e-20) :=
    ⟨rfl, rfl, rfl, rfl, by decide, by decide, by decide, by decide⟩
  -- The one plot has two points, as the first is still below the end of the range.
  have missed := evaluate_plot missedSettled
    (PlotRange.completes_of_measures (by decide) (by decide) (measures _ 2 rfl)) (measures _ 2 rfl)
  have stuck := evaluate_plot stuckSettled
    (PlotRange.completes_of_measures (by decide) (by decide) (measures _ 0 rfl)) (measures _ 0 rfl)
  exact ⟨_, _, missed, ⟨_, rfl, by decide⟩, stuck, rfl⟩

end Calculator
