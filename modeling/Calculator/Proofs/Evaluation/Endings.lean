import Calculator.Proofs.Evaluation.Landing
import Calculator.Proofs.Evaluation.Samples

/-! Endings: the loops of sums and plots take no more rounds than there are places up to their
bound, also where a counter is infinite. -/

namespace Calculator

open Evaluation

namespace Binary

section Infinities

variable {a b : Float}

/-- A number that is not finite is an infinity. -/
theorem unpack_of_infinite (number : IsNumber a) (infinite : ¬ a.isFinite = true) :
    ∃ sign, a.toModel.unpack = .infinity sign := by
  -- Of what a double can hold, only an infinity is left.
  cases unpacked : a.toModel.unpack with
  | notANumber => exact absurd unpacked number
  | infinity sign => exact ⟨sign, rfl⟩
  | zero | finite =>
    have finite : a.toModel.unpack.isFinite = true := by rw [unpacked]; rfl
    exact absurd finite infinite

/-- A finite step does not lead away from an infinity. -/
theorem add_beq_of_infinite (number : IsNumber a) (infinite : ¬ a.isFinite = true)
    (finite : b.isFinite = true) : (a + b == a) = true := by
  rw [beq_iff_place (isNumber_add number finite) number]
  obtain ⟨sign, unpacked⟩ := unpack_of_infinite number infinite
  have held := held_of_isFinite finite
  -- Whatever is added, the sum holds what the infinity holds.
  show rank (stored (Float.Model.UnpackedFloat.add .binary64 a.toModel.unpack b.toModel.unpack)) =
    rank a.toModel.unpack
  rw [unpacked]
  have lost : Float.Model.UnpackedFloat.add .binary64 (.infinity sign) b.toModel.unpack =
      .infinity sign := by
    generalize b.toModel.unpack = v at held
    cases held <;> rfl
  rw [lost, stored_infinity]

/-- No number lies below the negative infinity. -/
theorem neg_le_place (value : Float) : -2 ^ (64 : Nat) ≤ place value := by
  -- The lowest place is the opposite of the highest.
  have above := place_le (-value)
  rw [place_neg] at above
  omega

/-- Finite doubles lie between the infinities. -/
theorem abs_place_lt (finite : a.isFinite = true) : |place a| < 2 ^ (64 : Nat) := by
  -- The keys of finite numbers have 64 bits, and the infinities come right behind those.
  have held := held_of_isFinite finite
  unfold place
  generalize a.toModel.unpack = u at held
  rw [abs_lt]
  cases held with
  | zero =>
    simp only [rank]
    omega
  | @finite sign _ _ _ canonical =>
    have bounds := key_bounds canonical
    cases sign <;> simp only [rank] <;> omega

/-- An infinity that is no higher than a finite double is the negative one. -/
theorem place_of_infinite (number : IsNumber a) (infinite : ¬ a.isFinite = true)
    (finite : b.isFinite = true) (lower : place a ≤ place b) : place a = -2 ^ (64 : Nat) := by
  -- The positive infinity would be above every finite double.
  obtain ⟨sign, unpacked⟩ := unpack_of_infinite number infinite
  have below := (abs_lt.mp (abs_place_lt finite)).2
  cases sign with
  | negative =>
    rw [place, unpacked]
    rfl
  | positive =>
    have highest : place a = 2 ^ (64 : Nat) := by
      rw [place, unpacked]
      rfl
    omega

end Infinities

end Binary

namespace Progression

open Binary

section Endings

variable {progression : Progression} {first : Float} {count index : Nat}

/-- There are so many places at most. -/
theorem remaining_le (progression : Progression) (counter : Float) :
    progression.remaining counter ≤ 2 ^ 65 := by
  -- Both places lie between those of the infinities.
  have highest := place_le progression.bound
  have lowest := neg_le_place progression.bound
  have high := place_le counter
  have low := neg_le_place counter
  unfold remaining
  split
  · omega
  · exact Nat.zero_le _

/-- Each round takes at least one of the places that are left. -/
theorem Takes.add_remaining_le (takes : progression.Takes first count) (within : index ≤ count) :
    index + progression.remaining (progression.counterAt first index) ≤
      progression.remaining first := by
  -- By induction on the rounds, each of which takes one place more.
  induction index with
  | zero => simp
  | succ index ih =>
    have round := takes.rounds index within
    have closer := progression.remaining_lt _ round.before (by simp [round.moves])
    have earlier := ih (Nat.le_of_succ_le within)
    rw [counterAt_succ]
    omega

/-- An infinite counter has no round. -/
theorem Takes.eq_of_infinite (takes : progression.Takes first count)
    (finite : progression.step.isFinite = true) (number : IsNumber first) (within : index ≤ count)
    (infinite : ¬ (progression.counterAt first index).isFinite = true) : index = count := by
  -- It would be moved by its round, and an infinity stays where it is.
  by_contra apart
  have moves := (takes.rounds index (by omega)).moves
  have stays := add_beq_of_infinite (progression.isNumber_counterAt finite number index) infinite
    finite
  rw [stays] at moves
  cases moves

/--
A loop comes to its end after a number of rounds.

Each of its first counters is before the bound, and the step leads from it to a place that is nearer
to the bound. The next counter has reached the bound, or the step does not lead away from it; an
infinite counter is always this last one. The loop visits the counters in turn and then ends or
fails, whatever it does in its visits.
-/
structure EndsAfter (progression : Progression) (first : Float) (count : Nat) : Prop where
  rounds : ∀ index < count,
    progression.isBefore (progression.counterAt first index) = true ∧
      (progression.counterAt first index + progression.step ==
        progression.counterAt first index) = false ∧
      progression.remaining (progression.counterAt first (index + 1)) <
        progression.remaining (progression.counterAt first index)
  ends : ¬ progression.isBefore (progression.counterAt first count) = true ∨
    (progression.counterAt first count + progression.step ==
      progression.counterAt first count) = true
  few : count ≤ progression.remaining first ∧ count ≤ 2 ^ 65
  infinite : ∀ index ≤ count,
    (progression.counterAt first index).isFinite = false → index = count
  runs : ∀ (α : Type) (stuck : Float → EvalError) (visit : Float → Float → α → Evaluation α)
    (value : α), progression.run stuck visit first value =
      visitsInTurn visit (progression.counterAt first) count value >>=
        progression.endAt stuck (progression.counterAt first count)

/-- A loop with a finite step comes to its end, wherever it starts. -/
theorem exists_endsAfter (progression : Progression) (finite : progression.step.isFinite = true)
    (number : IsNumber first) : ∃ count, progression.EndsAfter first count := by
  -- The rounds that the loop takes until it stops are the number that is asked for.
  obtain ⟨count, takes⟩ := progression.exists_takes first
  have few : count ≤ progression.remaining first := by
    have all := takes.add_remaining_le le_rfl
    omega
  refine ⟨count, ?_, takes.reached_or_stuck, ⟨few, few.trans (progression.remaining_le first)⟩,
    ?_, fun α stuck visit value => run_of_takes stuck takes value⟩
  · intro index within
    have round := takes.rounds index within
    rw [counterAt_succ]
    exact ⟨round.before, round.moves,
      progression.remaining_lt _ round.before (by simp [round.moves])⟩
  · intro index within infinite
    exact takes.eq_of_infinite finite number within (by simp [infinite])

/-- The rounds after which a loop ends are all that it takes. -/
theorem EndsAfter.takes (ends : progression.EndsAfter first count) :
    progression.Takes first count where
  rounds := fun index within =>
    ⟨(ends.rounds index within).1, (ends.rounds index within).2.1⟩
  ends := by
    -- A round would go on from before the bound, and its step would lead on.
    intro round
    rcases ends.ends with reached | stuck
    · exact reached round.before
    · exact absurd (stuck.symm.trans round.moves) (by decide)

/-- A loop takes one number of rounds only. -/
theorem Takes.unique {other : Nat} (takes : progression.Takes first count)
    (also : progression.Takes first other) : count = other := by
  -- The smaller of two numbers would end the rounds of the other.
  rcases Nat.lt_trichotomy count other with fewer | same | more
  · exact absurd (also.rounds count fewer) takes.ends
  · exact same
  · exact absurd (takes.rounds other more) also.ends

/-- A loop that ends where it starts has no rounds. -/
theorem EndsAfter.eq_zero (ends : progression.EndsAfter first count)
    (infinite : first.isFinite = false) : count = 0 :=
  (ends.infinite 0 (Nat.zero_le count) infinite).symm

end Endings

section Starts

variable {origin bound width : Float}

/-- Counting down from a start that overflows is over at once. -/
theorem not_isBefore_of_infinite_start (originFinite : origin.isFinite = true)
    (boundFinite : bound.isFinite = true) (widthFinite : width.isFinite = true)
    (down : width < 0) (infinite : ¬ (origin + width).isFinite = true) :
    ¬ isBefore ⟨bound, width⟩ (origin + width) = true := by
  have number := isNumber_add (isNumber_of_isFinite originFinite) widthFinite
  have negative := (lt_iff_place (isNumber_of_isFinite widthFinite) isNumber_zero).mp down
  rw [place_zero] at negative
  -- A step down leads to the negative infinity, which is not above any bound.
  have lower : place (origin + width) ≤ place origin :=
    (rank_add _ _ (canonical_unpack _) (stored_unpack _) (stored_unpack _) number).2 negative.le
  have lowest := place_of_infinite number infinite originFinite lower
  have bounds := neg_le_place bound
  have notUp : ¬ 0 < width := by
    rw [lt_iff_place isNumber_zero (isNumber_of_isFinite widthFinite), place_zero]
    omega
  rw [isBefore_iff, if_neg notUp, lt_iff_place (isNumber_of_isFinite boundFinite) number]
  omega

/-- Sampling from a start that overflows is stuck at once. -/
theorem isBefore_of_infinite_start (originFinite : origin.isFinite = true)
    (boundFinite : bound.isFinite = true) (widthFinite : width.isFinite = true)
    (up : 0 < width) (infinite : ¬ (origin - width).isFinite = true) :
    isBefore ⟨bound, width⟩ (origin - width) = true ∧
      (origin - width + width == origin - width) = true := by
  have number := isNumber_sub (isNumber_of_isFinite originFinite) widthFinite
  -- The place before the range is the negative infinity, which is below any bound.
  have lower := place_sub_le (isNumber_of_isFinite originFinite) widthFinite up
  have lowest := place_of_infinite number infinite originFinite lower
  have bounds := (abs_lt.mp (abs_place_lt boundFinite)).1
  refine ⟨?_, add_beq_of_infinite number infinite widthFinite⟩
  rw [isBefore_iff, if_pos up, lt_iff_place number (isNumber_of_isFinite boundFinite)]
  omega

end Starts

end Progression

/-- What a plot does with a counter: it binds the next one and measures the curve there. -/
def plotVisit (name : String) (curve : Expr) (_counter x : Float) (points : List (Float × Float)) :
    Evaluation (List (Float × Float)) := do
  modifyScope (·.bindLocal name (.num x))
  return (x, ← Argument.measure ⟨curve, evaluate .builtin curve⟩) :: points

section Loops

variable {origin bound width low high : Float} {count : Nat} {machine : Machine} {name : String}

/-- A sum is its visits in turn, up to where its loop ends. -/
theorem evaluate_sum_of_endsAfter
    (ends : Progression.EndsAfter ⟨bound, width⟩ (if width < 0 then origin + width else origin)
      count)
    (finite : (origin.isFinite && bound.isFinite && width.isFinite) = true)
    (nonzero : (width == 0) = false) {start stop variableName step : Expr} (body : Expr)
    {afterStart afterStop head : Machine} (started : start.ResolvesTo machine origin afterStart)
    (stopped : stop.ResolvesTo afterStart bound afterStop)
    (named : boundVariable "for" variableName = .ok name)
    (stepped : step.ResolvesTo afterStop width head) (unbound : head.scope.contains name = false) :
    let progression : Progression := ⟨bound, width⟩
    let counter := progression.counterAt (if width < 0 then origin + width else origin)
    evaluate .builtin (.op "for" [start, stop, variableName, step, body]) machine =
      (withFrame (visitsInTurn (sumVisit name body) counter count 0 >>=
        progression.endAt (.stepTooSmall "for" width) (counter count)) >>= fun sum =>
          pure (.num sum)) head := by
  intro progression counter
  -- The operands resolve to an admitted range, and the run is rewritten from right to left.
  have settled : Operation.sumRange _ _ ⟨variableName, evaluate .builtin variableName⟩ _ machine =
      _ := Operation.sumRange_of_resolve (started.resolve _) (stopped.resolve _) named
        (stepped.resolve _) finite nonzero unbound
  rw [← ends.runs]
  exact Operation.summed_eq_of_settled settled

/-- A plot is its samples in turn, up to where its loop ends, and then it is drawn. -/
theorem evaluate_plot_of_endsAfter
    (ends : Progression.EndsAfter ⟨high, width⟩ (low - width) count)
    {variableName minimum maximum step : Expr} (curve : Expr)
    (settled : PlotRange.Settled ⟨name, low, high, width⟩ machine.scope variableName minimum
      maximum step) :
    let progression : Progression := ⟨high, width⟩
    let counter := progression.counterAt (low - width)
    evaluate .builtin (.op "plot" [curve, variableName, minimum, maximum, step]) machine =
      (withFrame (visitsInTurn (plotVisit name curve) counter count [] >>=
        progression.endAt (.stepTooSmall "plot" width) (counter count)) >>= fun points => do
          draw (.ofCurve curve name points.reverse)
          return .num 1) machine := by
  -- The operands settle the range, and the run is rewritten from right to left.
  intro progression counter
  have drawn : Operation.plotted ⟨"plot", [⟨curve, evaluate .builtin curve⟩,
      ⟨variableName, evaluate .builtin variableName⟩, ⟨minimum, evaluate .builtin minimum⟩,
      ⟨maximum, evaluate .builtin maximum⟩, ⟨step, evaluate .builtin step⟩]⟩ machine = _ :=
    Operation.plotted_of_settled _ settled
  rw [← ends.runs]
  exact drawn

/-- The check of a range looks at its two ends and at its step. -/
theorem isFinite_each (finite : (low.isFinite && high.isFinite && width.isFinite) = true) :
    low.isFinite = true ∧ high.isFinite = true ∧ width.isFinite = true := by
  -- The three checks are made together.
  simpa only [Bool.and_eq_true, and_assoc] using finite

/-- Numbers in order pass the checks of a plot, which refuse the opposite order. -/
theorem PlotRange.settled_of_ordered {scope : Scope} {variableName minimum maximum step : Expr}
    (finite : (low.isFinite && high.isFinite && width.isFinite) = true) (ordered : low ≤ high)
    (up : 0 < width) (named : boundVariable "plot" variableName = .ok name)
    (lowest : toNumber scope minimum = .ok low) (highest : toNumber scope maximum = .ok high)
    (wide : toNumber scope step = .ok width) (unbound : scope.contains name = false) :
    PlotRange.Settled ⟨name, low, high, width⟩ scope variableName minimum maximum step := by
  -- The order of numbers is total, so what is not refused is in order.
  obtain ⟨lowFinite, highFinite, widthFinite⟩ := isFinite_each finite
  have lowNumber := Binary.isNumber_of_isFinite lowFinite
  have highNumber := Binary.isNumber_of_isFinite highFinite
  have widthNumber := Binary.isNumber_of_isFinite widthFinite
  rw [Binary.le_iff_place lowNumber highNumber] at ordered
  rw [Binary.lt_iff_place Binary.isNumber_zero widthNumber] at up
  refine ⟨named, lowest, highest, wide, ?_, unbound, ?_, finite⟩
  · rw [Binary.lt_iff_place highNumber lowNumber]
    omega
  · rw [Binary.le_iff_place widthNumber Binary.isNumber_zero]
    omega

/-- The first counter of a sum is a number, and if it is not finite, the sum counted down to it. -/
theorem first_isNumber (originFinite : origin.isFinite = true)
    (widthFinite : width.isFinite = true) :
    Binary.IsNumber (if width < 0 then origin + width else origin) ∧
      ((if width < 0 then origin + width else origin).isFinite = false → width < 0) := by
  -- Only a sum that counts down moves away from its finite start.
  have number := Binary.isNumber_of_isFinite originFinite
  split
  · rename_i down
    exact ⟨Binary.isNumber_add number widthFinite, fun _ => down⟩
  · exact ⟨number, fun infinite => absurd originFinite (by simp [infinite])⟩

end Loops

/--
The loops of sums and plots come to an end for every range that is admitted.

For a sum with finite bounds and a finite step other than zero there is a number of rounds after
which its counter has reached the bound or its step does not lead on, and the sum is the visits of
these rounds in turn and, in the second case, the failure. If the first counter of a sum that counts
down overflows, there are no rounds and no failure. The same holds of a plot with a finite range and
a finite step above zero, except that its sampling fails at once if the place before the range
overflows.
-/
theorem sums_and_plots_end :
    (∀ origin bound width : Float,
      (origin.isFinite && bound.isFinite && width.isFinite) = true → (width == 0) = false →
      let first := if width < 0 then origin + width else origin
      let progression : Progression := ⟨bound, width⟩
      let counter := progression.counterAt first
      ∃ count, progression.EndsAfter first count ∧
        (first.isFinite = false → count = 0 ∧ ¬ progression.isBefore first = true) ∧
        ∀ (start stop variableName step body : Expr) (name : String)
          (machine afterStart afterStop head : Machine),
          start.ResolvesTo machine origin afterStart → stop.ResolvesTo afterStart bound afterStop →
          boundVariable "for" variableName = .ok name → step.ResolvesTo afterStop width head →
          head.scope.contains name = false →
          evaluate .builtin (.op "for" [start, stop, variableName, step, body]) machine =
            (withFrame (visitsInTurn (sumVisit name body) counter count 0 >>=
              progression.endAt (.stepTooSmall "for" width) (counter count)) >>= fun sum =>
                pure (.num sum)) head) ∧
    ∀ low high width : Float,
      (low.isFinite && high.isFinite && width.isFinite) = true → low ≤ high → 0 < width →
      let first := low - width
      let progression : Progression := ⟨high, width⟩
      let counter := progression.counterAt first
      ∃ count, progression.EndsAfter first count ∧
        (first.isFinite = false → count = 0 ∧ progression.isBefore first = true) ∧
        ∀ (curve variableName minimum maximum step : Expr) (name : String) (machine : Machine),
          boundVariable "plot" variableName = .ok name →
          toNumber machine.scope minimum = .ok low → toNumber machine.scope maximum = .ok high →
          toNumber machine.scope step = .ok width → machine.scope.contains name = false →
          evaluate .builtin (.op "plot" [curve, variableName, minimum, maximum, step]) machine =
            (withFrame (visitsInTurn (plotVisit name curve) counter count [] >>=
              progression.endAt (.stepTooSmall "plot" width) (counter count)) >>= fun points => do
                draw (.ofCurve curve name points.reverse)
                return .num 1) machine := by
  -- The rounds are those until the loop stops; what is left is how it starts and what it does.
  constructor
  · intro origin bound width finite nonzero first progression counter
    obtain ⟨originFinite, boundFinite, widthFinite⟩ := isFinite_each finite
    obtain ⟨number, countedDown⟩ := first_isNumber originFinite widthFinite
    obtain ⟨count, ends⟩ := progression.exists_endsAfter widthFinite number
    refine ⟨count, ends, fun infinite => ⟨ends.eq_zero infinite, ?_⟩, ?_⟩
    · have down := countedDown infinite
      simp only [first, if_pos down] at infinite ⊢
      exact Progression.not_isBefore_of_infinite_start originFinite boundFinite widthFinite down
        (by simp [infinite])
    · intro start stop variableName step body name machine afterStart afterStop head started stopped
        named stepped unbound
      exact evaluate_sum_of_endsAfter ends finite nonzero body started stopped named stepped unbound
  · intro low high width finite ordered up first progression counter
    obtain ⟨lowFinite, highFinite, widthFinite⟩ := isFinite_each finite
    obtain ⟨count, ends⟩ := progression.exists_endsAfter widthFinite
      (Binary.isNumber_sub (Binary.isNumber_of_isFinite lowFinite) widthFinite)
    refine ⟨count, ends, fun infinite => ⟨ends.eq_zero infinite, ?_⟩, ?_⟩
    · exact (Progression.isBefore_of_infinite_start lowFinite highFinite widthFinite up
        (by simp [first, infinite])).1
    · intro curve variableName minimum maximum step name machine named lowest highest wide unbound
      exact evaluate_plot_of_endsAfter ends curve
        (PlotRange.settled_of_ordered finite ordered up named lowest highest wide unbound)

/-- A machine where nothing is bound and nothing has been drawn. -/
private def idleMachine : Machine := ⟨⟨[], ⟨[]⟩⟩, .recording [], .ofSeed 7⟩

/-- A sum takes two rounds to its bound; a plot is stuck after one round, where doubles are two
apart. A sum that counts down from a start that overflows adds nothing up, and a plot whose first
place overflows is refused. -/
theorem sums_and_plots_end_samples :
    (Progression.EndsAfter ⟨2, 1⟩ 0 2 ∧
      evaluate .builtin (.op "for" [.num 0, .num 2, .var "i", .num 1, .var "i"]) idleMachine =
        .ok (.num (0 + 0 + (0 + 1))) idleMachine) ∧
    (Progression.EndsAfter ⟨9007199254740994, 1⟩ (9007199254740992 - 1) 1 ∧
      evaluate .builtin (.op "plot" [.var "x", .var "x", .num 9007199254740992,
        .num 9007199254740994, .num 1]) idleMachine =
        .error (.stepTooSmall "plot" 1 (9007199254740992 - 1 + 1)) idleMachine) ∧
    (Progression.EndsAfter ⟨0, -1e308⟩ (-1e308 + -1e308) 0 ∧
      evaluate .builtin (.op "for" [.num (-1e308), .num 0, .var "i", .num (-1e308), .var "i"])
        idleMachine = .ok (.num 0) idleMachine) ∧
    Progression.EndsAfter ⟨0, 1e308⟩ (-1e308 - 1e308) 0 ∧
      evaluate .builtin (.op "plot" [.var "x", .var "x", .num (-1e308), .num 0, .num 1e308])
        idleMachine = .error (.stepTooSmall "plot" 1e308 (-1e308 - 1e308)) idleMachine := by
  have up : ¬ (1 : Float) < 0 := by decide
  have down : (-1e308 : Float) < 0 := by decide +kernel
  refine ⟨?_, ?_, ?_, ?_⟩
  · obtain ⟨count, ends, _, sums⟩ := sums_and_plots_end.1 0 2 1 (by decide) (by decide)
    simp only [if_neg up] at ends sums
    -- The counters zero and one are before the bound, and two is not.
    obtain rfl : count = 2 := ends.takes.unique ⟨by decide, by decide⟩
    refine ⟨ends, ?_⟩
    rw [sums (.num 0) (.num 2) (.var "i") (.num 1) (.var "i") "i" idleMachine idleMachine
      idleMachine idleMachine ⟨_, rfl, rfl⟩ ⟨_, rfl, rfl⟩ rfl ⟨_, rfl, rfl⟩ (by decide)]
    have ended : Progression.endAt ⟨2, 1⟩ (.stepTooSmall "for" 1) (0 + 1 + 1) =
        (pure : Float → _) := funext fun _ => if_neg (by decide)
    have last : Progression.counterAt ⟨2, 1⟩ 0 2 = 0 + 1 + 1 := rfl
    rw [last, ended]
    rfl
  · obtain ⟨count, ends, _, plots⟩ := sums_and_plots_end.2 9007199254740992 9007199254740994 1
      (by decide) (by decide) (by decide)
    -- The first step leads to a place from which the next one is rounded back.
    obtain rfl : count = 1 := ends.takes.unique ⟨by decide, by decide⟩
    refine ⟨ends, ?_⟩
    rw [plots (.var "x") (.var "x") (.num 9007199254740992) (.num 9007199254740994) (.num 1) "x"
      idleMachine rfl rfl rfl rfl (by decide)]
    have stuck : Progression.endAt ⟨9007199254740994, 1⟩ (.stepTooSmall "plot" 1)
        (9007199254740992 - 1 + 1) = fun _ : List (Float × Float) =>
          throw (.stepTooSmall "plot" 1 (9007199254740992 - 1 + 1)) :=
      funext fun _ => if_pos (by decide)
    have last : Progression.counterAt ⟨9007199254740994, 1⟩ (9007199254740992 - 1) 1 =
        9007199254740992 - 1 + 1 := rfl
    rw [last, stuck]
    rfl
  · obtain ⟨count, ends, overflows, sums⟩ :=
      sums_and_plots_end.1 (-1e308) 0 (-1e308) (by decide +kernel) (by decide +kernel)
    simp only [if_pos down] at ends overflows sums
    obtain ⟨rfl, reached⟩ := overflows (by decide +kernel)
    refine ⟨ends, ?_⟩
    rw [sums (.num (-1e308)) (.num 0) (.var "i") (.num (-1e308)) (.var "i") "i" idleMachine
      idleMachine idleMachine idleMachine ⟨_, rfl, rfl⟩ ⟨_, rfl, rfl⟩ rfl ⟨_, rfl, rfl⟩ (by decide)]
    -- There is nothing to visit, and the bound counts as reached.
    have ended : Progression.endAt ⟨0, -1e308⟩ (.stepTooSmall "for" (-1e308)) (-1e308 + -1e308) =
        (pure : Float → _) := funext fun _ => if_neg reached
    rw [Progression.counterAt_zero, ended]
    rfl
  · obtain ⟨count, ends, overflows, plots⟩ :=
      sums_and_plots_end.2 (-1e308) 0 1e308 (by decide +kernel) (by decide +kernel)
        (by decide +kernel)
    obtain ⟨rfl, before⟩ := overflows (by decide +kernel)
    refine ⟨ends, ?_⟩
    rw [plots (.var "x") (.var "x") (.num (-1e308)) (.num 0) (.num 1e308) "x" idleMachine rfl rfl
      rfl rfl (by decide)]
    -- The first place is before the range, and the step does not lead on from it.
    have stuck : Progression.endAt ⟨0, 1e308⟩ (.stepTooSmall "plot" 1e308) (-1e308 - 1e308) =
        fun _ : List (Float × Float) =>
          throw (.stepTooSmall "plot" 1e308 (-1e308 - 1e308)) := funext fun _ => if_pos before
    rw [Progression.counterAt_zero, stuck]
    rfl

end Calculator
