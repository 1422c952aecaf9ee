import Calculator.Plot.Axis
import Calculator.Proofs.Number.Widening

/-! The range of an axis holds all finite values, and it has a width unless they are all one number
that is too large for one to be added to it. -/

namespace Calculator

open Binary

namespace AxisRange

section Extremes

variable {pick : Float → Float → Float} {Beats : ℚ → ℚ → Prop}

/-- One of two finite doubles is picked that beats both. -/
def Picks (pick : Float → Float → Float) (Beats : ℚ → ℚ → Prop) : Prop :=
  ∀ a b : Float, a.isFinite = true → b.isFinite = true →
    (pick a b = a ∨ pick a b = b) ∧
      Beats (valueOf (pick a b)) (valueOf a) ∧ Beats (valueOf (pick a b)) (valueOf b)

/-- The smaller one is no larger than both. -/
theorem picks_min : Picks min (· ≤ ·) := by
  -- The smaller one is picked, or the first if they are equal.
  intro a b left right
  have ordered := le_iff_valueOf left right
  show ((if a ≤ b then a else b) = a ∨ (if a ≤ b then a else b) = b) ∧
    valueOf (if a ≤ b then a else b) ≤ valueOf a ∧ valueOf (if a ≤ b then a else b) ≤ valueOf b
  by_cases le : a ≤ b
  · simp only [if_pos le, true_or, le_refl, ordered.mp le, and_self]
  · simp only [if_neg le, or_true, le_refl, (not_le.mp (mt ordered.mpr le)).le, and_self]

/-- The larger one is no smaller than both. -/
theorem picks_max : Picks max (· ≥ ·) := by
  -- The larger one is picked, or the second if they are equal.
  intro a b left right
  have ordered := le_iff_valueOf left right
  show ((if a ≤ b then b else a) = a ∨ (if a ≤ b then b else a) = b) ∧
    valueOf a ≤ valueOf (if a ≤ b then b else a) ∧ valueOf b ≤ valueOf (if a ≤ b then b else a)
  by_cases le : a ≤ b
  · simp only [if_pos le, or_true, le_refl, ordered.mp le, and_self]
  · simp only [if_neg le, true_or, le_refl, (not_le.mp (mt ordered.mpr le)).le, and_self]

/-- What is picked from a list of finite doubles is one of them, and it beats them all. -/
theorem Picks.foldl [IsPreorder ℚ Beats] (picks : Picks pick Beats) (rest : List Float) :
    ∀ first : Float, (∀ value ∈ first :: rest, value.isFinite = true) →
      rest.foldl pick first ∈ first :: rest ∧
        ∀ value ∈ first :: rest, Beats (valueOf (rest.foldl pick first)) (valueOf value) := by
  induction rest with
  | nil =>
    intro first _
    simpa using refl_of Beats (valueOf first)
  | cons second rest ih =>
    intro first finite
    have firstFinite := finite first (by simp)
    have secondFinite := finite second (by simp)
    obtain ⟨one, beatsFirst, beatsSecond⟩ := picks first second firstFinite secondFinite
    have pickedFinite : (pick first second).isFinite = true := by
      rcases one with same | same <;> rwa [same]
    -- The first two are replaced by the one that is picked of them.
    obtain ⟨member, beats⟩ := ih (pick first second) (by
      intro value among
      rcases List.mem_cons.mp among with rfl | later
      · exact pickedFinite
      · exact finite value (by simp [later]))
    have picked := beats (pick first second) (by simp)
    refine ⟨?_, fun value among => ?_⟩
    · rcases List.mem_cons.mp member with same | later
      · rw [List.foldl_cons, same]
        rcases one with same | same <;> simp [same]
      · simp [later]
    · simp only [List.mem_cons] at among
      rcases among with rfl | rfl | later
      · exact trans_of Beats picked beatsFirst
      · exact trans_of Beats picked beatsSecond
      · exact beats value (by simp [later])

/-- The extremes of finite doubles are two of them, and all are between these. -/
theorem extremes_spec {values : List Float} {least greatest : Float}
    (finite : ∀ value ∈ values, value.isFinite = true)
    (found : extremes values = some (least, greatest)) :
    least ∈ values ∧ greatest ∈ values ∧
      ∀ value ∈ values, valueOf least ≤ valueOf value ∧ valueOf value ≤ valueOf greatest := by
  -- Both extremes are picked in one pass from the first value on.
  cases values with
  | nil => cases found
  | cons first rest =>
    obtain ⟨rfl, rfl⟩ := Prod.mk.inj (Option.some.inj found)
    obtain ⟨least, below⟩ := picks_min.foldl rest first finite
    obtain ⟨greatest, above⟩ := picks_max.foldl rest first finite
    exact ⟨least, greatest, fun value member => ⟨below value member, above value member⟩⟩

end Extremes

section Covering

variable {values : List Float} {least greatest : Float}

/-- All finite values are one number, which four divides and which has more bits than a mantissa. -/
def OneLarge (values : List Float) : Prop :=
  ∃ one ∈ values, one.isFinite = true ∧
    (∀ value ∈ values, value.isFinite = true → (value == one) = true) ∧
      2 ^ 53 < |valueOf one| ∧ ∃ k : ℤ, valueOf one = 4 * k

/-- The range holds the finite values, and it has a width unless they are one large number. -/
def Covers (range : AxisRange) (values : List Float) : Prop :=
  (∀ value ∈ values, value.isFinite = true → range.low ≤ value ∧ value ≤ range.high) ∧
    (range.low < range.high ↔ ¬ OneLarge values)

/-- All finite values are between the two, which are among them. -/
structure Between (values : List Float) (least greatest : Float) : Prop where
  least_mem : least ∈ values
  least_isFinite : least.isFinite = true
  greatest_mem : greatest ∈ values
  greatest_isFinite : greatest.isFinite = true
  bounds : ∀ value ∈ values, value.isFinite = true →
    valueOf least ≤ valueOf value ∧ valueOf value ≤ valueOf greatest

/-- One value is covered by the range around it. -/
theorem Between.covers_widened (between : Between values least greatest)
    (same : valueOf least = valueOf greatest) :
    Covers ⟨least - 1, greatest + 1⟩ values := by
  have first := between.least_isFinite
  have last := between.greatest_isFinite
  -- The ends are finite and no further from the exact ends than one, so the value is between them.
  obtain ⟨lowFinite, lowNear⟩ := (rounded_sub_one first).near_step first (.inl rfl)
  obtain ⟨highFinite, highNear⟩ := (rounded_add_one last).near_step last (.inr rfl)
  have lowLe := (abs_le.mp lowNear).2
  have highGe := (abs_le.mp highNear).1
  push_cast at lowLe highGe
  refine ⟨fun value member finite => ?_, ?_⟩
  · have bounds := between.bounds value member finite
    rw [le_iff_valueOf lowFinite finite, le_iff_valueOf finite highFinite]
    constructor <;> linarith
  · rw [sub_one_lt_add_one_iff first last same, not_iff_not]
    constructor
    · -- All finite values are equal to the least one.
      intro large
      refine ⟨least, between.least_mem, first, fun value member finite => ?_, large⟩
      have bounds := between.bounds value member finite
      rw [beq_iff_valueOf finite first]
      linarith
    · rintro ⟨one, _, finite, equal, large⟩
      rwa [(beq_iff_valueOf first finite).mp (equal least between.least_mem first)]

/-- Different values are covered by the range with margins on both sides. -/
theorem Between.covers_padded (between : Between values least greatest)
    (less : valueOf least < valueOf greatest) :
    Covers ⟨least - (greatest - least) * 0.05, greatest + (greatest - least) * 0.05⟩ values := by
  have first := between.least_isFinite
  have last := between.greatest_isFinite
  -- The margin may be lost or infinite, so the ends are compared by their places and not by value.
  obtain ⟨number, unsigned⟩ := margin_spec first last less
  generalize (greatest - least) * 0.05 = margin at *
  obtain ⟨lowNumber, lowLe⟩ := place_sub_le_of_unsigned first number unsigned
  have highNumber := isNumber_finite_add last number
  have highGe := place_le_add last number unsigned
  refine ⟨fun value member finite => ?_, ?_⟩
  · obtain ⟨below, above⟩ := between.bounds value member finite
    have isNumber := isNumber_of_isFinite finite
    rw [← le_iff_valueOf first finite, le_iff_place (isNumber_of_isFinite first) isNumber] at below
    rw [← le_iff_valueOf finite last, le_iff_place isNumber (isNumber_of_isFinite last)] at above
    show least - margin ≤ value ∧ value ≤ greatest + margin
    rw [le_iff_place lowNumber isNumber, le_iff_place isNumber highNumber]
    omega
  · apply iff_of_true
    · have apart : place least < place greatest :=
        (rank_lt_iff_exactly (held_of_isFinite first) (held_of_isFinite last)).mpr less
      show least - margin < greatest + margin
      rw [lt_iff_place lowNumber highNumber]
      omega
    · -- Both extremes would be equal to the one value.
      rintro ⟨one, _, finite, equal, _⟩
      have low := (beq_iff_valueOf first finite).mp (equal least between.least_mem first)
      have high := (beq_iff_valueOf last finite).mp (equal greatest between.greatest_mem last)
      exact less.ne (low.trans high.symm)

end Covering

/-- The range of an axis holds every finite value, in whatever order and number they come, and its
ends are apart unless all finite values are one number that is so large that one is lost when it is
added or taken away. -/
theorem covering_bounds (values : List Float) :
    (∀ value ∈ values, value.isFinite = true →
      (covering values).low ≤ value ∧ value ≤ (covering values).high) ∧
      ((covering values).low < (covering values).high ↔ ¬ OneLarge values) := by
  show Covers (covering values) values
  have among (value : Float) : value ∈ values.filter (·.isFinite) ↔
      value ∈ values ∧ value.isFinite = true := List.mem_filter
  unfold covering
  cases found : extremes (values.filter (·.isFinite)) with
  | none =>
    -- There is no finite value.
    have empty : values.filter (·.isFinite) = [] := by
      cases all : values.filter (·.isFinite) with
      | nil => rfl
      | cons => rw [all] at found; cases found
    have none (value : Float) (member : value ∈ values) : ¬ value.isFinite = true := by
      intro finite
      have := (among value).mpr ⟨member, finite⟩
      rw [empty] at this
      cases this
    refine ⟨fun value member finite => absurd finite (none value member), iff_of_true ?_ ?_⟩
    · show (0 : Float) < 1
      decide +kernel
    · rintro ⟨one, member, finite, _⟩
      exact none one member finite
  | some extreme =>
    obtain ⟨least, greatest⟩ := extreme
    obtain ⟨first, last, bounds⟩ :=
      extremes_spec (fun value member => ((among value).mp member).2) found
    have first := (among least).mp first
    have last := (among greatest).mp last
    have between : Between values least greatest :=
      ⟨first.1, first.2, last.1, last.2, fun value member finite =>
        bounds value ((among value).mpr ⟨member, finite⟩)⟩
    have ordered := bounds least ((among least).mpr first)
    simp only []
    split
    · rename_i same
      exact between.covers_widened ((beq_iff_valueOf first.2 last.2).mp same)
    · rename_i apart
      rw [beq_iff_valueOf first.2 last.2] at apart
      exact between.covers_padded (lt_of_le_of_ne ordered.2 apart)

/-- A constant value is in the middle of a range with a width. -/
theorem covering_bounds_constant :
    (4 : Float).isFinite = true ∧ ((covering [4, 4]).low ≤ 4 ∧ 4 ≤ (covering [4, 4]).high) ∧
      ¬ OneLarge [4, 4] ∧ (covering [4, 4]).low < (covering [4, 4]).high := by
  -- Four is a small whole number, where the widening by one is not lost.
  have finite : (4 : Float).isFinite = true := rfl
  have value : valueOf 4 = 4 := (valueOf_ofNat (by norm_num : 4 < 2 ^ 53)).2
  have small : ¬ OneLarge [4, 4] := by
    rintro ⟨one, member, _, _, large, _⟩
    obtain rfl : one = 4 := by simpa using member
    rw [value] at large
    norm_num at large
  exact ⟨finite, (covering_bounds [4, 4]).1 4 (by simp) finite, small,
    (covering_bounds [4, 4]).2.mpr small⟩

/-- The range around ten to the seventeenth has no width, and no end of it is an overflow. -/
theorem covering_without_width :
    (covering [1e17]).low.isFinite = true ∧ (covering [1e17]).high.isFinite = true ∧
      ¬ (covering [1e17]).low < (covering [1e17]).high := by
  -- At this magnitude the widening by one is lost.
  decide +kernel

end AxisRange

end Calculator
