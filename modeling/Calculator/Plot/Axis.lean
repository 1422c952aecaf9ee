import Calculator.Number.Place
import Calculator.Number.Text

/-! The range an axis covers, the values marked on it, and the text of a mark. -/

namespace Calculator

/-- The values between the two ends of an axis. -/
structure AxisRange where
  low : Float
  high : Float

namespace AxisRange

/-- The smallest and the largest of some values. -/
def extremes : List Float → Option (Float × Float)
  | [] => none
  | first :: rest =>
    some (rest.foldl (fun (least : Float) (value : Float) => min least value) first,
      rest.foldl (fun (greatest : Float) (value : Float) => max greatest value) first)

/-- A range around all finite values, with a margin of a twentieth, or of one where there is only
one value; the unit range where there is none. -/
def covering (values : List Float) : AxisRange :=
  match extremes (values.filter (·.isFinite)) with
  | none => ⟨0, 1⟩
  | some (least, greatest) =>
    if least == greatest then ⟨least - 1, greatest + 1⟩
    else
      let margin := (greatest - least) * 0.05
      ⟨least - margin, greatest + margin⟩

end AxisRange

namespace Axis

/-- No more values than this are marked on an axis. -/
def maxMarks : Float := 11

/-- Differences below this count as none. -/
def epsilon : Float := Float.ofBits 0x3CB0000000000000

/-- How far a value is above the last multiple of a unit; a value within `epsilon` of the next one
counts as reaching it. -/
def remainder (value unit : Float) : Float :=
  let rest := value - (value / unit).floor * unit
  if (rest - unit).abs < epsilon then 0 else rest

/-- The first multiple of a unit that is not below a value. -/
def firstMark (low unit : Float) : Float :=
  let mark := low - remainder low unit
  if mark < low then mark + unit else mark

/-- The last multiple of a unit that is not above a value. -/
def lastMark (high unit : Float) : Float := high - remainder high unit

/-- The distance of the marks and the grain of their base. -/
structure Spacing where
  unit : Float
  grain : Float

/-- Halving, fifthing or tenthing the unit still leaves room for all marks. -/
def fits (range : AxisRange) (unit part : Float) : Bool :=
  let first := firstMark range.low (unit / part)
  let last := lastMark range.high (unit / part)
  !((1 + (last - first) / unit * part).round > maxMarks)

/-- Divides the unit by two, five and ten in turn as long as the marks have room, for at most
`limit` powers of ten.

On a range whose ends have overflowed the marks always have room, so that only the limit ends the
search. That it ends there is an assumption on how plots are rendered. -/
def refine (range : AxisRange) : (limit : Nat) → Spacing → Spacing
  | 0, spacing => spacing
  | limit + 1, ⟨unit, grain⟩ =>
    if !fits range unit 2 then ⟨unit, grain⟩
    else if !fits range unit 5 then ⟨unit / 2, grain⟩
    else if !fits range unit 10 then ⟨unit / 5, grain⟩
    else refine range limit ⟨unit / 10, grain / 10⟩

/-- The distance of the marks on an axis. -/
def spacing (range : AxisRange) : Spacing :=
  let length := range.high - range.low
  let unit := Float.pow 10 (length.log / Float.log 10).floor
  let grain := unit / 10
  let start : Spacing :=
    if 1 + (length / unit).floor > maxMarks then ⟨unit * 10, grain * 10⟩ else ⟨unit, grain⟩
  -- Doubles span fewer powers of ten than this.
  refine range 700 start

/-- The marks from `offset` above `base` on, in steps of the unit, on top of those in `marks`: the
last one first. A step that leads no further ends them. -/
def marksFrom (spacing : Spacing) (base last : Float) (marks : List Float) (offset : Float) :
    List Float :=
  if last - offset - base ≥ -epsilon then
    let shown :=
      if (offset / spacing.grain).round * spacing.grain < 0 then offset + spacing.grain else offset
    let next := shown + spacing.unit
    if _ : offset < next then marksFrom spacing base last ((shown + base) :: marks) next
    else (shown + base) :: marks
  else marks
termination_by Binary.headroom offset
decreasing_by exact Binary.headroom_lt ‹_›

/-- The values marked on an axis. -/
def marks (range : AxisRange) : List Float :=
  if (range.low - range.high).abs < epsilon then [range.low]
  else
    let spacing := spacing range
    let first := firstMark range.low spacing.unit
    let base := (first / spacing.grain).floor * spacing.grain
    (marksFrom spacing base (lastMark range.high spacing.unit) [] (first - base)).reverse

/-- A whole number, or the nearest end of the range of 64 bits where it lies outside. -/
def clampWhole (whole : Int) : Int :=
  max Int64.minValue.toInt (min Int64.maxValue.toInt whole)

/-- Tenths of a magnitude, a half going to the even neighbour. -/
def tenths (exact : Exact) : Nat :=
  let scaled := 10 * exact.numerator
  let below := scaled / exact.denominator
  let twiceRest := 2 * (scaled % exact.denominator)
  if twiceRest < exact.denominator then below
  else if exact.denominator < twiceRest then below + 1
  else below + below % 2

/-- The characters of a mark's text: a whole number where the mark is all but one, else one
place. -/
def markChars (value : Float) : List Char :=
  match Exact.ofFloat? value with
  | none => numberChars value
  | some exact =>
    let whole : Int := if exact.negative then -(exact.nearest : Int) else exact.nearest
    if (value - Float.ofInt whole).abs < 1e-9 then
      let shown := clampWhole whole
      signed (decide (shown < 0)) (Nat.toDigits 10 shown.natAbs)
    else signed exact.negative (Decimal.chars ⟨tenths exact, 1⟩)

/-- The text of a mark. -/
def markText (value : Float) : String := String.ofList (markChars value)

end Axis

end Calculator
