import Calculator.Plot.Axis
import Calculator.Plot.Scatter

/-! Scatter plots as SVG documents. -/

namespace Calculator

/-- The size of a picture in pixels. -/
structure PictureSize where
  width : Nat
  height : Nat

/-- The size of a picture unless another one is asked for. -/
def PictureSize.standard : PictureSize := ⟨480, 300⟩

namespace Svg

/-- The pixels of the box that holds the points, all ends included. -/
structure Box where
  left : Int
  right : Int
  top : Int
  bottom : Int

/-- The box inside the caption, the labels and the margin. -/
def Box.ofSize (size : PictureSize) : Box :=
  ⟨55, (size.width : Int) - 11, 31, (size.height : Int) - 46⟩

/-- How many pixels wide the box is. -/
def Box.width (box : Box) : Int := box.right - box.left + 1

/-- How many pixels high the box is. -/
def Box.height (box : Box) : Int := box.bottom - box.top + 1

/-- The length of the ticks on the axes: a twentieth of the shorter side, at most five. -/
def Box.tickLength (box : Box) : Int :=
  -- A half goes away from zero.
  min 5 ((min box.width box.height + 10) / 20)

/-- The greatest whole number that is not above a value. -/
def floorOf (value : Float) : Int :=
  match Exact.ofFloat? value with
  | none => 0
  | some exact =>
    if exact.negative then
      -(((exact.numerator + exact.denominator - 1) / exact.denominator : Nat) : Int)
    else (exact.whole : Int)

/-- The smallest whole number that is not below a value. -/
def ceilingOf (value : Float) : Int := -(floorOf (-value))

/-- The pixel of a value on an axis that runs from one pixel to another. -/
def pixel (range : AxisRange) (first last : Int) (value : Float) : Int :=
  if range.low == range.high then (last - first).tdiv 2
  else
    let share := (value - range.low) / (range.high - range.low)
    let length := last - first
    if share.isInf then if share > 0 then last else first
    else if length > 0 then first + floorOf (Float.ofInt length * share + 1e-3)
    else if length < 0 then first + ceilingOf (Float.ofInt length * share - 1e-3)
    else first

/-- A character as markup writes it. -/
def escapedChar (char : Char) : String :=
  if char == '&' then "&amp;"
  else if char == '<' then "&lt;"
  else if char == '>' then "&gt;"
  else if char == Char.ofNat 0x22 then "&quot;"
  else if char == Char.ofNat 0x27 then "&apos;"
  else String.singleton char

/-- A text as markup writes it. -/
def escaped (text : String) : String := String.join (text.toList.map escapedChar)

/-- How a text is placed and drawn. -/
structure Label where
  x : Int
  y : Int
  /-- The shift of the baseline. -/
  shift : String
  /-- The end of the text that is placed. -/
  anchor : String
  size : String := "8.870967741935484"
  fill : String := "#666666"
  /-- Further attributes. -/
  more : String := ""

/-- An attribute with its value. -/
def field (name value : String) : String := name ++ "=\"" ++ value ++ "\""

/-- The lines of a text. -/
def Label.lines (label : Label) (content : String) : List String :=
  ["<text " ++ String.intercalate " "
      [field "x" (toString label.x), field "y" (toString label.y),
        field "dy" label.shift, field "text-anchor" label.anchor,
        field "font-family" "sans-serif", field "font-size" label.size,
        field "opacity" "1", field "fill" label.fill] ++ label.more ++ ">",
    escaped content,
    "</text>"]

/-- The line that draws a stroke between two pixels. -/
def stroke (x y toX toY : Int) : String :=
  "<polyline " ++ String.intercalate " "
    [field "fill" "none", field "opacity" "1", field "stroke" "#666666",
      field "stroke-width" "1", field "points" s!"{x},{y} {toX},{toY} "] ++ "/>"

/-- The line that draws a point. -/
def dot (x y : Int) : String :=
  "<circle " ++ String.intercalate " "
    [field "cx" (toString x), field "cy" (toString y), field "r" "3",
      field "opacity" "1", field "fill" "#5E81B5", field "stroke" "none",
      field "stroke-width" "1"] ++ "/>"

/-- The lines that open the document and paint its ground. -/
def ground (size : PictureSize) : List String :=
  let width := toString size.width
  let height := toString size.height
  ["<svg " ++ String.intercalate " "
      [field "width" width, field "height" height,
        field "viewBox" s!"0 0 {width} {height}",
        field "xmlns" "http://www.w3.org/2000/svg"] ++ ">",
    "<rect " ++ String.intercalate " "
      [field "x" "0", field "y" "0", field "width" width, field "height" height,
        field "opacity" "1", field "fill" "#FFFFFF", field "stroke" "none"] ++ "/>"]

/-- The lines of the title and the two axis labels. -/
def captions (size : PictureSize) (box : Box) (plot : ScatterPlot) : List String :=
  let width : Int := size.width
  let height : Int := size.height
  let middle := box.top + box.height / 2
  let title : Label :=
    { x := 10 + (width - 20) / 2, y := 15, shift := "0.76em", anchor := "middle",
      size := "11.290322580645162", fill := "#000000" }
  let yLabel : Label :=
    { x := 10, y := middle, shift := "0.76em", anchor := "middle",
      more := " " ++ field "transform" s!"rotate(270, 10, {middle})" }
  let xLabel : Label :=
    { x := box.left + box.width / 2, y := height - 10, shift := "-0.5ex", anchor := "middle" }
  title.lines plot.title ++ yLabel.lines plot.yLabel ++ xLabel.lines plot.xLabel

/-- The lines of the vertical axis with its marks. -/
def verticalAxis (box : Box) (range : AxisRange) : List String :=
  let tick := box.tickLength
  stroke 54 box.top 54 box.bottom ::
    (Axis.marks range).flatMap fun (value : Float) =>
      let y := pixel range box.bottom box.top value
      if box.top ≤ y ∧ y ≤ box.bottom then
        let label : Label := { x := 55 - 2 * tick, y := y, shift := "0.5ex", anchor := "end" }
        label.lines (Axis.markText value) ++ [stroke (54 - tick) y 54 y]
      else []

/-- The lines of the horizontal axis with its marks. -/
def horizontalAxis (size : PictureSize) (box : Box) (range : AxisRange) : List String :=
  let tick := box.tickLength
  let level := (size.height : Int) - 45
  stroke box.left level box.right level ::
    (Axis.marks range).flatMap fun (value : Float) =>
      let x := pixel range box.left box.right value
      if box.left ≤ x ∧ x ≤ box.right then
        let label : Label :=
          { x := x, y := level + 2 * tick, shift := "0.76em", anchor := "middle" }
        label.lines (Axis.markText value) ++ [stroke x level x (level + tick)]
      else []

/-- The lines of the finite points. -/
def dots (box : Box) (xRange yRange : AxisRange) (points : List (Float × Float)) : List String :=
  (points.filter fun (point : Float × Float) => point.1.isFinite && point.2.isFinite).map
    fun (point : Float × Float) =>
      let x := pixel xRange box.left box.right point.1
      let y := pixel yRange box.bottom box.top point.2
      dot (max box.left (min (box.right + 1) x)) (max box.top (min (box.bottom + 1) y))

/-- The document that draws a plot. -/
def document (size : PictureSize) (plot : ScatterPlot) : String :=
  let box := Box.ofSize size
  let xRange := AxisRange.covering (plot.points.map (·.1))
  let yRange := AxisRange.covering (plot.points.map (·.2))
  let lines := ground size ++ captions size box plot ++ verticalAxis box yRange ++
    horizontalAxis size box xRange ++ dots box xRange yRange plot.points ++ ["</svg>"]
  String.join (lines.map (· ++ "\n"))

end Svg

end Calculator
