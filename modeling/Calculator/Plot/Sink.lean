import Calculator.Plot.Svg

/-! Sinks: where drawn plots are kept until someone takes them. -/

namespace Calculator

/-- A plot drawn as a picture. -/
structure Picture where
  title : String
  svg : String

/-- Keeps plots in the order in which they are drawn.

These are the sinks that come with the calculator, and they take every plot. A sink of one's own,
which may refuse a plot, is left out. -/
inductive Sink where
  /-- Keeps the points. -/
  | recording (plots : List ScatterPlot)
  /-- Keeps pictures of one size. -/
  | pictures (size : PictureSize) (plots : List Picture)

namespace Sink

/-- Adds a plot at the end. -/
def draw (plot : ScatterPlot) : Sink → Sink
  | recording plots => recording (plots ++ [plot])
  | pictures size plots => pictures size (plots ++ [⟨plot.title, Svg.document size plot⟩])

/-- The titles of the plots, in drawing order. -/
def titles : Sink → List String
  | recording plots => plots.map (·.title)
  | pictures _ plots => plots.map (·.title)

/-- How many plots are kept. -/
def count (sink : Sink) : Nat := sink.titles.length

/-- The pictures that are kept. -/
def drawn : Sink → List Picture
  | recording _ => []
  | pictures _ plots => plots

/-- The sink with its plots taken out. -/
def emptied : Sink → Sink
  | recording _ => recording []
  | pictures size _ => pictures size []

end Sink

end Calculator
