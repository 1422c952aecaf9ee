import Calculator.Failure

/-! Scatter plots: sampled points with a title and labels. -/

namespace Calculator

/-- Sampled points with their captions. -/
structure ScatterPlot where
  title : String
  xLabel : String
  yLabel : String
  points : List (Float × Float)

/-- A plot of two columns of coordinates, which must be equally long. -/
def ScatterPlot.ofColumns (title xLabel yLabel : String) (xs ys : List Float) :
    Except EvalError ScatterPlot :=
  if xs.length = ys.length then .ok ⟨title, xLabel, yLabel, xs.zip ys⟩
  else .error (.unequalColumns xs.length ys.length)

end Calculator
