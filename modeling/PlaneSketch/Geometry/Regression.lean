import PlaneSketch.Geometry.Line

/-! Least squares lines. -/
namespace PlaneSketch

open Scalar

variable {α : Type} [Scalar α]

def total (xs : List α) : α := xs.foldl (· + ·) 0

/-- The line fitted to the points, first as `y` over `x`; if that slope is undefined or steeper
than one, as `x` over `y`. Points that all coincide get the vertical line through them. -/
def leastSquares (points : List (Point α)) : Line α :=
  let n : α := ofNat points.length
  let xs := total (points.map fun p => p.x)
  let ys := total (points.map fun p => p.y)
  let xxs := total (points.map fun p => p.x * p.x)
  let yys := total (points.map fun p => p.y * p.y)
  let xys := total (points.map fun p => p.x * p.y)
  let covariance := n * xys - xs * ys
  let xSpread := n * xxs - xs * xs
  if xSpread == 0 || decide (1 < abs (covariance / xSpread)) then
    let ySpread := n * yys - ys * ys
    if ySpread == 0 then
      let x := xs / n
      let y := ys / n
      Line.ofCoords x y x (y + 1)
    else
      let slope := covariance / ySpread
      let x := (xs - slope * ys) / n
      Line.ofCoords x 0 (x + slope) 1
  else
    let slope := covariance / xSpread
    let y := (ys - slope * xs) / n
    Line.ofCoords 0 y 1 (y + slope)

end PlaneSketch
