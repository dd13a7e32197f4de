import ArmReach.Workspace.Plot
import ArmReach.Decimal.Format
/-!
# Drawing a plot

`Plot.svg` draws a plot of reached points as an SVG document: a square canvas of 432 units (six
inches at 72 per inch) with the title at the top, the top view `(x, y)` as circles and the side
view `(x, z)` as crosses, the axis labels `x (m)` and `y / z (m)`, and a legend. The horizontal
axis spans the points' x range and the vertical axis the range of all y and z values; a range
of one value is widened by one on each side.
-/

namespace ArmReach

namespace Workspace

/-- The side of the square canvas. -/
def canvasSize : Float := 432

/-- The margin between the canvas edge and the data area. -/
def canvasMargin : Float := 48

/-- The least and greatest of some values, widened when they coincide. -/
def span (vs : List Float) : Float × Float :=
  let lo := vs.foldl min (vs.headD 0)
  let hi := vs.foldl max (vs.headD 0)
  if lo == hi then (lo - 1, hi + 1) else (lo, hi)

/-- Where a value of `[lo, hi]` falls on `[a, b]`. -/
def scaleTo (lo hi a b v : Float) : Float := a + (v - lo) / (hi - lo) * (b - a)

/-- A number as an SVG coordinate. -/
def coordinate (x : Float) : String := fixedText 2 x

/-- Text with the characters special in markup escaped. -/
def markupText (s : String) : String :=
  String.join (s.toList.map fun c =>
    if c == '&' then "&amp;" else if c == '<' then "&lt;" else if c == '>' then "&gt;"
    else if c == '"' then "&quot;" else c.toString)

namespace Plot

/-- The canvas position of a data pair. -/
def place (xs vs : Float × Float) (x v : Float) : Float × Float :=
  (scaleTo xs.1 xs.2 canvasMargin (canvasSize - canvasMargin) x,
   scaleTo vs.1 vs.2 (canvasSize - canvasMargin) canvasMargin v)

/-- A circle marking a point of the top view. -/
def circle (at_ : Float × Float) : String :=
  "<circle cx=\"" ++ coordinate at_.1 ++ "\" cy=\"" ++ coordinate at_.2 ++
    "\" r=\"2.5\" fill=\"none\" stroke=\"black\"/>"

/-- A cross marking a point of the side view. -/
def cross (at_ : Float × Float) : String :=
  let (x, y) := at_
  "<path d=\"M" ++ coordinate (x - 2.5) ++ " " ++ coordinate (y - 2.5) ++ " L" ++
    coordinate (x + 2.5) ++ " " ++ coordinate (y + 2.5) ++ " M" ++ coordinate (x - 2.5) ++ " " ++
    coordinate (y + 2.5) ++ " L" ++ coordinate (x + 2.5) ++ " " ++ coordinate (y - 2.5) ++
    "\" stroke=\"black\"/>"

/-- A text element. -/
def label (x y : Float) (anchor text : String) : String :=
  "<text x=\"" ++ coordinate x ++ "\" y=\"" ++ coordinate y ++ "\" text-anchor=\"" ++ anchor ++
    "\" font-size=\"12\">" ++ markupText text ++ "</text>"

/-- The plot as an SVG document. -/
def svg (p : Plot) : String :=
  let xs := span (p.points.map (·.x))
  let vs := span (p.points.map (·.y) ++ p.points.map (·.z))
  let size := coordinate canvasSize
  let lo := canvasMargin
  let hi := canvasSize - canvasMargin
  "\n".intercalate (
    ["<svg width=\"" ++ size ++ "\" height=\"" ++ size ++
       "\" viewBox=\"0 0 " ++ size ++ " " ++ size ++ "\">",
     "<rect width=\"100%\" height=\"100%\" fill=\"white\"/>",
     "<rect x=\"" ++ coordinate lo ++ "\" y=\"" ++ coordinate lo ++ "\" width=\"" ++
       coordinate (hi - lo) ++ "\" height=\"" ++ coordinate (hi - lo) ++
       "\" fill=\"none\" stroke=\"gray\"/>",
     label (canvasSize / 2) (lo / 2) "middle" p.title,
     label (canvasSize / 2) (canvasSize - lo / 4) "middle" "x (m)",
     label (lo / 4) (canvasSize / 2) "start" "y / z (m)",
     label (hi - 80) (lo + 16) "start" "top (x, y)",
     label (hi - 80) (lo + 32) "start" "side (x, z)"] ++
    p.points.map (fun q => circle (place xs vs q.x q.y)) ++
    p.points.map (fun q => cross (place xs vs q.x q.z)) ++
    ["</svg>", ""])

end Plot

end Workspace

end ArmReach
