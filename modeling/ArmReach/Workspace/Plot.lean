import ArmReach.Spatial.Vector
import ArmReach.Kinematics.Failure
import ArmReach.Text.Quote
/-!
# Plots of reached points

A plot of reached points shows two scatter views, top `(x, y)` and side `(x, z)`, and is saved in
the image format named by the file's extension, in any letter case: `eps`, `jpg` or `jpeg`,
`pdf`, `png`, `svg`, `tex`, `tif` or `tiff`. Drawing the image is left to the plotting library;
this module decides whether a plot can be made and in which format, and with which message it
fails:

1. no points: `no reached points to plot`;
2. a NaN or infinite coordinate, looked for in the top view first (all points), then in the side
   view: `plotter: NaN data point` or `plotter: infinite data point`;
3. a file that cannot be created (a directory, a name over 255 bytes), then an extension that
   names no format: `failed to save plot "<file>": …`.
-/

namespace ArmReach

namespace Workspace

/-- The image formats a plot is saved in. -/
inductive PlotFormat where
  | eps
  | jpeg
  | pdf
  | png
  | svg
  | tex
  | tiff
  deriving DecidableEq, Repr

namespace PlotFormat

/-- The format an extension (without its dot, in lower case) names. -/
def ofExtension? : String → Option PlotFormat
  | "eps" => some .eps
  | "jpg" | "jpeg" => some .jpeg
  | "pdf" => some .pdf
  | "png" => some .png
  | "svg" => some .svg
  | "tex" => some .tex
  | "tif" | "tiff" => some .tiff
  | _ => none

end PlotFormat

/-- The lower case of a character: ASCII, Latin-1, Greek and Cyrillic capitals. -/
def lowerChar (c : Char) : Char :=
  let n := c.toNat
  if ('A' ≤ c && c ≤ 'Z') || (0xC0 ≤ n && n ≤ 0xDE && n != 0xD7) ||
      (0x391 ≤ n && n ≤ 0x3A9 && n != 0x3A2) || (0x410 ≤ n && n ≤ 0x42F) then
    Char.ofNat (n + 32)
  else if 0x400 ≤ n && n ≤ 0x40F then Char.ofNat (n + 80)
  else c

/-- The extension of a file name: what follows its last dot, or nothing without a dot. -/
def extension (file : String) : String :=
  match (file.toList.splitOn '.').reverse with
  | last :: _ :: _ => String.ofList last
  | _ => ""

/-- The failure of a coordinate pair in a view, if any. -/
def checkPair (a b : Float) : Option String :=
  if a.isNaN then some "plotter: NaN data point"
  else if a.isInf then some "plotter: infinite data point"
  else if b.isNaN then some "plotter: NaN data point"
  else if b.isInf then some "plotter: infinite data point"
  else none

/-- The first failure of a view's pairs. -/
def checkView (pairs : List (Float × Float)) : Option String :=
  pairs.findSome? fun (a, b) => checkPair a b

/-- Why a file cannot be created, if it cannot. -/
def createFailure (file : String) : Option String :=
  if file == "." || file == ".." then some ("open " ++ file ++ ": is a directory")
  else if file.utf8ByteSize > 255 then some ("open " ++ file ++ ": file name too long")
  else none

/-- Why points cannot be plotted, if they cannot. -/
def pointsFailure (points : List Vec3) : Option Failure :=
  if points.isEmpty then some (.plain "no reached points to plot") else
  (checkView (points.map fun p => (p.x, p.y)) <|> checkView (points.map fun p => (p.x, p.z))).map .plain

/-- The failure of saving a plot to `file`, given its cause. -/
def saveFailure (file : String) (cause : Failure) : Failure :=
  .wrap ("failed to save plot " ++ Text.quote file) cause

/-- The format the extension of `file` names, or the failure to save in it. -/
def formatFor (file : String) : Except Failure PlotFormat :=
  let ext := (extension file).map lowerChar
  match PlotFormat.ofExtension? ext with
  | some f => .ok f
  | none => .error (saveFailure file (.plain ("unsupported format: " ++ Text.quote ext)))

/-- The format a plot of `points` is saved in to `file` in an empty working directory, or why it
cannot be. -/
def plotFormat (points : List Vec3) (file : String) : Except Failure PlotFormat :=
  match pointsFailure points with
  | some f => .error f
  | none =>
    match createFailure file with
    | some e => .error (saveFailure file (.plain e))
    | none => formatFor file

/-- A plot ready to be drawn: its title, image format and points. -/
structure Plot where
  title : String
  format : PlotFormat
  points : List Vec3

/-- The title of the plot of an arm's reached points. -/
def plotTitle (arm : String) : String := arm ++ " reachable workspace"

end Workspace

end ArmReach
