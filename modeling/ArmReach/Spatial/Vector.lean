import ArmReach.Decimal.Format
/-!
# Vectors in space

Points, translations and rotation vectors are triples of doubles. The operations are the
componentwise ones; `norm` is the square root of the dot product, and `normalize` sends the
zero vector to itself. Every operation evaluates its terms left to right, so its value is
fixed to the last bit.
-/

namespace ArmReach

/-- A vector of three doubles. -/
structure Vec3 where
  x : Float
  y : Float
  z : Float
  deriving Inhabited

namespace Vec3

/-- The zero vector. -/
def zero : Vec3 := ⟨0, 0, 0⟩

/-- Componentwise sum. -/
def add (a b : Vec3) : Vec3 := ⟨a.x + b.x, a.y + b.y, a.z + b.z⟩

/-- Componentwise difference. -/
def sub (a b : Vec3) : Vec3 := ⟨a.x - b.x, a.y - b.y, a.z - b.z⟩

/-- The vector scaled by `m`. -/
def scale (m : Float) (a : Vec3) : Vec3 := ⟨m * a.x, m * a.y, m * a.z⟩

/-- Dot product. -/
def dot (a b : Vec3) : Float := a.x * b.x + a.y * b.y + a.z * b.z

/-- The squared length. -/
def norm2 (a : Vec3) : Float := a.dot a

/-- The length. -/
def norm (a : Vec3) : Float := Float.sqrt a.norm2

/-- The unit vector along `a`, or zero when its squared length is zero. -/
def normalize (a : Vec3) : Vec3 :=
  let n2 := a.norm2
  if n2 == 0 then zero else a.scale (1 / Float.sqrt n2)

/-- The components as a list. -/
def toList (a : Vec3) : List Float := [a.x, a.y, a.z]

/-- The vector of the first three entries of a list (zero where missing). -/
def ofList (l : List Float) : Vec3 := ⟨l.getD 0 0, l.getD 1 0, l.getD 2 0⟩

/-- Text `(x, y, z)` with 24 places each. -/
def render (a : Vec3) : String :=
  "(" ++ fixedText 24 a.x ++ ", " ++ fixedText 24 a.y ++ ", " ++ fixedText 24 a.z ++ ")"

/-- Whether every component of `a - b` lies in `[-eps, eps]`. -/
def almostEqual (a b : Vec3) (eps : Float) : Bool :=
  let d := a.sub b
  d.x ≤ eps && d.x ≥ -eps && d.y ≤ eps && d.y ≥ -eps && d.z ≤ eps && d.z ≥ -eps

end Vec3

end ArmReach
