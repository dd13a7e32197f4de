import ArmReach.Kinematics.Arm
import ArmReach.Text.Table
import ArmReach.Text.Template
/-!
# The joint table of a chain

A chain is shown as a boxed table titled with its name: one row per joint with its number from
1, name, translation (three places), axis (two places) and range in degrees (one place) or
`continuous`, and a footer row with the end effector's offset.
-/

namespace ArmReach

namespace Chain

/-- A vector as `X:…, Y:…, Z:…` with `places` decimals. -/
def vectorCell (places : Nat) (v : Vec3) : String :=
  "X:" ++ fixedText places v.x ++ ", Y:" ++ fixedText places v.y ++ ", Z:" ++ fixedText places v.z

/-- A joint range as `[min, max]` in degrees with one decimal, or `continuous`. -/
def limitCell (l : Limit) : String :=
  if l.continuous then "continuous"
  else "[" ++ fixedText 1 (radToDeg l.min) ++ ", " ++ fixedText 1 (radToDeg l.max) ++ "]"

/-- The table of a chain's joints. The name is a format template of no arguments, so a `%`
in it shows as that template prints. -/
def jointTable (c : Chain) : Text.Table where
  title := Text.expandTemplate c.name
  header := ["#", "Name", "Translation", "Axis", "Limits"]
  rows := (List.range c.joints.length).zip c.joints |>.map fun (i, j) =>
    [toString (i + 1), j.name, vectorCell 3 j.translation, vectorCell 2 j.axis, limitCell j.limit]
  footer := ["", "end effector", vectorCell 3 c.endEffector, "", ""]

/-- The drawn joint table of a chain. -/
def describe (c : Chain) : String := c.jointTable.render

end Chain

end ArmReach
