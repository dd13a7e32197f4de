import ArmReach.Solver.Constraints
/-!
# Solvers

A solver moves an arm so that its end effector reaches a goal pose, within constraints. It may
keep state between solves (a count of calls, a record of what it did), and it sees whether the
request it works for has been cancelled, and may cancel it.

`Solved` is what one solve leaves: the solver and the arm afterwards, whether the request is now
cancelled, and the outcome. Success means the arm now reaches the goal; a `notConverged` failure
means no configuration was found; any other failure means the request was malformed or
cancelled.
-/

namespace ArmReach

/-- What one solve leaves behind. -/
structure Solved (σ α : Type) where
  solver : σ
  arm : α
  cancelled : Bool
  outcome : Except Failure Unit

/-- A solver of inverse kinematics with state `σ`. -/
class Solver (σ : Type) where
  /-- One solve of `arm` toward `goal`, given whether the request is already cancelled. -/
  solve {α : Type} [Arm α] : σ → Bool → α → Pose → Option Constraints → Solved σ α

end ArmReach
