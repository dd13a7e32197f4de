import ArmReach.Solver.Basic
import ArmReach.Solver.Draw
import ArmReach.Logging.Entry
/-!
# Random restarts

`RestartSolver` wraps another solver. It runs the inner solver from the arm's configuration;
whenever that does not converge, it moves the arm to a random configuration and tries again,
up to a number of tries in all.

* Random configurations draw each joint uniformly in its range (`randomPositions`), and then
  move each freely turning joint by whole turns to the turn nearest the starting configuration.
* The draws come from a generator seeded by FNV-1a of the seed and the bits of the goal's
  position and orientation, so equal requests restart through equal configurations.
* A cancelled request stops before the next try.
* Any failure of the inner solver other than non-convergence ends the solve, with the message
  `ik try k: …`.
* When the solve does not succeed the arm is put back in its starting configuration and the
  failure is returned (the last non-convergence when the tries run out). A failure to put it
  back is added: `cause; failed to restore initial joints: …`.

Every step is written to the solver's journal at debug level.
-/

-- Powers of naturals and integers are core's `Nat.pow` and `Int.pow`, also where Mathlib's
-- monoid power is in scope.
attribute [local instance (high)] instPowNat

namespace ArmReach

/-- A solver that restarts `inner` from random configurations. -/
structure RestartSolver (σ : Type) where
  inner : σ
  maxTries : Nat
  seed : Int
  journal : Logging.Journal

namespace RestartSolver

open Logging (Value)

variable {σ α : Type}

/-- A restart solver, refused without an inner solver, without a journal, or with fewer than
one try; the three are checked in this order. -/
def create (inner : Option σ) (maxTries : Int) (seed : Int) (journal : Option Logging.Journal) :
    Except Failure (RestartSolver σ) :=
  match inner, journal with
  | none, _ => .error (.plain "random restart ik needs a solver to wrap")
  | _, none => .error (.plain "random restart ik needs a logger")
  | some inner, some journal =>
    if maxTries < 1 then .error (.plain s!"random restart ik needs at least one try, got {maxTries}")
    else .ok ⟨inner, maxTries.toNat, seed, journal⟩

/-- Writes a debug entry to the journal. -/
def note (r : RestartSolver σ) (message : String) (fields : List (String × Value)) :
    RestartSolver σ :=
  { r with journal := r.journal.debug message fields }

/-- The 64-bit word of a signed 64-bit seed (two's complement). -/
def seedWord (seed : Int) : UInt64 := (seed % (2 ^ (64 : Nat) : Int)).toNat.toUInt64

/-- A 64-bit word read as a signed 64-bit number. -/
def signedOfWord (w : UInt64) : Int :=
  if w.toNat < 2 ^ (63 : Nat) then w.toNat else (w.toNat : Int) - 2 ^ (64 : Nat)

/-- The bits of a coordinate as the hash takes them. A double here has one NaN, whose payload
is lost, so every NaN is taken as the quiet NaN with payload 1 that a `NaN` in a request
stands for. -/
def coordinateWord (x : Float) : UInt64 :=
  if x.isNaN then 0x7FF8000000000001 else x.toBits

/-- The generator of the restart configurations for a goal. -/
def sourceFor (seed : Int) (goal : Pose) : Random.Source :=
  let q := goal.rotation
  let words := seedWord seed ::
    [goal.point.x, goal.point.y, goal.point.z, q.re, q.i, q.j, q.k].map coordinateWord
  Random.Source.seeded (signedOfWord (Random.fnv1a64Words words))

/-- Puts the arm back in `initial` and returns `cause`, with the failure to do so added. -/
def restore [Arm α] (arm : α) (initial : List Float) (cause : Failure) : α × Failure :=
  match Arm.setUnchecked arm initial with
  | (arm, .ok ()) => (arm, cause)
  | (arm, .error e) => (arm, .both cause (.wrap "failed to restore initial joints" e))

/-- The end of a solve that did not succeed: the arm put back and the failure. -/
def giveUp [Arm α] (r : RestartSolver σ) (cancelled : Bool) (arm : α) (initial : List Float)
    (cause : Failure) : Solved (RestartSolver σ) α :=
  let (arm, f) := restore arm initial cause
  ⟨r, arm, cancelled, .error f⟩

/-- The tries from try number `k + 1` on, `left` of them at most; `source` is the generator once
it has been made. -/
def tries [Solver σ] [Arm α] (goal : Pose) (c : Option Constraints) (initial : List Float)
    (limits : List Limit) : (left k : Nat) → RestartSolver σ → Bool → α →
    Option Random.Source → Solved (RestartSolver σ) α
  | 0, _, r, cancelled, arm, _ => ⟨r, arm, cancelled, .ok ()⟩
  | left + 1, k, r, cancelled, arm, source =>
    if cancelled then giveUp r cancelled arm initial .canceled else
    let r := r.note "solving ik"
      [("try", .count (k + 1)), ("of", .count r.maxTries), ("joints", .numbers (Arm.positions arm))]
    let s := Solver.solve r.inner cancelled arm goal c
    let r := { r with inner := s.solver }
    match s.outcome with
    | .ok () =>
      let r := r.note "solved ik" [("try", .count (k + 1)), ("joints", .numbers (Arm.positions s.arm))]
      ⟨r, s.arm, s.cancelled, .ok ()⟩
    | .error e =>
      if !e.isNotConverged then giveUp r s.cancelled s.arm initial (.wrap s!"ik try {k + 1}" e) else
      let r := r.note "ik did not converge" [("try", .count (k + 1)), ("error", .failure e)]
      if left = 0 then
        let r := r.note "failed to solve ik, restoring initial joints"
          [("tries", .count r.maxTries), ("joints", .numbers initial)]
        giveUp r s.cancelled s.arm initial e
      else
        let (next, source) := randomPositions .double limits (source.getD (sourceFor r.seed goal))
        match nearestAngles .double initial next limits with
        | .error f => giveUp r s.cancelled s.arm initial f
        | .ok next =>
          match Arm.setUnchecked s.arm next with
          | (arm, .error f) => giveUp r s.cancelled arm initial f
          | (arm, .ok ()) => tries goal c initial limits left (k + 1) r s.cancelled arm (some source)

/-- One solve with restarts. -/
def solve [Solver σ] [Arm α] (r : RestartSolver σ) (cancelled : Bool) (arm : α) (goal : Pose)
    (c : Option Constraints) : Solved (RestartSolver σ) α :=
  let r := r.note "random restart ik" [("arm", .text (Arm.name arm)), ("goal", .text goal.render)]
  tries goal c (Arm.positions arm) (Arm.limits arm) r.maxTries 0 r cancelled arm none

end RestartSolver

/-- A restart solver is a solver. -/
instance {σ : Type} [Solver σ] : Solver (RestartSolver σ) where
  solve r cancelled arm goal c := r.solve cancelled arm goal c

end ArmReach
