import ArmReach.Parallel.Groups
/-!
# The groups of a batch, side by side

`Parallel.run` runs the groups of a batch one after the other. The groups really run side by
side, one thread each; this module describes every way their steps can interleave.

A group's thread takes atomic steps (`Phase.step`): it calls the group's function, then runs
the members one at a time. A step touches what the threads share, the combined failure, only
by adding at most one failure to it while holding its lock; the group's function and its
members work on the group's own data. Every interleaving of the threads is therefore an
interleaving of these steps (`Batch.Step`), and the call returns the stored failures combined
in the order they were stored (`Batch.result`). The members take no notice of the batch's
cancellation, which is therefore no part of the state.

A group's function refuses its group or breaks down (`Except.error` of a `Stop`), hands out no
member function (`.ok none`), or hands out the outcome of each member (`.ok (some item)`). A
breakdown is recovered as the report `got panic running group g in parallel: …`, as a member's
is; `setupOf` is how such groups look to `Parallel.run`.
-/

namespace ArmReach

namespace Parallel

/-- How the groups look to `run` when group `g`'s function does `work g`: a breakdown of the
function is the group's report of it. -/
def setupOf (work : Group → Except Stop (Option (Nat → Option Stop))) :
    Group → Except Failure (Option (Nat → Option Stop)) :=
  fun g => (work g).mapError (·.failure g.index)

/-- The groups a batch of `total` items is dealt to, at most `maxGroups` of them. -/
def dealt (factor : Nat) (total maxGroups : Int) : List Group :=
  let count := groupCount factor total maxGroups
  groupsOfSize (groupSize total.toNat count.toNat) total.toNat count.toNat

/-- Where a group's thread stands. -/
inductive Phase where
  /-- The group's function has not been called. -/
  | ready
  /-- Running members: their outcomes, the items left to run, and the items run. -/
  | running (item : Nat → Option Stop) (left ran : List Nat)
  /-- Returned: the items run, whether the group completed, and the failure it stored. -/
  | finished (items : List Nat) (completed : Bool) (failure : Option Failure)

namespace Phase

/-- Whether the thread has returned. -/
def isFinished : Phase → Bool
  | .finished .. => true
  | _ => false

/-- One atomic step of group `g`'s thread: where it stands after the step, and the failure
it stores, if any. -/
def step (work : Group → Except Stop (Option (Nat → Option Stop))) (g : Group) :
    Phase → Phase × Option Failure
  | .ready =>
    match work g with
    | .error s => (.finished [] false (some (s.failure g.index)), some (s.failure g.index))
    | .ok none => (.finished [] true none, none)
    | .ok (some item) => (.running item (List.range' g.first g.size) [], none)
  | .running _ [] ran => (.finished ran true none, none)
  | .running item (w :: ws) ran =>
    match item w with
    | some s => (.finished (ran ++ [w]) false (some (s.failure g.index)), some (s.failure g.index))
    | none => (.running item ws (ran ++ [w]), none)
  | .finished items completed failure => (.finished items completed failure, none)

end Phase

/-- The threads of a batch: where each group stands, in group order, and the failures
stored so far, in the order they were stored. -/
structure Batch where
  phases : List Phase
  stored : List Failure

namespace Batch

/-- The batch before any thread has taken a step. -/
def start (groups : List Group) : Batch := ⟨groups.map fun _ => .ready, []⟩

/-- Every thread has returned, so the call returns. -/
def Finished (b : Batch) : Prop := ∀ p ∈ b.phases, p.isFinished = true

/-- What the call returns: the stored failures, combined in the order they were stored. -/
def result (b : Batch) : Option Failure := combine b.stored

/-- A step of the batch over `groups`: a thread that has not returned, that of group `i`,
takes its next step. -/
inductive Step (work : Group → Except Stop (Option (Nat → Option Stop))) (groups : List Group) :
    Batch → Batch → Prop
  | advance {b : Batch} {i : Nat} {g : Group} {p : Phase} (hg : groups[i]? = some g)
      (hp : b.phases[i]? = some p) (hlive : p.isFinished = false) :
      Step work groups b ⟨b.phases.set i (p.step work g).1, b.stored ++ (p.step work g).2.toList⟩

end Batch

end Parallel

end ArmReach
