import ArmReach.Kinematics.Failure
/-!
# Work groups

A batch of `total` work items is dealt to at most `maxGroups` groups of consecutive items (a
`maxGroups` of zero or less means the parallel factor). With `n` groups every group holds
`size` items and the last also the remainder `total % n`, so group `g` covers
`[g * size, g * size + its size)`. The size is `⌊total / n⌋` computed in doubles
(`groupSize`): both counts are rounded to the nearest double before the division, so above
`2⁵³` items it may miss the integer quotient, and the groups then miss or overrun the batch.
`groups` deals by the integer quotient; it is what `run` deals whenever the two quotients
agree, as they do for the at most `2³¹ - 1` z values of a sampling box.

Groups run side by side and each runs its items in order. A group stops at its first failing
item, and its completion step then does not run; the other groups finish. The failures of all
groups are combined, in group order. An item that breaks down (a panic) is reported as
`got panic running group g in parallel: …`.

`factorOfProcessors` is the default number of groups for a machine: its processor count,
or a quarter of it when that quarter is above 8.
-/

namespace ArmReach

namespace Parallel

/-- The default number of groups for a machine with `procs` processors. -/
def factorOfProcessors (procs : Nat) : Nat :=
  let quarter := procs.toFloat * 0.25
  if quarter > 8 then quarter.floor.toUInt64.toNat else procs

/-- One group of consecutive work items. -/
structure Group where
  index : Nat
  size : Nat
  first : Nat
  stop : Nat
  deriving Inhabited, DecidableEq

/-- The number of groups for `total` items and at most `maxGroups` groups. -/
def groupCount (factor : Nat) (total maxGroups : Int) : Int :=
  min (if maxGroups ≤ 0 then (factor : Int) else maxGroups) total

/-- The size of every group but the last: the quotient `total / count` of the two counts as
doubles, floored. The quotient is not negative, so flooring it is truncating it. -/
def groupSize (total count : Nat) : Nat := (total.toFloat / count.toFloat).toUInt64.toNat

/-- The groups of `total` items dealt to `count` groups of `size` items, the last one also
taking the remainder `total % count`. -/
def groupsOfSize (size total count : Nat) : List Group :=
  (List.range count).map fun g =>
    let s := if g + 1 = count then size + total % count else size
    ⟨g, s, size * g, size * g + s⟩

/-- The groups of `total` items dealt to `count` groups by the integer quotient. -/
def groups (total count : Nat) : List Group :=
  if count = 0 then [] else
  let size := total / count
  (List.range count).map fun g =>
    let s := if g + 1 = count then size + total % count else size
    ⟨g, s, size * g, size * g + s⟩

/-- How a work item ends when it does not succeed. -/
inductive Stop where
  | failed (f : Failure)
  | panicked (message : String)
  deriving Inhabited

/-- The failure a stop of group `g` contributes. -/
def Stop.failure (g : Nat) : Stop → Failure
  | .failed f => f
  | .panicked m => .plain s!"got panic running group {g} in parallel: {m}"

/-- Combines failures in order, as `a; b`. -/
def combine : List Failure → Option Failure
  | [] => none
  | f :: fs => some (fs.foldl .both f)

/-- Runs the items of a group in order: the items run, and the stop that ended the group. -/
def runItems (item : Nat → Option Stop) : List Nat → List Nat × Option Stop
  | [] => ([], none)
  | w :: ws =>
    match item w with
    | some stop => ([w], some stop)
    | none => let (done, stop) := runItems item ws; (w :: done, stop)

/-- How one group went: the items it ran, whether it completed, and its failure. -/
structure GroupRun where
  group : Group
  items : List Nat
  completed : Bool
  failure : Option Failure

/-- Runs a batch: the number of groups, and how each went, in group order. `setup` prepares a
group: it refuses it, or gives the outcome of each item (`none` when the group has no items to
run). -/
def run (factor : Nat) (total maxGroups : Int)
    (setup : Group → Except Failure (Option (Nat → Option Stop))) : Int × List GroupRun :=
  let count := groupCount factor total maxGroups
  let runs := (groupsOfSize (groupSize total.toNat count.toNat) total.toNat count.toNat).map fun g =>
    match setup g with
    | .error f => ⟨g, [], false, some f⟩
    | .ok none => ⟨g, [], true, none⟩
    | .ok (some item) =>
      let (done, stop) := runItems item (List.range' g.first g.size)
      ⟨g, done, stop.isNone, stop.map (·.failure g.index)⟩
  (count, runs)

/-- The combined failure of a batch. -/
def GroupRun.combined (runs : List GroupRun) : Option Failure :=
  combine (runs.filterMap (·.failure))

end Parallel

end ArmReach
