import Mathlib
import ArmReach.Parallel.Interleaving
/-!
# Every interleaving of the groups ends the same way

The threads of a batch (`Batch.Step`) may take their steps in any order. The main
statement, `interleavings_end_alike`, is that every interleaving that runs to the end leaves
every group exactly as `Parallel.run` runs it alone, and stores the failures of the groups, in
some order:

* a group whose function refuses it or breaks down runs no member, does not complete, and
  reports the refusal, or the breakdown as `got panic running group g in parallel: …`;
* a group whose function hands out no member function runs no member and completes;
* otherwise the group runs its items from its first on, in order, up to and including the
  first member that fails or breaks down, and completes exactly when none does (`GroupEnds`);
* the call returns no failure exactly when no group failed, and otherwise the combination of
  every group's failure.

Each group's end depends on its own function only. The proof carries one invariant along the
interleavings (`Batch.OnTrack`): every thread is on its way to the end `run` gives its
group (`Phase.finish` does not change along a step), and the stored failures are those of the
threads that returned, in some order. The sequential order of `run` is one of the
interleavings (`reaches_sequential`), so every batch has one that runs to the end.
-/

namespace ArmReach

namespace Parallel

variable (work : Group → Except Stop (Option (Nat → Option Stop)))

/-! ### One group alone -/

/-- How `run` runs group `g` with the setup `setup`. -/
def GroupRun.of (setup : Group → Except Failure (Option (Nat → Option Stop))) (g : Group) :
    GroupRun :=
  match setup g with
  | .error f => ⟨g, [], false, some f⟩
  | .ok none => ⟨g, [], true, none⟩
  | .ok (some item) =>
    let (done, stop) := runItems item (List.range' g.first g.size)
    ⟨g, done, stop.isNone, stop.map (·.failure g.index)⟩

/-- `run` runs the groups the batch is dealt to, each alone. -/
theorem run_eq_map (factor : Nat) (total maxGroups : Int)
    (setup : Group → Except Failure (Option (Nat → Option Stop))) :
    (run factor total maxGroups setup).2 = (dealt factor total maxGroups).map (GroupRun.of setup) :=
  rfl

@[simp] theorem GroupRun.group_of (setup : Group → Except Failure (Option (Nat → Option Stop)))
    (g : Group) : (GroupRun.of setup g).group = g := by
  unfold GroupRun.of
  split <;> rfl

/-- Members run in order up to and including the first that does not succeed, whose stop ends
the run. -/
theorem runItems_eq_find (item : Nat → Option Stop) (ws : List Nat) :
    runItems item ws =
      match ws.find? (fun w => (item w).isSome) with
      | none => (ws, none)
      | some w => (ws.takeWhile (fun w => (item w).isNone) ++ [w], item w) := by
  induction ws with
  | nil => rfl
  | cons w ws ih =>
    cases hw : item w with
    | some s => simp [runItems, hw]
    | none =>
      -- a member that succeeds is run, and the search for a stop goes on past it
      have hrest : runItems item (w :: ws) = (w :: (runItems item ws).1, (runItems item ws).2) := by
        simp [runItems, hw]
      rw [hrest, ih]
      cases hf : ws.find? (fun w => (item w).isSome) <;> simp [hw, hf]

/-- How group `g` ends when its function does `work g`: a refusal or a breakdown of the function
leaves the group without members run and uncompleted, with its report as the failure; no member
function completes the group without members run; otherwise the members run from the group's
first item on, in order, up to and including the first that fails or breaks down, and the group
completes exactly when none does. -/
def GroupEnds (g : Group) (r : GroupRun) : Prop :=
  r.group = g ∧
  match work g with
  | .error s => r.items = [] ∧ r.completed = false ∧ r.failure = some (s.failure g.index)
  | .ok none => r.items = [] ∧ r.completed = true ∧ r.failure = none
  | .ok (some item) =>
    let ws := List.range' g.first g.size
    match ws.find? (fun w => (item w).isSome) with
    | none => r.items = ws ∧ r.completed = true ∧ r.failure = none
    | some w => ∃ s, item w = some s ∧ r.items = ws.takeWhile (fun w => (item w).isNone) ++ [w] ∧
        r.completed = false ∧ r.failure = some (s.failure g.index)

/-- `run` ends each group as `GroupEnds` says. -/
theorem groupEnds_of (g : Group) : GroupEnds work g (GroupRun.of (setupOf work) g) := by
  refine ⟨GroupRun.group_of _ g, ?_⟩
  unfold GroupRun.of setupOf
  cases hwork : work g with
  | error s => simp [Except.mapError]
  | ok o =>
    cases o with
    | none => simp [Except.mapError]
    | some item =>
      simp only [Except.mapError, runItems_eq_find]
      cases hfind : (List.range' g.first g.size).find? (fun w => (item w).isSome) with
      | none => simp
      | some w =>
        -- the first member that does not succeed has a stop
        have hsome := List.find?_some hfind
        obtain ⟨s, hs⟩ := Option.isSome_iff_exists.mp hsome
        simp [hs]

/-! ### One thread's steps -/

namespace Phase

/-- How group `g` ends from phase `p` when its thread runs alone to the end. -/
def finish (g : Group) : Phase → GroupRun
  | .ready => GroupRun.of (setupOf work) g
  | .running item left ran =>
    let (done, stop) := runItems item left
    ⟨g, ran ++ done, stop.isNone, stop.map (·.failure g.index)⟩
  | .finished items completed failure => ⟨g, items, completed, failure⟩

/-- The failure a thread has stored. -/
def stored : Phase → Option Failure
  | .finished _ _ failure => failure
  | _ => none

/-- The phase of a thread that returned as `r` says. -/
def ofRun (r : GroupRun) : Phase := .finished r.items r.completed r.failure

/-- An upper bound on the steps left to group `g`'s thread. -/
def rank (g : Group) : Phase → Nat
  | .ready => g.size + 2
  | .running _ left _ => left.length + 1
  | .finished .. => 0

@[simp] theorem stored_ofRun (r : GroupRun) : (ofRun r).stored = r.failure := rfl

theorem stored_of_not_finished {p : Phase} (h : p.isFinished = false) : p.stored = none := by
  cases p <;> simp_all [isFinished, stored]

/-- **A step keeps the thread on its way:** after the step it ends as it would have
before. -/
theorem finish_step (g : Group) {p : Phase} (h : p.isFinished = false) :
    (p.step work g).1.finish work g = p.finish work g := by
  cases p with
  | ready =>
    simp only [step, finish, GroupRun.of, setupOf]
    cases work g with
    | error s => rfl
    | ok o =>
      cases o with
      | none => rfl
      | some item => simp [Except.mapError]
  | running item left ran =>
    cases left with
    | nil => simp [step, finish, runItems]
    | cons w ws =>
      cases hw : item w with
      | some s => simp [step, finish, runItems, hw]
      | none => simp [step, finish, runItems, hw]
  | finished => simp [isFinished] at h

/-- The failure a step stores is the one the thread then holds. -/
theorem stored_step (g : Group) {p : Phase} (h : p.isFinished = false) :
    (p.step work g).1.stored = (p.step work g).2 := by
  cases p with
  | ready =>
    simp only [step]
    cases work g with
    | error s => rfl
    | ok o => cases o <;> rfl
  | running item left ran =>
    cases left with
    | nil => rfl
    | cons w ws =>
      simp only [step]
      cases item w <;> rfl
  | finished => simp [isFinished] at h

/-- A step that does not end the thread leaves it fewer steps to go. -/
theorem rank_step (g : Group) {p : Phase} (h : (p.step work g).1.isFinished = false) :
    (p.step work g).1.rank g < p.rank g := by
  cases p with
  | ready =>
    simp only [step] at h ⊢
    cases hw : work g with
    | error s => simp [hw, isFinished] at h
    | ok o =>
      cases o with
      | none => simp [hw, isFinished] at h
      | some item => simp [rank]
  | running item left ran =>
    cases left with
    | nil => simp [step, isFinished] at h
    | cons w ws =>
      simp only [step] at h ⊢
      cases hw : item w with
      | some s => simp [hw, isFinished] at h
      | none => simp [rank]
  | finished => simp [step, isFinished] at h

/-- A thread that returned is where its end puts it. -/
theorem ofRun_finish (g : Group) {p : Phase} (h : p.isFinished = true) :
    ofRun (p.finish work g) = p := by
  cases p <;> simp_all [isFinished, finish, ofRun]

end Phase

/-- Setting an entry that gives `f` nothing adds, up to order, what the new entry gives. -/
theorem filterMap_set_perm {α β : Type} (f : α → Option β) {l : List α} {i : Nat} {a : α}
    (hi : l[i]? = some a) (ha : f a = none) (b : α) :
    ((l.set i b).filterMap f).Perm (l.filterMap f ++ (f b).toList) := by
  induction l generalizing i with
  | nil => simp at hi
  | cons x l ih =>
    cases i with
    | zero =>
      simp only [List.getElem?_cons_zero, Option.some.injEq] at hi
      subst hi
      cases hb : f b with
      | none => simp [ha, hb]
      | some y => simpa [ha, hb] using (List.perm_append_singleton y (l.filterMap f)).symm
    | succ i =>
      simp only [List.getElem?_cons_succ] at hi
      simp only [List.set_cons_succ, List.filterMap_cons]
      cases f x with
      | none => exact ih hi
      | some y => exact (ih hi).cons y

/-! ### Every interleaving -/

namespace Batch

/-- The invariant of the interleavings of a batch over `groups`: one thread per group, each
on its way to the end `run` gives its group, and the stored failures those of the threads
that returned, in some order. -/
structure OnTrack (groups : List Group) (b : Batch) : Prop where
  length : b.phases.length = groups.length
  finish : ∀ (i : Nat) (g : Group) (p : Phase), groups[i]? = some g → b.phases[i]? = some p →
    p.finish work g = GroupRun.of (setupOf work) g
  stored : b.stored.Perm (b.phases.filterMap Phase.stored)

theorem onTrack_start (groups : List Group) : OnTrack work groups (start groups) := by
  refine ⟨by simp [start], fun i g p hg hp => ?_, by simp [start, Phase.stored]⟩
  -- every thread starts ready, where its end is the one `run` gives it
  simp only [start, List.getElem?_map, hg, Option.map_some, Option.some.injEq] at hp
  subst hp
  rfl

/-- **A step keeps the invariant.** The thread that steps stays on its way, and what it
stores, if anything, it now holds. -/
theorem OnTrack.step {groups : List Group} {b b' : Batch} (h : OnTrack work groups b)
    (hs : Step work groups b b') : OnTrack work groups b' := by
  cases hs with
  | @advance i g p hg hp hlive =>
    refine ⟨by simp [h.length], fun j g' p' hg' hp' => ?_, ?_⟩
    · rw [List.getElem?_set] at hp'
      split at hp'
      · -- the thread that stepped
        rename_i hij
        subst hij
        rw [hg, Option.some.injEq] at hg'
        subst hg'
        have hi : i < b.phases.length := (List.getElem?_eq_some_iff.mp hp).1
        rw [if_pos hi, Option.some.injEq] at hp'
        subst hp'
        rw [Phase.finish_step work g hlive]
        exact h.finish i g p hg hp
      · exact h.finish j g' p' hg' hp'
    · -- the new failure joins the stored ones, at the end
      have hperm := filterMap_set_perm Phase.stored hp (Phase.stored_of_not_finished hlive)
        (p.step work g).1
      rw [Phase.stored_step work g hlive] at hperm
      exact (h.stored.append_right _).trans hperm.symm

/-- **Every interleaving keeps the invariant.** -/
theorem OnTrack.of_reaches {groups : List Group} {b : Batch}
    (h : Relation.ReflTransGen (Step work groups) (start groups) b) : OnTrack work groups b := by
  induction h with
  | refl => exact onTrack_start work groups
  | tail _ hs ih => exact ih.step work hs

/-- Once every thread has returned, each group stands where `run` leaves it. -/
theorem OnTrack.phases_of_finished {groups : List Group} {b : Batch} (h : OnTrack work groups b)
    (hdone : b.Finished) :
    b.phases = (groups.map (GroupRun.of (setupOf work))).map Phase.ofRun := by
  apply List.ext_getElem?
  intro i
  simp only [List.getElem?_map]
  cases hg : groups[i]? with
  | none =>
    have hlen : b.phases.length ≤ i := h.length ▸ List.getElem?_eq_none_iff.mp hg
    simp [List.getElem?_eq_none_iff.mpr hlen]
  | some g =>
    have hi : i < b.phases.length := h.length ▸ (List.getElem?_eq_some_iff.mp hg).1
    rw [List.getElem?_eq_getElem hi, Option.map_some, Option.map_some]
    have hp : b.phases[i]? = some b.phases[i] := List.getElem?_eq_getElem hi
    -- a returned thread is the end it was on its way to
    rw [← h.finish i g _ hg hp, Phase.ofRun_finish work g (hdone _ (List.getElem_mem hi))]

end Batch

theorem combine_eq_none_iff {fs : List Failure} : combine fs = none ↔ fs = [] := by
  cases fs <;> simp [combine]

/-- What an interleaving of a batch that ran to the end, `b`, leaves, with the groups as `run`
runs them alone: every group where `run` leaves it, hence as `GroupEnds` says, and as the
result the combination of every group's failure, in some order; so no failure exactly when no
group failed. -/
structure EndsAlike (factor : Nat) (total maxGroups : Int) (b : Batch) : Prop where
  phases : b.phases = (run factor total maxGroups (setupOf work)).2.map Phase.ofRun
  groups : ∀ r ∈ (run factor total maxGroups (setupOf work)).2, GroupEnds work r.group r
  result : ∃ fs, fs.Perm ((run factor total maxGroups (setupOf work)).2.filterMap GroupRun.failure) ∧
    b.result = combine fs
  result_eq_none_iff : b.result = none ↔
    ∀ r ∈ (run factor total maxGroups (setupOf work)).2, r.failure = none

/-- **Every interleaving of the groups ends the same way.** For every batch and every behaviour
of the group functions (each refuses its group, breaks down, hands out no member function, or
hands out members that each succeed, fail or break down), every interleaving of the groups'
threads that runs to the end leaves each group as `run` runs it alone, as `GroupEnds` says,
and returns the combination of every group's failure, in the order they were stored; no failure
exactly when no group failed. -/
theorem interleavings_end_alike (factor : Nat) (total maxGroups : Int) {b : Batch}
    (hrun : Relation.ReflTransGen (Batch.Step work (dealt factor total maxGroups))
      (Batch.start (dealt factor total maxGroups)) b)
    (hdone : b.Finished) : EndsAlike work factor total maxGroups b := by
  have htrack := Batch.OnTrack.of_reaches work hrun
  have hphases : b.phases = (run factor total maxGroups (setupOf work)).2.map Phase.ofRun := by
    rw [run_eq_map]
    exact htrack.phases_of_finished work hdone
  -- the stored failures are those of the groups
  have hstored : b.stored.Perm
      ((run factor total maxGroups (setupOf work)).2.filterMap GroupRun.failure) := by
    have h := htrack.stored
    rw [hphases, List.filterMap_map] at h
    simpa [Function.comp_def] using h
  refine ⟨hphases, fun r hr => ?_, ⟨b.stored, hstored, rfl⟩, ?_⟩
  · rw [run_eq_map, List.mem_map] at hr
    obtain ⟨g, -, rfl⟩ := hr
    rw [GroupRun.group_of]
    exact groupEnds_of work g
  · rw [Batch.result, combine_eq_none_iff, ← List.length_eq_zero_iff, hstored.length_eq,
      List.length_eq_zero_iff, List.filterMap_eq_nil_iff]

/-! ### Running the groups one after the other -/

namespace Batch

/-- **A thread runs alone to its end.** From any batch, the thread of group `i`, if it has
not returned, can take all its remaining steps one after the other; it then stands at its end
and has stored its failure. The induction is on the steps it has left (`Phase.rank`). -/
theorem reaches_finish {groups : List Group} {i : Nat} {g : Group} (hg : groups[i]? = some g)
    (n : Nat) : ∀ (b : Batch) (p : Phase), p.rank g = n → b.phases[i]? = some p →
      p.isFinished = false →
      Relation.ReflTransGen (Step work groups) b
        ⟨b.phases.set i (Phase.ofRun (p.finish work g)),
          b.stored ++ (p.finish work g).failure.toList⟩ := by
  induction n using Nat.strongRecOn with
  | _ n ih =>
    intro b p hrank hp hlive
    have hs : Step work groups b
        ⟨b.phases.set i (p.step work g).1, b.stored ++ (p.step work g).2.toList⟩ :=
      .advance hg hp hlive
    have hfinish := Phase.finish_step work g hlive
    have hstored := Phase.stored_step work g hlive
    cases hnext : (p.step work g).1.isFinished with
    | true =>
      -- the step ends the thread, at its end
      have hend : Phase.ofRun (p.finish work g) = (p.step work g).1 := by
        rw [← hfinish, Phase.ofRun_finish work g hnext]
      have hfail : (p.finish work g).failure = (p.step work g).2 := by
        rw [← hstored, ← hend, Phase.stored_ofRun]
      rw [hend, hfail]
      exact .single hs
    | false =>
      -- otherwise it stored nothing, and its remaining steps follow
      have hi : i < b.phases.length := (List.getElem?_eq_some_iff.mp hp).1
      have hnone : (p.step work g).2 = none := by
        rw [← hstored]
        exact Phase.stored_of_not_finished hnext
      have hrest := ih _ (hrank ▸ Phase.rank_step work g hnext)
        ⟨b.phases.set i (p.step work g).1, b.stored ++ (p.step work g).2.toList⟩ _ rfl
        (by simp [hi]) hnext
      rw [hfinish] at hrest
      simpa [hnone] using Relation.ReflTransGen.head hs hrest

/-- **Running the groups one after the other is an interleaving**, and it runs to the end with
every group where `run` leaves it and the failures stored in group order. -/
theorem reaches_sequential (groups : List Group) :
    Relation.ReflTransGen (Step work groups) (start groups)
      ⟨(groups.map (GroupRun.of (setupOf work))).map Phase.ofRun,
        (groups.map (GroupRun.of (setupOf work))).filterMap GroupRun.failure⟩ := by
  -- the first `k` groups have run to their ends and the others not started
  have hprefix : ∀ k ≤ groups.length, Relation.ReflTransGen (Step work groups) (start groups)
      ⟨(groups.take k).map (fun g => Phase.ofRun (GroupRun.of (setupOf work) g)) ++
          (groups.drop k).map (fun _ => .ready),
        (groups.take k).filterMap (fun g => (GroupRun.of (setupOf work) g).failure)⟩ := by
    intro k
    induction k with
    | zero =>
      intro _
      simpa [start] using Relation.ReflTransGen.refl
    | succ k ih =>
      intro hk
      have hlt : k < groups.length := by omega
      have hg : groups[k]? = some groups[k] := List.getElem?_eq_getElem hlt
      have hdrop := List.drop_eq_getElem_cons hlt
      have hlen : ((groups.take k).map (fun g => Phase.ofRun (GroupRun.of (setupOf work) g))).length
          = k := by
        simp [Nat.min_eq_left (Nat.le_of_lt hlt)]
      have hp : ((groups.take k).map (fun g => Phase.ofRun (GroupRun.of (setupOf work) g)) ++
          (groups.drop k).map (fun _ => Phase.ready))[k]? = some .ready := by
        rw [List.getElem?_append_right (Nat.le_of_eq hlen), hlen, Nat.sub_self, hdrop]
        rfl
      refine (ih (Nat.le_of_succ_le hk)).trans ?_
      have hnext := reaches_finish work hg _
        ⟨(groups.take k).map (fun g => Phase.ofRun (GroupRun.of (setupOf work) g)) ++
          (groups.drop k).map (fun _ => Phase.ready),
          (groups.take k).filterMap (fun g => (GroupRun.of (setupOf work) g).failure)⟩
        .ready rfl hp rfl
      -- group `k` joins the groups that have run
      have hset : ((groups.take k).map (fun g => Phase.ofRun (GroupRun.of (setupOf work) g)) ++
          (groups.drop k).map (fun _ => Phase.ready)).set k
            (Phase.ofRun (GroupRun.of (setupOf work) groups[k])) =
          (groups.take (k + 1)).map (fun g => Phase.ofRun (GroupRun.of (setupOf work) g)) ++
            (groups.drop (k + 1)).map (fun _ => Phase.ready) := by
        rw [List.set_append_right _ _ (Nat.le_of_eq hlen), hlen, Nat.sub_self, hdrop,
          List.take_add_one, hg]
        simp only [List.map_cons, List.set_cons_zero, Option.toList_some, List.map_append,
          List.map_nil, List.append_assoc, List.singleton_append]
      have hstore : (groups.take k).filterMap (fun g => (GroupRun.of (setupOf work) g).failure) ++
          (GroupRun.of (setupOf work) groups[k]).failure.toList =
          (groups.take (k + 1)).filterMap (fun g => (GroupRun.of (setupOf work) g).failure) := by
        rw [List.take_add_one, hg, Option.toList_some, List.filterMap_append]
        cases hf : (GroupRun.of (setupOf work) groups[k]).failure <;>
          simp only [List.filterMap_cons, List.filterMap_nil, hf, Option.toList_none,
            Option.toList_some, List.append_nil]
      have hready : Phase.finish work groups[k] Phase.ready = GroupRun.of (setupOf work) groups[k] :=
        rfl
      dsimp only at hnext
      rw [hready, hset, hstore] at hnext
      exact hnext
  simpa [List.map_map, List.filterMap_map, Function.comp_def] using
    hprefix groups.length (Nat.le_refl _)

/-- A batch whose every group stands at an end has finished. -/
theorem finished_map_ofRun (runs : List GroupRun) (stored : List Failure) :
    Finished ⟨runs.map Phase.ofRun, stored⟩ := by
  simp [Finished, Phase.ofRun, Phase.isFinished]

end Batch

/-- Four items dealt to two groups whose members fail at item 3: the groups run one after the
other is an interleaving that runs to the end, and it ends as `EndsAlike` says. -/
theorem interleavings_end_alike_of_failing_member :
    let work : Group → Except Stop (Option (Nat → Option Stop)) :=
      fun _ => .ok (some fun w => if w = 3 then some (.failed (.plain "bad")) else none)
    let runs := (run 4 4 2 (setupOf work)).2
    let b : Batch := ⟨runs.map Phase.ofRun, runs.filterMap GroupRun.failure⟩
    Relation.ReflTransGen (Batch.Step work (dealt 4 4 2)) (Batch.start (dealt 4 4 2)) b ∧
      b.Finished ∧ EndsAlike work 4 4 2 b := by
  intro work runs b
  have hrun : Relation.ReflTransGen (Batch.Step work (dealt 4 4 2)) (Batch.start (dealt 4 4 2)) b :=
    Batch.reaches_sequential work (dealt 4 4 2)
  have hdone : b.Finished := Batch.finished_map_ofRun _ _
  exact ⟨hrun, hdone, interleavings_end_alike work 4 4 2 hrun hdone⟩

end Parallel

end ArmReach
