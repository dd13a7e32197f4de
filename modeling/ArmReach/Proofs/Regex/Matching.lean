import ArmReach.Regex.Search
/-!
# Regular expressions: what matches, and that the search decides it

What an expression matches is said by a relation on the places of a text (`Matches r p q`: `r`
matches the text from the place `p` to the place `q`), one rule per kind of expression, as RE2
defines them: a character set reads one character it holds, an assertion holds between the
characters around its place, a concatenation matches one part after the other, a repetition
from `min` to `max` copies. `MatchString r text` says that `r` matches some part of the text.

The search decides this relation (`Node.search_iff`). The proof goes through one lemma per
step of the search:

* at a place, `nullable` says exactly whether `r` matches the empty text there
  (`nullable_iff`);
* a derivative matches from the place after a character exactly what `r` matches from the
  place before it, reading that character (`matches_of_matches_deriv`,
  `matches_deriv_of_matches`), the smart constructors changing nothing (`matches_cat'_iff`,
  `matches_alt'_iff`);
* so reading the text character by character finds a match from a place
  (`matchPrefix_iff`), and trying every place finds one anywhere (`searchFrom_iff`).

Repetitions are counted through `Copies r k`: `k` matches of `r`, one after another.
-/

namespace ArmReach

namespace Regex

/-- A place in a text: the characters before it, nearest first, and the characters after it. -/
structure Place where
  before : List Char
  after : List Char
  deriving DecidableEq

namespace Place

/-- The character just before a place. -/
def prev (p : Place) : Option Char := p.before.head?

/-- The character just after a place. -/
def next (p : Place) : Option Char := p.after.head?

end Place

/-- `Matches r p q`: the expression `r` matches the text from the place `p` to the place `q`. -/
inductive Matches : Node → Place → Place → Prop
  | empty (p : Place) : Matches .empty p p
  | chars {s : CharSet} {c : Char} {b a : List Char} :
      s.mem c = true → Matches (.chars s) ⟨b, c :: a⟩ ⟨c :: b, a⟩
  | assert {a : Assertion} {p : Place} : a.holds p.prev p.next = true → Matches (.assert a) p p
  | cat {r s : Node} {p q w : Place} : Matches r p q → Matches s q w → Matches (.cat r s) p w
  | altLeft {r s : Node} {p q : Place} : Matches r p q → Matches (.alt r s) p q
  | altRight {r s : Node} {p q : Place} : Matches s p q → Matches (.alt r s) p q
  | repNil {r : Node} {max : Option Nat} (p : Place) : Matches (.rep r 0 max) p p
  | repCons {r : Node} {min : Nat} {max : Option Nat} {p q w : Place} :
      max ≠ some 0 → Matches r p q → Matches (.rep r (min - 1) (max.map (· - 1))) q w →
      Matches (.rep r min max) p w

/-- `r` matches some part of `text`: from a place of the text to a later one. -/
def MatchString (r : Node) (text : List Char) : Prop :=
  ∃ p q : Place, p.before.reverse ++ p.after = text ∧ Matches r p q

/-- `Copies r k p q`: `k` matches of `r`, one after another, lead from `p` to `q`. -/
inductive Copies (r : Node) : Nat → Place → Place → Prop
  | zero (p : Place) : Copies r 0 p p
  | succ {k : Nat} {p q w : Place} : Matches r p q → Copies r k q w → Copies r (k + 1) p w

/-! ### Matches move forward -/

/-- A match reads a part of the text ahead of its start and ends after it. -/
theorem Matches.reads {r : Node} {p q : Place} (h : Matches r p q) :
    ∃ w, p.after = w ++ q.after ∧ q.before = w.reverse ++ p.before := by
  induction h with
  | empty p => exact ⟨[], rfl, rfl⟩
  | chars _ => exact ⟨[_], rfl, rfl⟩
  | assert _ => exact ⟨[], rfl, rfl⟩
  | cat _ _ ih₁ ih₂ =>
    obtain ⟨w₁, h₁, h₁'⟩ := ih₁
    obtain ⟨w₂, h₂, h₂'⟩ := ih₂
    exact ⟨w₁ ++ w₂, by rw [h₁, h₂, List.append_assoc], by simp [h₁', h₂']⟩
  | altLeft _ ih => exact ih
  | altRight _ ih => exact ih
  | repNil p => exact ⟨[], rfl, rfl⟩
  | repCons _ _ _ ih₁ ih₂ =>
    obtain ⟨w₁, h₁, h₁'⟩ := ih₁
    obtain ⟨w₂, h₂, h₂'⟩ := ih₂
    exact ⟨w₁ ++ w₂, by rw [h₁, h₂, List.append_assoc], by simp [h₁', h₂']⟩

theorem Matches.length_le {r : Node} {p q : Place} (h : Matches r p q) :
    q.after.length ≤ p.after.length := by
  obtain ⟨w, hw, -⟩ := h.reads
  rw [hw, List.length_append]
  exact Nat.le_add_left _ _

/-- A match that reads nothing ends where it starts. -/
theorem Matches.eq_of_length {r : Node} {p q : Place} (h : Matches r p q)
    (hlen : q.after.length = p.after.length) : q = p := by
  obtain ⟨w, hw, hb⟩ := h.reads
  have hnil : w = [] := by
    rw [hw, List.length_append] at hlen
    exact List.eq_nil_of_length_eq_zero (by omega)
  subst hnil
  cases p
  cases q
  simp_all

/-- A match ends at a place of the same text. -/
theorem Matches.text_eq {r : Node} {p q : Place} (h : Matches r p q) :
    q.before.reverse ++ q.after = p.before.reverse ++ p.after := by
  obtain ⟨w, hw, hb⟩ := h.reads
  simp [hw, hb]

theorem Copies.reads {r : Node} {k : Nat} {p q : Place} (h : Copies r k p q) :
    q.after.length ≤ p.after.length := by
  induction h with
  | zero p => exact Nat.le_refl _
  | succ hr _ ih => exact Nat.le_trans ih hr.length_le

/-! ### One rule per kind of expression -/

section Rules

variable {r s : Node} {p q w : Place}

theorem not_matches_noMatch : ¬Matches .noMatch p q := by
  intro h
  cases h

theorem matches_empty_iff : Matches .empty p q ↔ q = p := by
  constructor
  · intro h
    cases h
    rfl
  · rintro rfl
    exact .empty _

theorem matches_chars_iff {cs : CharSet} :
    Matches (.chars cs) p q ↔
      ∃ c a, p.after = c :: a ∧ cs.mem c = true ∧ q = ⟨c :: p.before, a⟩ := by
  constructor
  · intro h
    cases h with
    | chars hc => exact ⟨_, _, rfl, hc, rfl⟩
  · rintro ⟨c, a, hp, hc, rfl⟩
    cases p
    cases hp
    exact .chars hc

theorem matches_assert_iff {a : Assertion} :
    Matches (.assert a) p q ↔ q = p ∧ a.holds p.prev p.next = true := by
  constructor
  · intro h
    cases h with
    | assert ha => exact ⟨rfl, ha⟩
  · rintro ⟨rfl, ha⟩
    exact .assert ha

theorem matches_cat_iff : Matches (.cat r s) p w ↔ ∃ q, Matches r p q ∧ Matches s q w := by
  constructor
  · intro h
    cases h with
    | cat h₁ h₂ => exact ⟨_, h₁, h₂⟩
  · rintro ⟨q, h₁, h₂⟩
    exact .cat h₁ h₂

theorem matches_alt_iff : Matches (.alt r s) p q ↔ Matches r p q ∨ Matches s p q := by
  constructor
  · intro h
    cases h with
    | altLeft h => exact .inl h
    | altRight h => exact .inr h
  · rintro (h | h)
    · exact .altLeft h
    · exact .altRight h

/-- A repetition matches what some count of copies between its bounds matches. -/
theorem matches_rep_iff {lo : Nat} {hi : Option Nat} :
    Matches (.rep r lo hi) p w ↔ ∃ k, lo ≤ k ∧ hi.all (k ≤ ·) ∧ Copies r k p w := by
  constructor
  · -- along the derivation, each copy read lowers both bounds by one
    intro h
    generalize hx : Node.rep r lo hi = x at h
    induction h generalizing lo hi with
    | @repNil r' hi' p =>
      injection hx with hr hlo hhi
      subst hr hlo hhi
      exact ⟨0, Nat.le_refl _, by cases hi <;> simp, .zero p⟩
    | @repCons r' lo' hi' p q w hne hr _ _ ih =>
      injection hx with hr' hlo hhi
      subst hr' hlo hhi
      obtain ⟨k, hk, hkhi, hcopies⟩ := ih rfl
      refine ⟨k + 1, by omega, ?_, .succ hr hcopies⟩
      cases hi with
      | none => rfl
      | some m =>
        simp only [Option.map_some, Option.all_some, decide_eq_true_eq] at hkhi ⊢
        have : m ≠ 0 := fun h0 => hne (by rw [h0])
        omega
    | _ => cases hx
  · rintro ⟨k, hk, hkhi, hcopies⟩
    induction hcopies generalizing lo hi with
    | zero p =>
      obtain rfl : lo = 0 := by omega
      exact .repNil p
    | succ hr _ ih =>
      refine .repCons ?_ hr (ih (by omega) ?_)
      · rintro rfl
        simp at hkhi
      · cases hi with
        | none => rfl
        | some m =>
          simp only [Option.map_some, Option.all_some, decide_eq_true_eq] at hkhi ⊢
          omega

/-- A concatenation of two or more expressions matches the first, then the concatenation of
the others. -/
theorem matches_concatOf_cons {rs : List Node} (h : rs ≠ []) :
    Matches (concatOf (r :: rs)) p w ↔ ∃ q, Matches r p q ∧ Matches (concatOf rs) q w := by
  cases rs with
  | nil => exact absurd rfl h
  | cons s rs => exact matches_cat_iff

end Rules

/-! ### Counted copies -/

section Copies

variable {r : Node} {p q w : Place}

/-- Copies of an expression that matches the empty text at a place match it there, as many as
wanted. -/
theorem Copies.of_matches_self (h : Matches r p p) (k : Nat) : Copies r k p p := by
  induction k with
  | zero => exact .zero p
  | succ k ih => exact .succ h ih

theorem Copies.append {j k : Nat} (h₁ : Copies r j p q) (h₂ : Copies r k q w) :
    Copies r (j + k) p w := by
  induction h₁ with
  | zero p => simpa using h₂
  | succ hr _ ih =>
    rw [Nat.add_right_comm]
    exact .succ hr (ih h₂)

/-- Copies that read nothing are each a match of the empty text. -/
theorem Copies.matches_self {k : Nat} (h : Copies r k p p) (hk : 0 < k) : Matches r p p := by
  cases h with
  | zero => omega
  | succ hr hrest =>
    -- the first copy ends between `p` and `p`, so at `p`
    have hq := hr.eq_of_length (Nat.le_antisymm hr.length_le hrest.reads)
    rwa [hq] at hr

/-- Copies that read something are: copies of the empty text, one copy that reads, and the
rest. -/
theorem Copies.first_reading {k : Nat} (h : Copies r k p w)
    (hw : w.after.length < p.after.length) :
    ∃ e j q, k = e + 1 + j ∧ (0 < e → Matches r p p) ∧ Matches r p q ∧
      q.after.length < p.after.length ∧ Copies r j q w := by
  induction h with
  | zero p => omega
  | @succ k p q w hr hrest ih =>
    by_cases hq : q.after.length < p.after.length
    · exact ⟨0, k, q, by omega, by omega, hr, hq, hrest⟩
    · have hqp : q = p := hr.eq_of_length (Nat.le_antisymm hr.length_le (by omega))
      subst hqp
      obtain ⟨e, j, q', rfl, -, hr', hq', hrest'⟩ := ih hw
      exact ⟨e + 1, j, q', by omega, fun _ => hr, hr', hq', hrest'⟩

end Copies

/-! ### Runs of characters -/

/-- A literal read without case folding holds its own character only. -/
theorem CharSet.mem_lit_iff {c d : Char} : (CharSet.lit c.toNat false).mem d = true ↔ d = c := by
  simp [CharSet.mem, caseVariants, Char.toNat_inj, eq_comm]

/-- A dot without the `s` flag reads every character but a line break. -/
theorem CharSet.mem_any_iff {d : Char} : (CharSet.any false).mem d = true ↔ d ≠ '\n' := by
  simp [CharSet.mem]

/-- Copies of a character set read a run of characters of the set, one each. -/
theorem copies_chars_iff {s : CharSet} {k : Nat} {b a : List Char} {q : Place} :
    Copies (.chars s) k ⟨b, a⟩ q ↔
      ∃ u v, a = u ++ v ∧ u.length = k ∧ (∀ d ∈ u, s.mem d = true) ∧ q = ⟨u.reverse ++ b, v⟩ := by
  induction k generalizing b a with
  | zero =>
    constructor
    · intro h
      cases h
      exact ⟨[], a, rfl, rfl, by simp, rfl⟩
    · rintro ⟨u, v, rfl, hu, -, rfl⟩
      obtain rfl := List.eq_nil_of_length_eq_zero hu
      exact .zero _
  | succ k ih =>
    constructor
    · intro h
      cases h with
      | succ hr hrest =>
        obtain ⟨d, a', hp, hd, rfl⟩ := matches_chars_iff.mp hr
        obtain ⟨u, v, rfl, hu, hmem, rfl⟩ := ih.mp hrest
        refine ⟨d :: u, v, hp, by simp [hu], ?_, by simp⟩
        intro e he
        rcases List.mem_cons.mp he with rfl | he
        · exact hd
        · exact hmem e he
    · rintro ⟨_ | ⟨d, u⟩, v, rfl, hu, hmem, rfl⟩
      · simp at hu
      · refine .succ (.chars (hmem d List.mem_cons_self)) (ih.mpr ⟨u, v, rfl, ?_, ?_, by simp⟩)
        · simpa using hu
        · exact fun e he => hmem e (List.mem_cons_of_mem d he)

/-- **A repetition of a character set reads a run of characters of the set** whose length
lies between the bounds. -/
theorem matches_rep_chars_iff {s : CharSet} {lo : Nat} {hi : Option Nat} {b a : List Char}
    {q : Place} :
    Matches (.rep (.chars s) lo hi) ⟨b, a⟩ q ↔
      ∃ u v, a = u ++ v ∧ lo ≤ u.length ∧ hi.all (u.length ≤ ·) ∧ (∀ d ∈ u, s.mem d = true) ∧
        q = ⟨u.reverse ++ b, v⟩ := by
  rw [matches_rep_iff]
  constructor
  · rintro ⟨k, hk, hkhi, hcopies⟩
    obtain ⟨u, v, rfl, rfl, hmem, rfl⟩ := copies_chars_iff.mp hcopies
    exact ⟨u, v, rfl, hk, hkhi, hmem, rfl⟩
  · rintro ⟨u, v, rfl, hk, hkhi, hmem, rfl⟩
    exact ⟨u.length, hk, hkhi, copies_chars_iff.mpr ⟨u, v, rfl, rfl, hmem, rfl⟩⟩

/-! ### The empty text -/

/-- **`nullable` decides whether an expression matches the empty text at a place.** -/
theorem nullable_iff (r : Node) (p : Place) :
    r.nullable p.prev p.next = true ↔ Matches r p p := by
  induction r with
  | noMatch => simp [Node.nullable, not_matches_noMatch]
  | empty => simp [Node.nullable, matches_empty_iff]
  | chars cs =>
    simp only [Node.nullable, Bool.false_eq_true, false_iff]
    intro h
    have := h.length_le
    obtain ⟨c, a, hp, -, hq⟩ := matches_chars_iff.mp h
    -- a character is read, so the match cannot end where it starts
    have hlen := congrArg (fun x : Place => x.after.length) hq
    simp only [hp] at hlen
    rw [hp] at this
    simp at hlen
  | assert a => simp [Node.nullable, matches_assert_iff]
  | cat r s ihr ihs =>
    rw [Node.nullable, Bool.and_eq_true, ihr, ihs, matches_cat_iff]
    constructor
    · rintro ⟨hr, hs⟩
      exact ⟨p, hr, hs⟩
    · rintro ⟨q, hr, hs⟩
      -- the middle place lies between `p` and `p`
      have hq := hr.eq_of_length (Nat.le_antisymm hr.length_le hs.length_le)
      subst hq
      exact ⟨hr, hs⟩
  | alt r s ihr ihs => rw [Node.nullable, Bool.or_eq_true, ihr, ihs, matches_alt_iff]
  | rep r lo hi ihr =>
    rw [Node.nullable, Bool.or_eq_true, Bool.and_eq_true, ihr, matches_rep_iff, beq_iff_eq]
    constructor
    · rintro (rfl | ⟨hr, hhi⟩)
      · exact ⟨0, Nat.le_refl _, by cases hi <;> simp, .zero p⟩
      · exact ⟨lo, Nat.le_refl _, hhi, Copies.of_matches_self hr lo⟩
    · rintro ⟨k, hk, hkhi, hcopies⟩
      by_cases h0 : lo = 0
      · exact .inl h0
      · refine .inr ⟨hcopies.matches_self (by omega), ?_⟩
        cases hi with
        | none => rfl
        | some m =>
          simp only [Option.all_some, decide_eq_true_eq] at hkhi ⊢
          omega

/-! ### The smart constructors -/

theorem matches_cat'_iff {r s : Node} {p w : Place} :
    Matches (Node.cat' r s) p w ↔ Matches (.cat r s) p w := by
  rw [matches_cat_iff]
  fun_cases Node.cat' r s
  · simp [not_matches_noMatch]
  · simp [not_matches_noMatch]
  · simp [matches_empty_iff]
  · simp [matches_empty_iff]
  · exact matches_cat_iff

theorem matches_of_isBranch {r s : Node} (h : r.isBranch s = true) {p q : Place}
    (hr : Matches r p q) : Matches s p q := by
  induction s with
  | alt a b _ ihb =>
    simp only [Node.isBranch, Bool.or_eq_true, beq_iff_eq] at h
    rcases h with (rfl | rfl) | h
    · exact hr
    · exact .altLeft hr
    · exact .altRight (ihb h)
  | _ =>
    simp only [Node.isBranch, beq_iff_eq] at h
    rwa [← h]

theorem matches_alt'_iff {r s : Node} {p q : Place} :
    Matches (Node.alt' r s) p q ↔ Matches r p q ∨ Matches s p q := by
  fun_induction Node.alt' r s with
  | case1 s => simp [not_matches_noMatch]
  | case2 a b s ihb ih => rw [ih, ihb, matches_alt_iff, or_assoc]
  | case3 r s _ _ hs =>
    simp only [beq_iff_eq] at hs
    subst hs
    simp [not_matches_noMatch]
  | case4 r s _ _ _ hbranch =>
    exact ⟨.inr, fun h => h.elim (matches_of_isBranch hbranch) id⟩
  | case5 => exact matches_alt_iff

/-! ### Derivatives -/

section Deriv

variable {b a : List Char} {c : Char}

/-- What the derivative matches after `c`, the expression matches from before `c`. -/
theorem matches_of_matches_deriv (r : Node) {w : Place}
    (h : Matches (r.deriv b.head? c) ⟨c :: b, a⟩ w) : Matches r ⟨b, c :: a⟩ w := by
  induction r generalizing w with
  | noMatch | empty | assert _ => exact absurd h not_matches_noMatch
  | chars cs =>
    simp only [Node.deriv] at h
    split at h
    · rw [matches_empty_iff.mp h]
      exact .chars (by assumption)
    · exact absurd h not_matches_noMatch
  | cat r s ihr ihs =>
    simp only [Node.deriv] at h
    rcases matches_alt'_iff.mp h with h | h
    · obtain ⟨q, hr, hs⟩ := matches_cat_iff.mp (matches_cat'_iff.mp h)
      exact .cat (ihr hr) hs
    · split at h
      · -- `r` matched the empty text before `c`
        rename_i hnull
        exact .cat ((nullable_iff r ⟨b, c :: a⟩).mp hnull) (ihs h)
      · exact absurd h not_matches_noMatch
  | alt r s ihr ihs =>
    simp only [Node.deriv] at h
    rcases matches_alt'_iff.mp h with h | h
    · exact .altLeft (ihr h)
    · exact .altRight (ihs h)
  | rep r lo hi ihr =>
    simp only [Node.deriv] at h
    split at h
    · exact absurd h not_matches_noMatch
    rename_i hguard
    simp only [Bool.or_eq_true, beq_iff_eq, not_or] at hguard
    obtain ⟨hhi0, hhilo⟩ := hguard
    obtain ⟨q, hr, hrest⟩ := matches_cat_iff.mp (matches_cat'_iff.mp h)
    obtain ⟨j, hj, hjhi, hcopies⟩ := matches_rep_iff.mp hrest
    -- the greatest count is at least the least one, and leaves room for the copy reading `c`
    have hbound : ∀ m, hi = some m → lo ≤ m ∧ j + 1 ≤ m := by
      rintro m rfl
      simp only [Option.any_some, decide_eq_true_eq, Nat.not_lt, Option.map_some,
        Option.all_some] at hhilo hjhi
      have : m ≠ 0 := fun h0 => hhi0 (congrArg some h0)
      exact ⟨hhilo, by omega⟩
    rw [matches_rep_iff]
    by_cases hnull : r.nullable b.head? (some c) = true
    · -- copies of the empty text before `c` make up the least count
      have hself := (nullable_iff r ⟨b, c :: a⟩).mp hnull
      refine ⟨(lo - (j + 1)) + (j + 1), by omega, ?_, ?_⟩
      · cases hi with
        | none => rfl
        | some m =>
          simp only [Option.all_some, decide_eq_true_eq]
          have := hbound m rfl
          omega
      · exact (Copies.of_matches_self hself _).append (.succ (ihr hr) hcopies)
    · rw [if_neg hnull] at hj
      refine ⟨j + 1, by omega, ?_, .succ (ihr hr) hcopies⟩
      cases hi with
      | none => rfl
      | some m =>
        simp only [Option.all_some, decide_eq_true_eq]
        exact (hbound m rfl).2

/-- What the expression matches from before `c`, reading `c`, the derivative matches from
after it. -/
theorem matches_deriv_of_matches (r : Node) {w : Place} (h : Matches r ⟨b, c :: a⟩ w)
    (hw : w.after.length < (c :: a).length) : Matches (r.deriv b.head? c) ⟨c :: b, a⟩ w := by
  induction r generalizing w with
  | noMatch => exact absurd h not_matches_noMatch
  | empty =>
    rw [matches_empty_iff.mp h] at hw
    exact absurd hw (Nat.lt_irrefl _)
  | assert _ =>
    rw [(matches_assert_iff.mp h).1] at hw
    exact absurd hw (Nat.lt_irrefl _)
  | chars cs =>
    obtain ⟨d, a', hd, hmem, rfl⟩ := matches_chars_iff.mp h
    simp only [List.cons.injEq] at hd
    obtain ⟨rfl, rfl⟩ := hd
    simp only [Node.deriv, hmem, if_true]
    exact .empty _
  | cat r s ihr ihs =>
    obtain ⟨q, hr, hs⟩ := matches_cat_iff.mp h
    simp only [Node.deriv]
    rw [matches_alt'_iff]
    by_cases hq : q.after.length < (c :: a).length
    · exact .inl (matches_cat'_iff.mpr (.cat (ihr hr hq) hs))
    · -- `r` matched the empty text before `c`, and `s` reads `c`
      have hqp : q = ⟨b, c :: a⟩ := hr.eq_of_length (Nat.le_antisymm hr.length_le (by simpa using hq))
      subst hqp
      have hnull := (nullable_iff r ⟨b, c :: a⟩).mpr hr
      simp only [Place.prev, Place.next, List.head?_cons] at hnull
      rw [if_pos hnull]
      exact .inr (ihs hs hw)
  | alt r s ihr ihs =>
    simp only [Node.deriv]
    rw [matches_alt'_iff]
    rcases matches_alt_iff.mp h with h | h
    · exact .inl (ihr h hw)
    · exact .inr (ihs h hw)
  | rep r lo hi ihr =>
    obtain ⟨k, hk, hkhi, hcopies⟩ := matches_rep_iff.mp h
    obtain ⟨e, j, q, rfl, hempty, hr, hq, hrest⟩ := hcopies.first_reading hw
    simp only [Node.deriv]
    -- the bounds admit a copy, so the derivative is not empty
    have hguard : (hi == some 0 || hi.any (· < lo)) = false := by
      cases hi with
      | none => rfl
      | some m =>
        simp only [Option.all_some, decide_eq_true_eq] at hkhi
        simp only [Option.any_some, Bool.or_eq_false_iff, beq_eq_false_iff_ne, ne_eq,
          Option.some.injEq, decide_eq_false_iff_not, Nat.not_lt]
        omega
    rw [hguard, if_neg Bool.false_ne_true]
    refine matches_cat'_iff.mpr (.cat (ihr hr hq) (matches_rep_iff.mpr ⟨j, ?_, ?_, hrest⟩))
    · by_cases hnull : r.nullable b.head? (some c) = true
      · rw [if_pos hnull]
        exact Nat.zero_le _
      · -- no copy of the empty text came first
        rw [if_neg hnull]
        have he : e = 0 := by
          cases Nat.eq_zero_or_pos e with
          | inl he => exact he
          | inr he => exact absurd ((nullable_iff r ⟨b, c :: a⟩).mpr (hempty he)) hnull
        omega
    · cases hi with
      | none => rfl
      | some m =>
        simp only [Option.all_some, decide_eq_true_eq, Option.map_some] at hkhi ⊢
        omega

end Deriv

/-! ### The search -/

namespace Node

/-- **Reading the text ahead finds exactly the matches from a place.** -/
theorem matchPrefix_iff (r : Node) (b a : List Char) :
    r.matchPrefix b.head? a = true ↔ ∃ q, Matches r ⟨b, a⟩ q := by
  induction a generalizing r b with
  | nil =>
    show r.nullable (⟨b, []⟩ : Place).prev (⟨b, []⟩ : Place).next = true ↔ _
    rw [nullable_iff]
    constructor
    · exact fun h => ⟨_, h⟩
    · rintro ⟨q, hq⟩
      have := hq.length_le
      rwa [hq.eq_of_length (by simp at this ⊢; omega)] at hq
  | cons c a ih =>
    show (r.nullable (⟨b, c :: a⟩ : Place).prev (⟨b, c :: a⟩ : Place).next ||
      (r.deriv b.head? c).matchPrefix (c :: b).head? a) = true ↔ _
    rw [Bool.or_eq_true, nullable_iff, ih]
    constructor
    · rintro (h | ⟨q, hq⟩)
      · exact ⟨_, h⟩
      · exact ⟨q, matches_of_matches_deriv r hq⟩
    · rintro ⟨q, hq⟩
      by_cases hlen : q.after.length < (c :: a).length
      · exact .inr ⟨q, matches_deriv_of_matches r hq hlen⟩
      · have := hq.eq_of_length (Nat.le_antisymm hq.length_le (by simp only at hlen ⊢; omega))
        rw [this] at hq
        exact .inl hq

/-- Trying every place from the current one on finds exactly the matches that start there or
later. -/
theorem searchFrom_iff (r : Node) (b a : List Char) :
    r.searchFrom b.head? a = true ↔
      ∃ u v q, a = u ++ v ∧ Matches r ⟨u.reverse ++ b, v⟩ q := by
  induction a generalizing b with
  | nil =>
    rw [searchFrom, matchPrefix_iff]
    constructor
    · rintro ⟨q, hq⟩
      exact ⟨[], [], q, rfl, hq⟩
    · rintro ⟨u, v, q, huv, hq⟩
      obtain ⟨rfl, rfl⟩ := List.append_eq_nil_iff.mp huv.symm
      exact ⟨q, hq⟩
  | cons c a ih =>
    rw [searchFrom, Bool.or_eq_true, matchPrefix_iff, show some c = (c :: b).head? from rfl, ih]
    constructor
    · rintro (⟨q, hq⟩ | ⟨u, v, q, rfl, hq⟩)
      · exact ⟨[], c :: a, q, rfl, hq⟩
      · exact ⟨c :: u, v, q, rfl, by simpa using hq⟩
    · rintro ⟨_ | ⟨d, u⟩, v, q, huv, hq⟩
      · rw [List.nil_append] at huv
        subst huv
        exact .inl ⟨q, hq⟩
      · obtain ⟨rfl, rfl⟩ := List.cons.inj huv
        exact .inr ⟨u, v, q, rfl, by simpa using hq⟩

/-- **The search decides whether an expression matches some part of a text.** -/
theorem search_iff (r : Node) (text : List Char) : r.search text = true ↔ MatchString r text := by
  rw [search, show none = ([] : List Char).head? from rfl, searchFrom_iff]
  constructor
  · rintro ⟨u, v, q, rfl, hq⟩
    exact ⟨⟨u.reverse, v⟩, q, by simp, by simpa using hq⟩
  · rintro ⟨p, q, rfl, hq⟩
    exact ⟨p.before.reverse, p.after, q, rfl, by simpa using hq⟩

end Node

/-- An expression text matches a text exactly when it compiles to an expression matching some
part of it. -/
theorem matchesString_iff (e s : String) :
    matchesString e s = true ↔ ∃ r, compile e = some r ∧ MatchString r s.toList := by
  unfold matchesString
  cases compile e with
  | none => simp
  | some r => simp [Node.search_iff]

end Regex

end ArmReach
