import ArmReach.Proofs.Solver.Jacobian
import ArmReach.Proofs.Spatial.Normalize
/-!
# What a serial chain keeps

`Chain.make` checks that there is a joint, that no axis has norm zero and that no bounded
range has `min > max`, normalizes the axes and starts every joint at `clamp 0`. The main
statement, `make_keeps`, follows a chain built so through every sequence of settings of its
joint values (`Chain.Reached`; evaluating poses and copying leave a chain as it is):

* only the joint values change, and there is one per joint, of at least one joint;
* the joints are the given ones with normalized axes, and every stored axis whose given
  axis has a squared norm that is a normal double is a vector of finite components with norm
  `1` up to rounding (`Vec3.normalize_of_norm2_normal`);
* no bounded range has `min > max`, so one whose bounds are numbers has `min ≤ max`;
* a setting that fails leaves the chain as it is, one that succeeds holds exactly the values;
* while every setting has been checked, every joint whose bounds are numbers holds a value
  within its range.

The checks say nothing more: a bound may be NaN, for which `min > max` fails too, and then
`clamp 0` is NaN or an infinity outside the range; an axis may have a norm that overflows to
`+∞`, which is not zero, and then normalizes to the zero vector.

The ranges rest on one fact about doubles (`Limit.contains_clamp`): clamping a number into a
range whose bounds are in order gives a value within it. It holds because `maxOf` and `minOf`
take the larger and the smaller order key of two numbers (`key_maxOf`, `key_minOf`).
-/

namespace ArmReach

/-! ### The order of doubles through their keys -/

namespace Binary64

/-- The order key of a double, `none` for NaN. -/
def key (x : Float) : Option (Int ×ₗ Int ×ₗ Int) := orderKey x.toModel.unpack

theorem then_compare_isLE {e₁ e₂ : Int} {m₁ m₂ : Nat} :
    ((compare e₁ e₂).then (compare m₁ m₂)).isLE = true ↔ e₁ < e₂ ∨ e₁ = e₂ ∧ m₁ ≤ m₂ := by
  rw [Ordering.isLE_iff_ne_gt, then_compare_eq_gt]
  omega

theorem then_compare_isGE {e₁ e₂ : Int} {m₁ m₂ : Nat} :
    ((compare e₁ e₂).then (compare m₁ m₂)).isGE = true ↔ e₂ < e₁ ∨ e₁ = e₂ ∧ m₂ ≤ m₁ := by
  rw [Ordering.isGE_iff_ne_lt, then_compare_eq_lt]
  omega

/-- One double is at most another exactly when neither is NaN and its key is at most the
other's. -/
theorem le_iff_orderKey (a b : Float.Model.UnpackedFloat) :
    a.le b = true ↔ ∃ x y, orderKey a = some x ∧ orderKey b = some y ∧ x ≤ y := by
  rcases a with (_ | _) | _ | (_ | _) | ⟨_ | _, m₁, e₁, _⟩ <;>
    rcases b with (_ | _) | _ | (_ | _) | ⟨_ | _, m₂, e₂, _⟩ <;>
    simp [Float.Model.UnpackedFloat.le, Float.Model.UnpackedFloat.compare, orderKey,
      Prod.Lex.toLex_le_toLex, then_compare_isLE, then_compare_isGE] <;>
    rfl

/-- Two doubles are equal exactly when neither is NaN and their keys are. -/
theorem beq_iff_orderKey (a b : Float.Model.UnpackedFloat) :
    a.beq b = true ↔ ∃ x, orderKey a = some x ∧ orderKey b = some x := by
  rcases a with (_ | _) | _ | (_ | _) | ⟨_ | _, m₁, e₁, _⟩ <;>
    rcases b with (_ | _) | _ | (_ | _) | ⟨_ | _, m₂, e₂, _⟩ <;>
    simp [Float.Model.UnpackedFloat.beq, Float.Model.UnpackedFloat.compare, orderKey,
      Ordering.then_eq_eq]
  -- an infinity equals the infinity of its sign
  · rfl
  · rfl
  -- finite values are equal when their exponents and significands are
  · omega
  · omega

theorem key_eq_none_iff (x : Float) : key x = none ↔ x.isNaN = true := by
  show orderKey x.toModel.unpack = none ↔ x.toModel.unpack.isNaN = true
  generalize x.toModel.unpack = u
  rcases u with (_ | _) | _ | (_ | _) | ⟨_ | _, m, e, _⟩ <;>
    simp [orderKey, Float.Model.UnpackedFloat.isNaN]

theorem exists_key_of_isNaN_eq_false {x : Float} (h : x.isNaN = false) : ∃ a, key x = some a :=
  Option.ne_none_iff_exists'.mp fun hn => by
    simp only [(key_eq_none_iff x).mp hn, Bool.true_eq_false] at h

theorem lt_iff_key (x y : Float) : x < y ↔ ∃ a b, key x = some a ∧ key y = some b ∧ a < b :=
  (lt_iff_unpack_lt x y).trans (lt_iff_orderKey _ _)

theorem le_iff_key (x y : Float) : x ≤ y ↔ ∃ a b, key x = some a ∧ key y = some b ∧ a ≤ b := by
  show Float.le x y = true ↔ _
  unfold Float.le
  simp only [decide_eq_true_eq]
  exact le_iff_orderKey _ _

theorem beq_iff_key (x y : Float) : (x == y) = true ↔ ∃ a, key x = some a ∧ key y = some a :=
  beq_iff_orderKey _ _

section KnownKeys

variable {x y : Float} {a b : Int ×ₗ Int ×ₗ Int}

theorem lt_iff_of_key (hx : key x = some a) (hy : key y = some b) : x < y ↔ a < b := by
  simp only [lt_iff_key, hx, hy, Option.some.injEq, exists_and_left, exists_eq_left']

theorem le_iff_of_key (hx : key x = some a) (hy : key y = some b) : x ≤ y ↔ a ≤ b := by
  simp only [le_iff_key, hx, hy, Option.some.injEq, exists_and_left, exists_eq_left']

theorem key_le_of_not_lt (hx : key x = some a) (hy : key y = some b) (h : ¬y < x) : a ≤ b :=
  not_lt.mp (mt (lt_iff_of_key hy hx).mpr h)

end KnownKeys

theorem key_zero : key 0 = some (toLex (0, toLex (0, 0))) := by decide

theorem key_negInf : key (-(1.0 / 0.0)) = some (toLex (-2, toLex (0, 0))) := by decide

theorem key_posInf : key (1.0 / 0.0) = some (toLex (2, toLex (0, 0))) := by decide

/-- Every key lies between the keys of `-∞` and `+∞`. -/
theorem key_mem_infs {x : Float} {a : Int ×ₗ Int ×ₗ Int} (h : key x = some a) :
    toLex (-2, toLex (0, 0)) ≤ a ∧ a ≤ toLex (2, toLex (0, 0)) := by
  unfold key at h
  generalize x.toModel.unpack = u at h
  rcases u with (_ | _) | _ | (_ | _) | ⟨_ | _, m, e, _⟩ <;> simp [orderKey] at h <;> subst h <;>
    simp [Prod.Lex.toLex_le_toLex]

theorem isInf_and_lt_zero_iff (x : Float) :
    (x.isInf && decide (x < 0)) = true ↔ key x = some (toLex (-2, toLex (0, 0))) := by
  rw [Bool.and_eq_true, decide_eq_true_eq, lt_iff_key, key_zero]
  show x.toModel.unpack.isInf = true ∧ _ ↔ _
  unfold key
  generalize x.toModel.unpack = u
  rcases u with (_ | _) | _ | (_ | _) | ⟨_ | _, m, e, _⟩ <;>
    simp [orderKey, Float.Model.UnpackedFloat.isInf, Prod.Lex.toLex_lt_toLex]

theorem isInf_and_zero_lt_iff (x : Float) :
    (x.isInf && decide (0 < x)) = true ↔ key x = some (toLex (2, toLex (0, 0))) := by
  rw [Bool.and_eq_true, decide_eq_true_eq, lt_iff_key, key_zero]
  show x.toModel.unpack.isInf = true ∧ _ ↔ _
  unfold key
  generalize x.toModel.unpack = u
  rcases u with (_ | _) | _ | (_ | _) | ⟨_ | _, m, e, _⟩ <;>
    simp [orderKey, Float.Model.UnpackedFloat.isInf, Prod.Lex.toLex_lt_toLex]

/-- Two numbers that are not below one another have keys in the other order. -/
theorem le_of_not_lt {x y : Float} (hx : x.isNaN = false) (hy : y.isNaN = false)
    (h : ¬y < x) : x ≤ y := by
  obtain ⟨a, ha⟩ := exists_key_of_isNaN_eq_false hx
  obtain ⟨b, hb⟩ := exists_key_of_isNaN_eq_false hy
  exact (le_iff_of_key ha hb).mpr (key_le_of_not_lt ha hb h)

end Binary64

open Binary64

/-! ### Clamping into a range -/

/-- Of two numbers, `minOf` has the smaller key. -/
theorem key_minOf {x y : Float} {a b : Int ×ₗ Int ×ₗ Int} (hx : key x = some a)
    (hy : key y = some b) : key (minOf x y) = some (min a b) := by
  unfold minOf
  split
  · -- an argument at `-∞` gives `-∞`, which has the least key
    rename_i hinf
    rw [key_negInf]
    simp only [Bool.or_eq_true, isInf_and_lt_zero_iff, hx, hy, Option.some.injEq] at hinf
    rcases hinf with rfl | rfl
    · rw [min_eq_left (key_mem_infs hy).1]
    · rw [min_eq_right (key_mem_infs hx).1]
  · split
    · rename_i hnan
      simp only [Bool.or_eq_true, ← key_eq_none_iff, hx, hy, reduceCtorEq, or_self] at hnan
    · split
      · -- two zeros have one key, whichever the sign picks
        rename_i hzero
        simp only [Bool.and_eq_true, beq_iff_key, hx, hy, key_zero, Option.some.injEq] at hzero
        obtain ⟨⟨_, rfl, -⟩, ⟨_, rfl, hb⟩⟩ := hzero
        split <;> simp [hx, hy, hb]
      · split
        · rename_i hlt
          rw [hx, min_eq_left ((lt_iff_of_key hx hy).mp hlt).le]
        · rename_i hnlt
          rw [hy, min_eq_right (key_le_of_not_lt hy hx hnlt)]

/-- Of two numbers, `maxOf` has the larger key. -/
theorem key_maxOf {x y : Float} {a b : Int ×ₗ Int ×ₗ Int} (hx : key x = some a)
    (hy : key y = some b) : key (maxOf x y) = some (max a b) := by
  unfold maxOf
  split
  · -- an argument at `+∞` gives `+∞`, which has the greatest key
    rename_i hinf
    rw [key_posInf]
    simp only [Bool.or_eq_true, isInf_and_zero_lt_iff, hx, hy, Option.some.injEq] at hinf
    rcases hinf with rfl | rfl
    · rw [max_eq_left (key_mem_infs hy).2]
    · rw [max_eq_right (key_mem_infs hx).2]
  · split
    · rename_i hnan
      simp only [Bool.or_eq_true, ← key_eq_none_iff, hx, hy, reduceCtorEq, or_self] at hnan
    · split
      · rename_i hzero
        simp only [Bool.and_eq_true, beq_iff_key, hx, hy, key_zero, Option.some.injEq] at hzero
        obtain ⟨⟨_, rfl, -⟩, ⟨_, rfl, hb⟩⟩ := hzero
        split <;> simp [hx, hy, hb]
      · split
        · rename_i hlt
          rw [hx, max_eq_left ((lt_iff_of_key hy hx).mp hlt).le]
        · rename_i hnlt
          rw [hy, max_eq_right (key_le_of_not_lt hx hy hnlt)]

/-- **Clamping a number gives a value within the range**, when the range's bounds are in
order. -/
theorem Limit.contains_clamp {l : Limit} (hl : l.continuous = false → l.min ≤ l.max) {v : Float}
    (hv : v.isNaN = false) : l.contains (l.clamp v) = true := by
  unfold Limit.contains Limit.clamp
  cases hcont : l.continuous with
  | true => rfl
  | false =>
    obtain ⟨a, b, ha, hb, hab⟩ := (le_iff_key _ _).mp (hl hcont)
    obtain ⟨c, hc⟩ := exists_key_of_isNaN_eq_false hv
    -- the clamped value's key is `max a (min b c)`, between `a` and `b`
    have hclamp := key_maxOf ha (key_minOf hb hc)
    simp only [Bool.false_or, Bool.and_eq_true, decide_eq_true_eq, Bool.false_eq_true, if_false]
    exact ⟨(le_iff_of_key ha hclamp).mpr (le_max_left _ _),
      (le_iff_of_key hclamp hb).mpr (max_le hab (min_le_left _ _))⟩


/-! ### Chains reached by settings -/

namespace Chain

/-- The chains reached from `c₀` by settings of joint values that succeed; `checked` says that
every one of them was checked against the ranges. A setting that fails, an evaluation of a pose
and a copy leave a chain as it is, so they reach nothing new (`Reached.arm_setPositions` and
the lemmas after it). -/
inductive Reached (c₀ : Chain) : Bool → Chain → Prop
  | here : Reached c₀ true c₀
  | setPositions {checked : Bool} {c c' : Chain} {q : List Float} :
      Reached c₀ checked c → c.setPositions q = .ok c' → Reached c₀ checked c'
  | setUnchecked {checked : Bool} {c c' : Chain} {q : List Float} :
      Reached c₀ checked c → c.setUnchecked q = .ok c' → Reached c₀ false c'

section Operations

variable {c₀ c : Chain} {checked : Bool}

theorem Reached.arm_setPositions (h : Reached c₀ checked c) (q : List Float) :
    Reached c₀ checked (Arm.setPositions c q).1 := by
  show Reached c₀ checked (c.orKeep (c.setPositions q)).1
  cases hset : c.setPositions q with
  | ok c' => exact .setPositions h hset
  | error e => exact h

theorem Reached.arm_setUnchecked (h : Reached c₀ checked c) (q : List Float) :
    ∃ checked', Reached c₀ checked' (Arm.setUnchecked c q).1 := by
  show ∃ checked', Reached c₀ checked' (c.orKeep (c.setUnchecked q)).1
  cases hset : c.setUnchecked q with
  | ok c' => exact ⟨false, .setUnchecked h hset⟩
  | error e => exact ⟨checked, h⟩

theorem Reached.arm_transform (h : Reached c₀ checked c) (q : List Float) :
    Reached c₀ checked (Arm.transform c q).1 := h

theorem Reached.arm_clone (h : Reached c₀ checked c) : Reached c₀ checked (Arm.clone c) := h

end Operations

/-- What `make` checks and builds: at least one joint, the joints' checks, the axes normalized
and every joint at `clamp 0`. -/
theorem eq_of_make_eq_ok {name : String} {joints : List Joint} {ee : Vec3} {c₀ : Chain}
    (h : make name joints ee = .ok c₀) :
    let js := joints.map fun j => { j with axis := j.axis.normalize }
    joints ≠ [] ∧ checkJoints name 0 joints = .ok () ∧
      c₀ = ⟨name, js, ee, js.map fun j => j.limit.clamp 0⟩ := by
  simp only [make] at h
  split at h
  · cases h
  · rename_i hne
    cases hcheck : checkJoints name 0 joints with
    | error e => rw [hcheck] at h; cases h
    | ok u => rw [hcheck] at h; cases h; exact ⟨by simpa using hne, rfl, rfl⟩

/-- Every joint that passes the checks has an axis of norm other than zero and no bounded range
with `min > max`. -/
theorem checkJoints_ok {name : String} {i : Nat} {joints : List Joint}
    (h : checkJoints name i joints = .ok ()) :
    ∀ j ∈ joints, (j.axis.norm == 0) = false ∧
      (j.limit.continuous = false → ¬j.limit.min > j.limit.max) := by
  induction joints generalizing i with
  | nil => simp
  | cons j js ih =>
    simp only [checkJoints] at h
    split at h
    · cases h
    · split at h
      · cases h
      · rename_i hnorm hrange
        intro j' hj'
        rcases List.mem_cons.mp hj' with rfl | hj'
        · exact ⟨by simpa using hnorm, fun hc => by simpa [hc] using hrange⟩
        · exact ih h j' hj'

theorem length_of_setPositions_eq_ok {c c' : Chain} {q : List Float}
    (h : c.setPositions q = .ok c') : q.length = c.joints.length := by
  unfold setPositions at h
  cases hcheck : c.checkValues q true with
  | error e => rw [hcheck] at h; cases h
  | ok u =>
    rw [checkValues_eq] at hcheck
    split at hcheck
    · assumption
    · cases hcheck

/-- A setting that fails leaves the chain as it is; one that succeeds holds exactly the given
values. -/
theorem arm_setPositions_cases (c : Chain) (q : List Float) :
    ((Arm.setPositions c q).2 = .ok () ∧ (Arm.setPositions c q).1 = { c with positions := q }) ∨
      ∃ e, (Arm.setPositions c q).2 = .error e ∧ (Arm.setPositions c q).1 = c := by
  rw [arm_setPositions]
  cases hset : c.setPositions q with
  | ok c' => exact .inl ⟨rfl, eq_of_setPositions_eq_ok hset⟩
  | error e => exact .inr ⟨e, rfl, rfl⟩

theorem arm_setUnchecked_cases (c : Chain) (q : List Float) :
    ((Arm.setUnchecked c q).2 = .ok () ∧ (Arm.setUnchecked c q).1 = { c with positions := q }) ∨
      ∃ e, (Arm.setUnchecked c q).2 = .error e ∧ (Arm.setUnchecked c q).1 = c := by
  show ((c.orKeep (c.setUnchecked q)).2 = .ok () ∧
      (c.orKeep (c.setUnchecked q)).1 = { c with positions := q }) ∨
    ∃ e, (c.orKeep (c.setUnchecked q)).2 = .error e ∧ (c.orKeep (c.setUnchecked q)).1 = c
  rw [setUnchecked_eq]
  split
  · exact .inl ⟨rfl, rfl⟩
  · exact .inr ⟨_, rfl, rfl⟩

/-- Settings change only the joint values, and keep one value per joint. -/
theorem Reached.reconfigured {c₀ c : Chain} {checked : Bool} (h : Reached c₀ checked c)
    (h₀ : c₀.positions.length = c₀.joints.length) :
    c₀.Reconfigured c ∧ c.positions.length = c.joints.length := by
  induction h with
  | here => exact ⟨reconfigured_self c₀, h₀⟩
  | setPositions _ hset ih =>
    rw [eq_of_setPositions_eq_ok hset]
    exact ⟨ih.1.trans (reconfigured_with _ _), length_of_setPositions_eq_ok hset⟩
  | setUnchecked _ hset ih =>
    rw [setUnchecked_eq] at hset
    split at hset
    · cases hset
      exact ⟨ih.1.trans (reconfigured_with _ _), ‹_›⟩
    · cases hset

/-- While every setting is checked, every joint of a kind `P` holds a value within its range
when it did at the start: checked settings put every value within its range. -/
theorem Reached.contains {c₀ c : Chain} {checked : Bool} (h : Reached c₀ checked c)
    (hchecked : checked = true) (P : Limit → Prop)
    (h₀ : ∀ p ∈ c₀.limits.zip c₀.positions, P p.1 → p.1.contains p.2 = true) :
    ∀ p ∈ c.limits.zip c.positions, P p.1 → p.1.contains p.2 = true := by
  induction h with
  | here => exact h₀
  | setPositions _ hset _ =>
    rw [eq_of_setPositions_eq_ok hset]
    exact fun p hp _ => contains_of_setPositions hset p hp
  | setUnchecked => cases hchecked


/-- What a chain `c`, reached from the chain `c₀` that `make` built from `joints`, keeps;
`checked` says that every setting on the way was checked. -/
structure Keeps (joints : List Joint) (c₀ : Chain) (checked : Bool) (c : Chain) : Prop where
  /-- Only the joint values change; there is one per joint, of at least one joint. -/
  reconfigured : c₀.Reconfigured c
  length_positions : c.positions.length = c.joints.length
  joints_ne_nil : c.joints ≠ []
  /-- The joints are the given ones with their axes normalized. -/
  joints_eq : c.joints = joints.map fun j => { j with axis := j.axis.normalize }
  /-- A stored axis, where the given axis's squared norm is a normal double, has finite
  components and norm `1` up to rounding: its squared norm is within `2⁻⁴⁴` of `1`. -/
  axes : ∀ j ∈ joints, j.axis.norm2.isFinite = true → 2 ^ (-1022 : ℤ) ≤ toReal j.axis.norm2 →
    (∀ v ∈ j.axis.normalize.toList, v.isFinite = true) ∧
      |j.axis.normalize.normSq - 1| ≤ 2 ^ (-44 : ℤ)
  /-- No bounded range has `min > max`; one whose bounds are numbers has `min ≤ max`. -/
  ranges : ∀ l ∈ c.limits, l.continuous = false →
    ¬l.min > l.max ∧ (l.min.isNaN = false → l.max.isNaN = false → l.min ≤ l.max)
  /-- A setting that fails leaves the chain as it is; one that succeeds holds exactly the
  given values. -/
  setPositions : ∀ q,
    ((Arm.setPositions c q).2 = .ok () ∧ (Arm.setPositions c q).1 = { c with positions := q }) ∨
      ∃ e, (Arm.setPositions c q).2 = .error e ∧ (Arm.setPositions c q).1 = c
  setUnchecked : ∀ q,
    ((Arm.setUnchecked c q).2 = .ok () ∧ (Arm.setUnchecked c q).1 = { c with positions := q }) ∨
      ∃ e, (Arm.setUnchecked c q).2 = .error e ∧ (Arm.setUnchecked c q).1 = c
  /-- While every setting has been checked, every joint whose bounds are numbers holds a value
  within its range. -/
  contains : checked = true → ∀ p ∈ c.limits.zip c.positions,
    p.1.min.isNaN = false → p.1.max.isNaN = false → p.1.contains p.2 = true

/-- **A chain built by `make` keeps its representation** through every sequence of settings of
its joint values, as `Keeps` says. -/
theorem make_keeps {name : String} {joints : List Joint} {ee : Vec3} {c₀ : Chain}
    (h : make name joints ee = .ok c₀) {checked : Bool} {c : Chain} (hc : Reached c₀ checked c) :
    Keeps joints c₀ checked c := by
  obtain ⟨hne, hcheck, rfl⟩ := eq_of_make_eq_ok h
  have hjoints := checkJoints_ok hcheck
  obtain ⟨hre, hlen⟩ := hc.reconfigured (by simp)
  -- the joints, and so the ranges, are those `make` stored
  have hjc : c.joints = joints.map fun j => { j with axis := j.axis.normalize } := hre.joints_eq
  have hlimits : c.limits = joints.map (·.limit) := by simp [limits, hjc]
  refine ⟨hre, hlen, by simp [hjc, hne], hjc,
    fun j _ hfin hnormal => (Vec3.normalize_of_norm2_normal hfin hnormal).2.2, ?_,
    arm_setPositions_cases c, arm_setUnchecked_cases c, ?_⟩
  · intro l hl hbounded
    rw [hlimits] at hl
    obtain ⟨j, hj, rfl⟩ := List.mem_map.mp hl
    have hrange := (hjoints j hj).2 hbounded
    exact ⟨hrange, fun hmin hmax => Binary64.le_of_not_lt hmin hmax hrange⟩
  · intro hchecked p hp hmin hmax
    refine hc.contains hchecked (fun l => l.min.isNaN = false ∧ l.max.isNaN = false) ?_ p hp
      ⟨hmin, hmax⟩
    -- at the start every joint is at `clamp 0`, within a range whose bounds are in order
    intro p hp hP
    simp only [limits, List.zip_map', List.mem_map] at hp
    obtain ⟨j, ⟨j₀, hj₀, rfl⟩, rfl⟩ := hp
    exact Limit.contains_clamp (fun hb => Binary64.le_of_not_lt hP.1 hP.2 ((hjoints j₀ hj₀).2 hb))
      (by decide)

/-- An arm of one joint turning about `x` within `[-1, 1]`: `make` builds it, and it keeps its
representation. -/
theorem make_keeps_one_joint :
    let js : List Joint := [⟨"j", ⟨0, 0, 0⟩, ⟨1, 0, 0⟩, ⟨-1, 1, false⟩⟩]
    let c₀ : Chain := ⟨"arm", js.map fun j => { j with axis := j.axis.normalize }, ⟨0, 0, 0⟩,
      (js.map fun j => { j with axis := j.axis.normalize }).map fun j => j.limit.clamp 0⟩
    make "arm" js ⟨0, 0, 0⟩ = .ok c₀ ∧ Reached c₀ true c₀ ∧ Keeps js c₀ true c₀ := by
  intro js c₀
  -- the square root in the norm is evaluated by the kernel
  have hnorm : ((⟨1, 0, 0⟩ : Vec3).norm == 0) = false := by decide +kernel
  have hrange : ¬((-1 : Float) > 1) := by decide
  have hmake : make "arm" js ⟨0, 0, 0⟩ = .ok c₀ := by
    simp [make, checkJoints, js, c₀, hnorm, hrange]
    rfl
  exact ⟨hmake, .here, make_keeps hmake .here⟩

/-- An axis whose squared norm overflows passes the check, its norm being `+∞` and not zero, and
is stored as a vector of norm zero: a model joint about `(1e200, 0, 0)` within `±90°`. -/
theorem make_stores_null_axis_of_overflow :
    let js : List Joint :=
      [⟨"j", ⟨0, 0, 0⟩, ⟨1e200, 0, 0⟩, ⟨degToRad (-90), degToRad 90, false⟩⟩]
    ∃ c, make "m" js ⟨0, 0, 0⟩ = .ok c ∧ c.joints.map (fun j => j.axis.norm == 0) = [true] := by
  intro js
  -- the norms and the range are evaluated by the kernel
  have hnorm : ((⟨1e200, 0, 0⟩ : Vec3).norm == 0) = false := by decide +kernel
  have hrange : ¬(degToRad (-90) > degToRad 90) := by decide +kernel
  refine ⟨⟨"m", js.map fun j => { j with axis := j.axis.normalize }, ⟨0, 0, 0⟩,
    (js.map fun j => { j with axis := j.axis.normalize }).map fun j => j.limit.clamp 0⟩, ?_, ?_⟩
  · simp [make, checkJoints, js, hnorm, hrange]
    rfl
  · decide +kernel

end Chain

end ArmReach
