import ArmReach.Proofs.Numeric.Order
import ArmReach.Random.Source
/-!
# Redraws of a uniform number end

`Source.float` draws words until the uniform number of one (its low 63 bits as a double, over
`2 ^ 63`) is not `1`, and gives up after `maxRedraws` draws. It never gives up, so every number
it returns lies in `[0, 1)`, and is at most `1 - 2 ^ -53` (`float_bounds`).

Read from the feed, the words of a source are a shift register (`view`): a draw writes the sum
of the words 606 and 272 places up and moves the others one place later (`next_fst`,
`view_next_zero`, `view_next_succ`). So the drawn words follow the lagged Fibonacci recurrence
`x n = x (n - 607) + x (n - 273)` (`word_eq_add`). A word's number rounds to `1` only when its
low 63 bits are within `2 ^ 9` of `2 ^ 63` (`le_of_toUniform_beq_one`); there the distances to
`2 ^ 63` add up under the recurrence (`gap_add`), so in a run of such draws they double every
607 draws (`two_pow_le_gap`), and a run ends within `607 · 10 + 1` draws
(`exists_beq_one_eq_false`), inside the `607 · 11` redraws allowed.
-/

namespace ArmReach

namespace Random.Source

/-- The word `k` places above the feed, cyclically: the words in the order in which the
generator reads them back, the last one written first. -/
def view (s : Source) (k : ℕ) : UInt64 :=
  s.words.get ⟨(s.feed.val + k) % length, Nat.mod_lt _ (by decide)⟩

theorem view_eq_get (s : Source) {k : ℕ} {i : Fin length} (h : i.val = (s.feed.val + k) % length) :
    s.view k = s.words.get i := by
  unfold view
  congr 1
  exact Fin.ext h.symm

/-- A draw adds the words `606` and `272` places above the feed. -/
theorem next_fst (s : Source) : s.next.1 = s.view 606 + s.view 272 := by
  have ht := s.tap_eq
  have hf := s.feed.isLt
  unfold next
  dsimp only
  rw [view_eq_get s (i := down s.feed) (by simp only [down, length] at hf ⊢; omega),
    view_eq_get s (i := down s.tap) (by simp only [down, length, lag] at hf ht ⊢; omega)]

/-- After a draw, the word just written is read first. -/
theorem view_next_zero (s : Source) : s.next.2.view 0 = s.next.1 := by
  have h := (down s.feed).isLt
  unfold view next
  simp only [Vector.get_eq_getElem, Vector.getElem_set, Nat.add_zero, Nat.mod_eq_of_lt h,
    if_true]

/-- After a draw, the other words are read one place later. -/
theorem view_next_succ (s : Source) {k : ℕ} (hk : k < 606) :
    s.next.2.view (k + 1) = s.view k := by
  have hf : s.feed.val < 607 := s.feed.isLt
  -- one place down and `k + 1` up is `k` up, and not the place just written
  have hidx : ((down s.feed).val + (k + 1)) % length = (s.feed.val + k) % length := by
    show ((s.feed.val + 607 - 1) % 607 + (k + 1)) % 607 = (s.feed.val + k) % 607
    omega
  have hne : (down s.feed).val ≠ ((down s.feed).val + (k + 1)) % length := by
    show (s.feed.val + 607 - 1) % 607 ≠ ((s.feed.val + 607 - 1) % 607 + (k + 1)) % 607
    omega
  unfold view next
  dsimp only
  rw [Vector.get_eq_getElem, Vector.get_eq_getElem, Vector.getElem_set]
  dsimp only
  rw [if_neg hne]
  congr 1

/-- The source after `n` draws. -/
def after (s : Source) : ℕ → Source
  | 0 => s
  | n + 1 => (s.after n).next.2

/-- The `n`-th word drawn from `s`, counted from `0`. -/
def word (s : Source) (n : ℕ) : UInt64 := (s.after n).next.1

theorem after_next (s : Source) (n : ℕ) : s.next.2.after n = s.after (n + 1) := by
  induction n with
  | zero => rfl
  | succ n ih => simp only [after, ih]

theorem word_next (s : Source) (n : ℕ) : s.next.2.word n = s.word (n + 1) := by
  simp only [word, after_next]

/-- After `n` draws the last `607` words drawn are read back, the last one first. -/
theorem view_after (s : Source) {n k : ℕ} (hk : k < 607) (hkn : k < n) :
    (s.after n).view k = s.word (n - 1 - k) := by
  induction n generalizing k with
  | zero => omega
  | succ n ih =>
    cases k with
    | zero => simp only [after, view_next_zero, word, Nat.add_sub_cancel, Nat.sub_zero]
    | succ k =>
      rw [after, view_next_succ _ (by omega), ih (by omega) (by omega)]
      congr 1
      omega

/-- **The drawn words follow the lagged Fibonacci recurrence**: from the 607th on, each word is
the sum of the words drawn `607` and `273` draws before it. -/
theorem word_eq_add (s : Source) {n : ℕ} (hn : 607 ≤ n) :
    s.word n = s.word (n - 607) + s.word (n - 273) := by
  have h606 := view_after s (n := n) (k := 606) (by omega) (by omega)
  have h272 := view_after s (n := n) (k := 272) (by omega) (by omega)
  rw [word, next_fst, h606, h272, show n - 1 - 606 = n - 607 by omega,
    show n - 1 - 272 = n - 273 by omega]

/-! ### Uniform numbers -/

open Binary64

/-- A word converts to the double nearest to its value. -/
theorem toFloat_roundsTo {w : UInt64} {n : ℕ} (h : w.toNat = n) : RoundsTo n w.toFloat := by
  subst h
  obtain ⟨hc, hval⟩ := normalize_spec (w.toNat : ℤ) 0 .positive
  have hval' : unpackedValue (Float.Model.UnpackedFloat.normalize .binary64 (w.toNat : ℤ) 0
      .positive) = round w.toNat := by
    rw [hval, zpow_zero, mul_one, Int.cast_natCast]
  exact roundsTo_pack hc hval'

/-- The low 63 bits of a word. -/
theorem toNat_and_low (w : UInt64) : (w &&& 0x7fffffffffffffff).toNat = w.toNat % 2 ^ 63 := by
  rw [UInt64.toNat_and, show (0x7fffffffffffffff : UInt64).toNat = 2 ^ 63 - 1 from rfl,
    Nat.and_two_pow_sub_one_eq_mod]

theorem toReal_two_pow_63 :
    (9223372036854775808.0 : Float).isFinite = true ∧
      toReal (9223372036854775808.0 : Float) = 2 ^ 63 := by
  have hu : (9223372036854775808.0 : Float).toModel.unpack =
      .finite .positive (2 ^ 52) 11 (by decide) := rfl
  obtain ⟨hf, hv⟩ := toReal_of_unpack hu
  refine ⟨hf, ?_⟩
  rw [hv, signValue_positive, one_mul]
  norm_num

/-- A natural below `2 ^ 63` and more than `2 ^ 9` below it converts to at most the double
`2 ^ 63 - 2 ^ 10` before `2 ^ 63`. -/
theorem toReal_toFloat_le {n : ℕ} {a : Float} (ha : RoundsTo n a) (haf : a.isFinite = true)
    (hn : n + 512 < 2 ^ 63) : toReal a ≤ 2 ^ 63 - 2 ^ 10 := by
  rw [ha.toReal_eq haf]
  have hnr : (n : ℝ) + 512 < 2 ^ 63 := by exact_mod_cast hn
  -- within half a last place of `n`, which is at most `2 ^ 10` below `2 ^ 63`
  have hnear : Binary64.round (n : ℝ) < 2 ^ 63 := by
    rcases Nat.eq_zero_or_pos n with rfl | hpos
    · simp
    have hq : quantumExp (n : ℝ) ≤ 10 := by
      refine quantumExp_le_of_abs_lt (by positivity) (by norm_num) ?_
      rw [abs_of_nonneg (by positivity)]
      norm_num
      linarith
    have herr := abs_round_sub_le (n : ℝ)
    have hhalf : (2 : ℝ) ^ quantumExp (n : ℝ) / 2 ≤ 512 := by
      have := zpow_le_zpow_right₀ (by norm_num : (1 : ℝ) ≤ 2) hq
      norm_num at this ⊢
      linarith
    linarith [(abs_le.mp herr).2]
  have hrep : Representable (Binary64.round (n : ℝ)) := by
    rw [← ha.toReal_eq haf]
    exact representable_toReal haf
  have h := hrep.le_sub_of_lt (k := 2 ^ 53) (e := 10) (by norm_num) (by push_cast; norm_num; linarith)
  norm_num at h ⊢
  exact h

/-- **A word's uniform number lies in `[0, 1]`**, and at most `1 - 2 ^ -53` unless the low 63
bits of the word are within `2 ^ 9` of `2 ^ 63`. -/
theorem toUniform_bounds (w : UInt64) :
    (toUniform w).isFinite = true ∧ 0 ≤ toReal (toUniform w) ∧ toReal (toUniform w) ≤ 1 ∧
      (w.toNat % 2 ^ 63 + 512 < 2 ^ 63 → toReal (toUniform w) ≤ 1 - 2 ^ (-53 : ℤ)) := by
  unfold toUniform
  have h0 : Representable 0 := ⟨0, 0, by norm_num, by norm_num, by simp⟩
  have ha : RoundsTo ((w.toNat % 2 ^ 63 : ℕ) : ℝ) (w &&& 0x7fffffffffffffff).toFloat :=
    toFloat_roundsTo (toNat_and_low w)
  have hn : w.toNat % 2 ^ 63 < 2 ^ 63 := Nat.mod_lt _ (by norm_num)
  -- the low bits convert to a double in `[0, 2 ^ 63]`
  obtain ⟨haf, ha0, ha1⟩ := ha.between h0 (representable_two_pow 63) (by norm_num)
    (lt_two_pow_1024 (by norm_num)) (Nat.cast_nonneg _) (by exact_mod_cast hn.le)
  -- dividing by `2 ^ 63` gives a value in `[0, 1]`, which rounds into `[0, 1]`
  obtain ⟨hcf, hcv⟩ := toReal_two_pow_63
  have hq := div_roundsTo haf hcf (by rw [hcv]; positivity)
  rw [hcv] at hq
  have hpow : (0 : ℝ) < 2 ^ 63 := by positivity
  obtain ⟨hf, hf0, hf1⟩ := hq.between h0 (representable_two_pow 0) (by norm_num)
    (by rw [pow_zero, abs_one]; exact lt_two_pow_1024 (by norm_num))
    (div_nonneg ha0 hpow.le) (by rw [pow_zero, div_le_one hpow]; exact ha1)
  rw [pow_zero] at hf1
  refine ⟨hf, hf0, hf1, fun hgap => ?_⟩
  -- the double before `2 ^ 63`, divided by `2 ^ 63`, is the double before `1`
  have hle := toReal_toFloat_le ha haf hgap
  have hrep : Representable (1 - 2 ^ (-53 : ℤ)) :=
    ⟨2 ^ 53 - 1, -53, by norm_num, by norm_num, by norm_num⟩
  have hdiv : toReal (w &&& 0x7fffffffffffffff).toFloat / 2 ^ 63 ≤ 1 - 2 ^ (-53 : ℤ) := by
    rw [div_le_iff₀ hpow]
    norm_num at hle ⊢
    linarith
  rw [hq.toReal_eq hf]
  exact round_le_of_le hrep hdiv

/-- A word whose uniform number tests equal to `1` has its low 63 bits within `2 ^ 9` of
`2 ^ 63`. -/
theorem le_of_toUniform_beq_one {w : UInt64} (h : (toUniform w == 1) = true) :
    2 ^ 63 ≤ w.toNat % 2 ^ 63 + 512 := by
  obtain ⟨hf, -, -, hlt⟩ := toUniform_bounds w
  by_contra hc
  have h1 : toReal (toUniform w) = 1 := by
    rw [← toReal_one.2]
    exact (beq_iff_toReal_eq hf toReal_one.1).mp h
  have := hlt (by omega)
  linarith [two_zpow_pos (-53 : ℤ)]

/-- A uniform number that does not test equal to `1` is at most `1 - 2 ^ -53`: the doubles
below `1` stop there. -/
theorem toUniform_le_of_beq_one_eq_false {w : UInt64} (h : (toUniform w == 1) = false) :
    toReal (toUniform w) ≤ 1 - 2 ^ (-53 : ℤ) := by
  obtain ⟨hf, -, h1, -⟩ := toUniform_bounds w
  have hne : toReal (toUniform w) ≠ 1 := fun he => by
    rw [← toReal_one.2, ← beq_iff_toReal_eq hf toReal_one.1, h] at he
    cases he
  have hlt := (representable_toReal hf).le_sub_of_lt (k := 2 ^ 53) (e := -53) (by norm_num)
    (by norm_num; exact lt_of_le_of_ne h1 hne)
  norm_num at hlt ⊢
  linarith

/-! ### Runs of draws that round to one -/

/-- How far the low 63 bits of a word are below `2 ^ 63`. -/
def gap (w : UInt64) : ℕ := 2 ^ 63 - w.toNat % 2 ^ 63

/-- Near `2 ^ 63`, the gaps of two words add up in their sum. -/
theorem gap_add {x y : UInt64} (hx : gap x ≤ 512) (hy : gap y ≤ 512) :
    gap (x + y) = gap x + gap y := by
  have hsum : (x + y).toNat % 2 ^ 63 = (x.toNat % 2 ^ 63 + y.toNat % 2 ^ 63) % 2 ^ 63 := by
    rw [UInt64.toNat_add, Nat.mod_mod_of_dvd _ (by norm_num : 2 ^ 63 ∣ 2 ^ 64), Nat.add_mod]
  have h1 := Nat.mod_lt x.toNat (show 0 < 2 ^ 63 by norm_num)
  have h2 := Nat.mod_lt y.toNat (show 0 < 2 ^ 63 by norm_num)
  unfold gap at *
  rw [hsum]
  omega

/-- In a run of draws that all test equal to `1`, the gaps at least double every 607 draws. -/
theorem two_pow_le_gap (s : Source) {N : ℕ}
    (hrun : ∀ i < N, (toUniform (s.word i) == 1) = true) :
    ∀ i < N, 2 ^ (i / 607) ≤ gap (s.word i) := by
  have hsmall : ∀ i < N, gap (s.word i) ≤ 512 := fun i hi => by
    have := le_of_toUniform_beq_one (hrun i hi)
    unfold gap
    omega
  intro i
  induction i using Nat.strong_induction_on with
  | _ i ih =>
    intro hi
    rcases Nat.lt_or_ge i 607 with h | h
    · have := Nat.mod_lt (s.word i).toNat (show 0 < 2 ^ 63 by norm_num)
      rw [Nat.div_eq_of_lt h, pow_zero]
      unfold gap
      omega
    · -- the recurrence adds the gaps of the words `607` and `273` draws back
      rw [word_eq_add s h, gap_add (hsmall _ (by omega)) (hsmall _ (by omega))]
      have h1 := ih (i - 607) (by omega) (by omega)
      have h2 := ih (i - 273) (by omega) (by omega)
      have hmono : 2 ^ ((i - 607) / 607) ≤ 2 ^ ((i - 273) / 607) :=
        Nat.pow_le_pow_right (by norm_num) (by omega)
      rw [show i / 607 = (i - 607) / 607 + 1 by omega, pow_succ]
      omega

/-- **A run of draws that test equal to `1` is shorter than `607 · 10 + 1` draws**: its gaps are
at most `2 ^ 9`, and they double every 607 draws. -/
theorem exists_beq_one_eq_false (s : Source) :
    ∃ i < 6071, (toUniform (s.word i) == 1) = false := by
  by_contra hcon
  have hrun : ∀ i < 6071, (toUniform (s.word i) == 1) = true := fun i hi => by
    cases h : (toUniform (s.word i) == 1)
    · exact absurd ⟨i, hi, h⟩ hcon
    · rfl
  have hlast := two_pow_le_gap s hrun 6070 (by norm_num)
  have := le_of_toUniform_beq_one (hrun 6070 (by norm_num))
  unfold gap at hlast
  norm_num at hlast
  omega

/-- What `floatFuel` returns: the uniform number of the first word drawn that does not test
equal to `1`, if it comes within the fuel, and of the last word drawn otherwise. -/
theorem floatFuel_eq (fuel : ℕ) (s : Source) :
    ∃ i ≤ fuel, (floatFuel fuel s).1 = toUniform (s.word i) ∧
      (∀ j < i, (toUniform (s.word j) == 1) = true) ∧
      (i < fuel → (toUniform (s.word i) == 1) = false) := by
  induction fuel generalizing s with
  | zero => exact ⟨0, le_rfl, rfl, fun j hj => absurd hj (Nat.not_lt_zero j), fun h => absurd h (Nat.lt_irrefl 0)⟩
  | succ fuel ih =>
    unfold floatFuel
    dsimp only
    by_cases h1 : (toUniform s.next.1 == 1) = true
    · -- redrawn: the rest is a run of the source after the first draw
      rw [if_pos h1]
      obtain ⟨i, hi, heq, hrun, hlast⟩ := ih s.next.2
      refine ⟨i + 1, by omega, by rw [heq, word_next], fun j hj => ?_,
        fun hlt => by rw [← word_next]; exact hlast (by omega)⟩
      cases j with
      | zero => exact h1
      | succ j =>
        rw [← word_next]
        exact hrun j (by omega)
    · rw [if_neg h1]
      exact ⟨0, by omega, rfl, fun j hj => absurd hj (Nat.not_lt_zero j), fun _ => Bool.eq_false_iff.mpr h1⟩

/-- **Every uniform number the source draws lies in `[0, 1)`**, and at most `1 - 2 ^ -53`: the
redraws would run out only after a run of draws that test equal to `1` longer than any run
can be. -/
theorem float_bounds (s : Source) :
    s.float.1.isFinite = true ∧ 0 ≤ toReal s.float.1 ∧ toReal s.float.1 ≤ 1 - 2 ^ (-53 : ℤ) := by
  obtain ⟨i, -, heq, hrun, hlast⟩ := floatFuel_eq maxRedraws s
  have hi : i < maxRedraws := by
    by_contra hge
    obtain ⟨j, hj, hfalse⟩ := exists_beq_one_eq_false s
    have := hrun j (by unfold maxRedraws length at hge; omega)
    rw [hfalse] at this
    cases this
  obtain ⟨hf, h0, -, -⟩ := toUniform_bounds (s.word i)
  unfold float
  rw [heq]
  exact ⟨hf, h0, toUniform_le_of_beq_one_eq_false (hlast hi)⟩

end Random.Source

end ArmReach
