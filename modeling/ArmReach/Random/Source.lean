import ArmReach.Random.Scramble
/-!
# An additive lagged Fibonacci generator

`Random.Source` holds 607 words and two positions; each draw moves both positions down by
one (cyclically) and replaces the word at `feed` by the sum, mod `2 ^ 64`, of the words at
`feed` and `tap`, which stay 273 apart. Seeding fills the words from a Lehmer generator
(`x ↦ 48271 x mod (2 ^ 31 - 1)`) and XORs in `seedScramble`.

`Source.float` draws a double in `[0, 1)`: the low 63 bits of a word, rounded to a double and
divided by `2 ^ 63`; a draw that rounds up to `1` is drawn again.
-/

-- Powers of naturals and integers are core's `Nat.pow` and `Int.pow`, also where Mathlib's
-- monoid power is in scope.
attribute [local instance (high)] instPowNat

namespace ArmReach

namespace Random

/-- The number of words. -/
def length : Nat := 607

/-- The distance between feed and tap. -/
def lag : Nat := 273

/-- The Lehmer step `x ↦ 48271 x mod (2 ^ 31 - 1)` on `[1, 2 ^ 31 - 2]`. -/
def lehmer (x : Nat) : Nat := 48271 * x % 2147483647

/-- The generator state: 607 words, and the tap and feed positions. The tap stays `lag` places
above the feed, cyclically. -/
structure Source where
  words : Vector UInt64 length
  tap : Fin length
  feed : Fin length
  tap_eq : tap.val = (feed.val + lag) % length

/-- A position one place down, cyclically. -/
def down (i : Fin length) : Fin length := ⟨(i.val + length - 1) % length, Nat.mod_lt _ (by decide)⟩

/-- `n` words of the seeding from the Lehmer state `x`: each is made of three Lehmer steps, the
first shifted up by 40 bits and the second by 20. -/
def seedWords : Nat → Nat → List UInt64
  | 0, _ => []
  | n + 1, x =>
    let x₁ := lehmer x
    let x₂ := lehmer x₁
    let x₃ := lehmer x₂
    ((x₁ <<< 40 ^^^ x₂ <<< 20 ^^^ x₃) % 2 ^ (64 : Nat)).toUInt64 :: seedWords n x₃

namespace Source

/-- The seeded generator. The seed is reduced modulo `2 ^ 31 - 1` into `[0, 2 ^ 31 - 2]`
(truncated remainder, then moved up when negative); zero is replaced by 89482311. After 20
Lehmer steps the words are drawn and XORed with `seedScramble`. -/
def seeded (seed : Int) : Source :=
  let m : Int := 2147483647
  let r := seed.tmod m
  let r := if r < 0 then r + m else r
  let x : Nat := if r = 0 then 89482311 else r.toNat
  let us := (seedWords length (Nat.repeat lehmer 20 x)).toArray
  { words := Vector.ofFn fun i => us.getD i 0 ^^^ seedScramble.getD i 0
    tap := ⟨0, by decide⟩
    feed := ⟨length - lag, by decide⟩
    tap_eq := by decide }

instance : Inhabited Source := ⟨seeded 1⟩

/-- The next word: both positions move one place down, and the word at the feed becomes the
sum, mod `2 ^ 64`, of the words at the feed and the tap. -/
def next (s : Source) : UInt64 × Source :=
  let tap := down s.tap
  let feed := down s.feed
  let x := s.words.get feed + s.words.get tap
  (x, ⟨s.words.set feed.val x feed.isLt, tap, feed, by
    have h := s.tap_eq
    have hf := s.feed.isLt
    simp only [tap, feed, down, length, lag] at h hf ⊢
    omega⟩)

/-- The uniform number of a word: its low 63 bits, rounded to a double, over `2 ^ 63`. -/
def toUniform (w : UInt64) : Float := (w &&& 0x7fffffffffffffff).toFloat / 9223372036854775808.0

/-- A double in `[0, 1)`; at most `fuel` redraws. -/
def floatFuel : Nat → Source → Float × Source
  | fuel, s =>
    let (w, s) := s.next
    let f := toUniform w
    match fuel with
    | 0 => (f, s)
    | fuel + 1 => if f == 1 then floatFuel fuel s else (f, s)

/-- The redraws allowed: a run of draws that round to `1` ends within `607 · 11` draws, as the
words of such a run only move away from `2 ^ 63`, so the bound is never reached. -/
def maxRedraws : Nat := length * 11

/-- A double in `[0, 1)`, drawn again while it rounds to `1`. -/
def float (s : Source) : Float × Source := floatFuel maxRedraws s

end Source

end Random

end ArmReach
