/-!
# Regular expressions: reading the syntax

The registry tests logger names with regular expressions in RE2 syntax, read with Perl's
extensions as the standard library's `regexp.Compile` reads them. This module reads such an
expression into a tree (`Node`); what a tree matches is in `ArmReach.Regex.Search`.

* The reader is one loop (`Parser.run`) over the text, with a stack of the groups still open,
  each step reading one operator, atom or escape (`Parser.step`): literals, `.`, `^`, `$`,
  classes `[...]` with ranges, POSIX names `[:alpha:]` and Perl classes `\d \s \w`, the
  repetitions `* + ?` and `{n} {n,} {n,m}` (with a lazy `?` after any of them), groups `( )`,
  `(?: )`, named groups `(?P<name> )` and `(?<name> )`, the flags `i m s U` in `(?flags)` and
  `(?flags: )`, alternation `|`, the assertions `\A \z \b \B` and the escapes `\Q...\E`,
  `\a \f \t \n \r \v`, octal `\123`, `\x41` and `\x{10FFFF}`.
* Where RE2 refuses an expression the reader gives none: a repetition with nothing to repeat
  or of a repetition, counts above 1000 (alone or nested), an unclosed or unopened group or
  class, an unknown escape, class name or flag, a backwards range, a bad group name.
* Case folding relates the characters of ASCII to their other cases (`foldOrbit`). Unicode
  classes `\p{…}` are refused, since their tables are not part of the model, and the limits on
  nesting depth and program size, which only very long expressions reach, are not checked.
-/

namespace ArmReach

namespace Regex

/-! ### Characters -/

/-- Whether a character is an ASCII letter or digit. -/
def isAsciiAlnum (c : Char) : Bool :=
  ('a' ≤ c && c ≤ 'z') || ('A' ≤ c && c ≤ 'Z') || ('0' ≤ c && c ≤ '9')

/-- Whether a character is a word character for `\b` and `\w`: an ASCII letter or digit, or
`_`. -/
def isWordChar (c : Char) : Bool := isAsciiAlnum c || c == '_'

/-- The code points equal to `c` up to case: each ASCII letter with its other case, the
Kelvin sign with `K` and `k`, and the long `s` with `S` and `s`. -/
def foldOrbit (c : Nat) : List Nat :=
  if c = 0x4B ∨ c = 0x6B ∨ c = 0x212A then [0x4B, 0x6B, 0x212A]
  else if c = 0x53 ∨ c = 0x73 ∨ c = 0x17F then [0x53, 0x73, 0x17F]
  else if 0x41 ≤ c ∧ c ≤ 0x5A then [c, c + 32]
  else if 0x61 ≤ c ∧ c ≤ 0x7A then [c - 32, c]
  else [c]

/-- The code points a character stands for: itself, or with case folding its whole orbit. -/
def caseVariants (fold : Bool) (c : Nat) : List Nat := if fold then foldOrbit c else [c]

/-! ### Trees -/

/-- The flags that change what an expression means. -/
structure Flags where
  /-- `i`: letters match in either case. -/
  foldCase : Bool
  /-- `m`: `^` and `$` also match next to a line break. -/
  multiLine : Bool
  /-- `s`: `.` also matches a line break. -/
  dotNL : Bool
  deriving DecidableEq, Repr

/-- The flags an expression starts with. -/
def Flags.perl : Flags := ⟨false, false, false⟩

/-- The assertions, which match the empty text at the places where they hold. -/
inductive Assertion where
  /-- `^` or `\A`: the beginning of the text. -/
  | beginText
  /-- `$` or `\z`: the end of the text. -/
  | endText
  /-- `^` under `m`: the beginning of the text or of a line. -/
  | beginLine
  /-- `$` under `m`: the end of the text or of a line. -/
  | endLine
  /-- `\b`: between a word character and something else. -/
  | wordBoundary
  /-- `\B`: not between a word character and something else. -/
  | noWordBoundary
  deriving DecidableEq, Repr

/-- An item of a character class. -/
inductive ClassItem where
  /-- The code points from `lo` to `hi`. -/
  | range (lo hi : Nat)
  /-- A named ASCII class, as runs of code points; negated, the code points outside it. -/
  | named (runs : List (Nat × Nat)) (negated : Bool)
  deriving DecidableEq, Repr

/-- The characters one position of an expression reads. -/
inductive CharSet where
  /-- A literal, with case folding any character of its orbit. -/
  | lit (c : Nat) (fold : Bool)
  /-- `.`: any character, a line break only under `s`. -/
  | any (nl : Bool)
  /-- A class: the characters of some item, or of none when negated. -/
  | cls (items : List ClassItem) (negated : Bool) (fold : Bool)
  deriving DecidableEq, Repr

/-- A regular expression. Groups only group: what they capture does not change whether an
expression matches. -/
inductive Node where
  /-- Matches nothing. -/
  | noMatch
  /-- Matches the empty text. -/
  | empty
  /-- One character of a set. -/
  | chars (s : CharSet)
  /-- The empty text where an assertion holds. -/
  | assert (a : Assertion)
  /-- `r` then `s`. -/
  | cat (r s : Node)
  /-- `r` or `s`. -/
  | alt (r s : Node)
  /-- From `min` to `max` copies of `r` (`max` none: no bound); `*` is `rep r 0 none`, `+` is
  `rep r 1 none` and `?` is `rep r 0 (some 1)`. -/
  | rep (r : Node) (min : Nat) (max : Option Nat)
  deriving DecidableEq, Repr

/-- The concatenation of a list of expressions; the empty one matches the empty text. -/
def concatOf : List Node → Node
  | [] => .empty
  | [r] => r
  | r :: rs => .cat r (concatOf rs)

/-- The alternation of a list of expressions. -/
def altOf : List Node → Node
  | [] => .noMatch
  | [r] => r
  | r :: rs => .alt r (altOf rs)

/-- Whether the counted repetitions nested in `r` ask for at most `n` copies of what they
repeat: RE2 refuses an expression such as `(a{100}){20}`, whose 2000 copies are over 1000. -/
def Node.repeatIsValid (n : Nat) : Node → Bool
  | .rep r min max =>
    match max with
    | some 0 => true
    | _ =>
      -- the greatest count, or the least for an unbounded repetition
      let m := max.getD min
      if n < m then false else r.repeatIsValid (if 0 < m then n / m else n)
  | .cat r s | .alt r s => r.repeatIsValid n && s.repeatIsValid n
  | _ => true

/-! ### Classes -/

/-- The classes `\d`, `\s`, `\w` and their negations `\D`, `\S`, `\W`. -/
def perlClass : Char → Option ClassItem
  | 'd' => some (.named [(0x30, 0x39)] false)
  | 'D' => some (.named [(0x30, 0x39)] true)
  | 's' => some (.named [(0x09, 0x0A), (0x0C, 0x0D), (0x20, 0x20)] false)
  | 'S' => some (.named [(0x09, 0x0A), (0x0C, 0x0D), (0x20, 0x20)] true)
  | 'w' => some (.named [(0x30, 0x39), (0x41, 0x5A), (0x5F, 0x5F), (0x61, 0x7A)] false)
  | 'W' => some (.named [(0x30, 0x39), (0x41, 0x5A), (0x5F, 0x5F), (0x61, 0x7A)] true)
  | _ => none

/-- The runs of code points of a POSIX class name. -/
def posixRuns : List Char → Option (List (Nat × Nat))
  | ['a', 'l', 'n', 'u', 'm'] => some [(0x30, 0x39), (0x41, 0x5A), (0x61, 0x7A)]
  | ['a', 'l', 'p', 'h', 'a'] => some [(0x41, 0x5A), (0x61, 0x7A)]
  | ['a', 's', 'c', 'i', 'i'] => some [(0x00, 0x7F)]
  | ['b', 'l', 'a', 'n', 'k'] => some [(0x09, 0x09), (0x20, 0x20)]
  | ['c', 'n', 't', 'r', 'l'] => some [(0x00, 0x1F), (0x7F, 0x7F)]
  | ['d', 'i', 'g', 'i', 't'] => some [(0x30, 0x39)]
  | ['g', 'r', 'a', 'p', 'h'] => some [(0x21, 0x7E)]
  | ['l', 'o', 'w', 'e', 'r'] => some [(0x61, 0x7A)]
  | ['p', 'r', 'i', 'n', 't'] => some [(0x20, 0x7E)]
  | ['p', 'u', 'n', 'c', 't'] => some [(0x21, 0x2F), (0x3A, 0x40), (0x5B, 0x60), (0x7B, 0x7E)]
  | ['s', 'p', 'a', 'c', 'e'] => some [(0x09, 0x0D), (0x20, 0x20)]
  | ['u', 'p', 'p', 'e', 'r'] => some [(0x41, 0x5A)]
  | ['w', 'o', 'r', 'd'] => some [(0x30, 0x39), (0x41, 0x5A), (0x5F, 0x5F), (0x61, 0x7A)]
  | ['x', 'd', 'i', 'g', 'i', 't'] => some [(0x30, 0x39), (0x41, 0x46), (0x61, 0x66)]
  | _ => none

/-- The class of a POSIX name such as `alpha`, or `^alpha` for its negation. -/
def posixClass : List Char → Option ClassItem
  | '^' :: name => (posixRuns name).map (.named · true)
  | name => (posixRuns name).map (.named · false)

/-! ### Reading pieces of text -/

/-- Whether a character is an octal digit. -/
def isOctal (c : Char) : Bool := '0' ≤ c && c ≤ '7'

/-- The value of a hexadecimal digit. -/
def unhex (c : Char) : Option Nat :=
  if '0' ≤ c ∧ c ≤ '9' then some (c.toNat - 48)
  else if 'a' ≤ c ∧ c ≤ 'f' then some (c.toNat - 87)
  else if 'A' ≤ c ∧ c ≤ 'F' then some (c.toNat - 55)
  else none

/-- Reads up to `n` more octal digits after the value `acc`. -/
def octalDigits (acc : Nat) : Nat → List Char → Nat × List Char
  | 0, t => (acc, t)
  | _ + 1, [] => (acc, [])
  | n + 1, c :: t => if isOctal c then octalDigits (8 * acc + (c.toNat - 48)) n t else (acc, c :: t)

/-- Reads the hexadecimal digits of `\x{…}` up to the closing brace: at least one, and a value
that is a code point. `acc` is the value so far and `n` the count of digits. -/
def hexDigits (acc n : Nat) : List Char → Option (Nat × List Char)
  | [] => none
  | c :: t =>
    if c = '\x7d' then (if n = 0 then none else some (acc, t))
    else match unhex c with
      | none => none
      | some v => if 0x10FFFF < 16 * acc + v then none else hexDigits (16 * acc + v) (n + 1) t

/-- Reads an escape after its backslash: the code point it stands for and what follows. -/
def parseEscape : List Char → Option (Nat × List Char)
  | [] => none
  | c :: t =>
    -- ASCII punctuation stands for itself
    if c.toNat < 128 && !isAsciiAlnum c then some (c.toNat, t)
    -- a lone digit other than `0` would be a back reference
    else if c == '0' || ('1' ≤ c && c ≤ '7' && t.head?.any isOctal) then
      some (octalDigits (c.toNat - 48) 2 t)
    else if c = 'x' then
      match t with
      | '\x7b' :: u => hexDigits 0 0 u
      | d :: e :: u =>
        match unhex d, unhex e with
        | some x, some y => some (16 * x + y, u)
        | _, _ => none
      | _ => none
    else match c with
      | 'a' => some (7, t)
      | 'f' => some (12, t)
      | 'n' => some (10, t)
      | 'r' => some (13, t)
      | 't' => some (9, t)
      | 'v' => some (11, t)
      | _ => none

/-- The decimal digits at the front of a text. -/
def isDigit (c : Char) : Bool := '0' ≤ c && c ≤ '9'

/-- Reads a decimal count: digits, with no leading zero. -/
def parseCount : List Char → Option (Nat × List Char)
  | [] => none
  | c :: t =>
    if !isDigit c || (c == '0' && t.head?.any isDigit) then none
    else
      some ((c :: t.takeWhile isDigit).foldl (fun n d => 10 * n + (d.toNat - 48)) 0,
        t.dropWhile isDigit)

/-- Reads the counts of `{n}`, `{n,}` or `{n,m}` after the opening brace: the least and, if
any, the greatest count, and what follows the closing brace. -/
def parseRepeat (t : List Char) : Option ((Nat × Option Nat) × List Char) :=
  match parseCount t with
  | none => none
  | some (min, u) =>
    match u with
    | '\x7d' :: rest => some ((min, some min), rest)
    | ',' :: '\x7d' :: rest => some ((min, none), rest)
    | ',' :: v =>
      match parseCount v with
      | some (max, '\x7d' :: rest) => some ((min, some max), rest)
      | _ => none
    | _ => none

/-- The text before the first `c`, and what follows that `c`. -/
def splitAtFirst (c : Char) : List Char → Option (List Char × List Char)
  | [] => none
  | d :: t => if d = c then some ([], t) else (splitAtFirst c t).map fun (a, b) => (d :: a, b)

/-- The text before the first `:]`, and what follows it. -/
def untilColonBracket : List Char → Option (List Char × List Char)
  | [] => none
  | [_] => none
  | c :: d :: t =>
    if c = ':' ∧ d = ']' then some ([], t)
    else (untilColonBracket (d :: t)).map fun (a, b) => (c :: a, b)

/-- The text before the first `\E`, and what follows that `\E` (nothing when there is none). -/
def untilQuoteEnd : List Char → List Char × List Char
  | [] => ([], [])
  | [c] => ([c], [])
  | c :: d :: t =>
    if c = '\\' ∧ d = 'E' then ([], t)
    else let (a, b) := untilQuoteEnd (d :: t); (c :: a, b)

/-- Whether a text is the name of a named group: ASCII letters, digits and `_`, at least one. -/
def isGroupName (name : List Char) : Bool :=
  !name.isEmpty && name.all fun c => isAsciiAlnum c || c == '_'

/-- Reads the flags of `(?flags)` or `(?flags:` after the `(?`: the flags, whether a group
opens, and what follows. `negate` says a `-` was read, after which a flag clears; `sawFlag`
that a flag was read since. `U` only makes repetitions lazy, which changes no match. -/
def parseFlags (flags : Flags) (negate sawFlag : Bool) : List Char → Option (Flags × Bool × List Char)
  | 'i' :: t => parseFlags { flags with foldCase := !negate } negate true t
  | 'm' :: t => parseFlags { flags with multiLine := !negate } negate true t
  | 's' :: t => parseFlags { flags with dotNL := !negate } negate true t
  | 'U' :: t => parseFlags flags negate true t
  | '-' :: t => if negate then none else parseFlags flags true false t
  | ':' :: t => if negate && !sawFlag then none else some (flags, true, t)
  | ')' :: t => if negate && !sawFlag then none else some (flags, false, t)
  | _ => none

/-- Reads one character of a class, escaped or not. -/
def classChar : List Char → Option (Nat × List Char)
  | [] => none
  | '\\' :: t => parseEscape t
  | c :: t => some (c.toNat, t)

/-- Reads a character of a class or a range `lo-hi` of them; a `-` before the closing `]`
stands for itself. -/
def classRange (t : List Char) : Option (ClassItem × List Char) :=
  match classChar t with
  | none => none
  | some (lo, u) =>
    match u with
    | '-' :: d :: v =>
      if d = ']' then some (.range lo lo, u)
      else match classChar (d :: v) with
        | none => none
        | some (hi, w) => if hi < lo then none else some (.range lo hi, w)
    | _ => some (.range lo lo, u)

/-- Reads one item of a class: a POSIX class `[:name:]`, a Perl class such as `\d`, or a
character or range. A `[:` with no `:]` after it is a `[`. -/
def classItem (t : List Char) : Option (ClassItem × List Char) :=
  match t with
  | '[' :: ':' :: c :: u =>
    match untilColonBracket (c :: u) with
    | some (name, rest) => (posixClass name).map (·, rest)
    | none => classRange t
  | '\\' :: 'p' :: _ => none
  | '\\' :: 'P' :: _ => none
  | '\\' :: c :: u =>
    match perlClass c with
    | some item => some (item, u)
    | none => classRange t
  | _ => classRange t

/-! ### Lengths of what is left -/

theorem octalDigits_length (acc n : Nat) (t : List Char) :
    (octalDigits acc n t).2.length ≤ t.length := by
  fun_induction octalDigits acc n t <;> simp_all <;> omega

theorem hexDigits_length {acc n : Nat} {t r : List Char} {v : Nat}
    (h : hexDigits acc n t = some (v, r)) : r.length < t.length := by
  fun_induction hexDigits acc n t <;> simp_all <;> omega

theorem parseEscape_length {t r : List Char} {v : Nat} (h : parseEscape t = some (v, r)) :
    r.length < t.length := by
  cases t with
  | nil => simp [parseEscape] at h
  | cons c t =>
    -- an escape reads its first character, then perhaps more of `t`
    suffices ht : r.length ≤ t.length by simp only [List.length_cons]; omega
    simp only [parseEscape] at h
    split at h
    · simp only [Option.some.injEq, Prod.mk.injEq] at h
      obtain ⟨-, rfl⟩ := h
      exact Nat.le_refl _
    split at h
    · simp only [Option.some.injEq] at h
      have hr : r = (octalDigits (c.toNat - 48) 2 t).2 := by rw [h]
      rw [hr]
      exact octalDigits_length _ _ _
    split at h
    · split at h
      · exact Nat.le_trans (Nat.le_of_lt (hexDigits_length h)) (by simp)
      · split at h
        · simp only [Option.some.injEq, Prod.mk.injEq] at h
          obtain ⟨-, rfl⟩ := h
          simp only [List.length_cons]
          omega
        · cases h
      · cases h
    · split at h <;> first
        | (simp only [Option.some.injEq, Prod.mk.injEq] at h
           obtain ⟨-, rfl⟩ := h
           exact Nat.le_refl _)
        | cases h

theorem parseCount_length {t r : List Char} {v : Nat} (h : parseCount t = some (v, r)) :
    r.length < t.length := by
  cases t with
  | nil => simp [parseCount] at h
  | cons c t =>
    simp only [parseCount] at h
    split at h
    · cases h
    · simp only [Option.some.injEq, Prod.mk.injEq] at h
      obtain ⟨-, rfl⟩ := h
      exact Nat.lt_succ_of_le (List.dropWhile_suffix isDigit).length_le

theorem parseRepeat_length {t r : List Char} {b : Nat × Option Nat}
    (h : parseRepeat t = some (b, r)) : r.length < t.length := by
  unfold parseRepeat at h
  split at h
  · cases h
  · rename_i min u hu
    have hu' := parseCount_length hu
    -- after the least count, the closing brace and perhaps a comma and the greatest count
    split at h
    · simp only [Option.some.injEq, Prod.mk.injEq] at h
      obtain ⟨-, rfl⟩ := h
      simp only [List.length_cons] at hu'
      omega
    · simp only [Option.some.injEq, Prod.mk.injEq] at h
      obtain ⟨-, rfl⟩ := h
      simp only [List.length_cons] at hu'
      omega
    · split at h
      · rename_i max rest hv
        simp only [Option.some.injEq, Prod.mk.injEq] at h
        obtain ⟨-, rfl⟩ := h
        have hv' := parseCount_length hv
        simp only [List.length_cons] at hu' hv'
        omega
      · cases h
    · cases h

theorem splitAtFirst_length {c : Char} {t a r : List Char} (h : splitAtFirst c t = some (a, r)) :
    r.length < t.length := by
  induction t generalizing a with
  | nil => simp [splitAtFirst] at h
  | cons d t ih =>
    rw [splitAtFirst] at h
    split at h
    · simp only [Option.some.injEq, Prod.mk.injEq] at h
      obtain ⟨-, rfl⟩ := h
      exact Nat.lt_succ_self _
    · obtain ⟨⟨a', r'⟩, h', he⟩ := Option.map_eq_some_iff.mp h
      simp only [Prod.mk.injEq] at he
      obtain ⟨-, rfl⟩ := he
      exact Nat.lt_succ_of_lt (ih h')

theorem untilColonBracket_length {t a r : List Char} (h : untilColonBracket t = some (a, r)) :
    r.length < t.length := by
  induction t generalizing a with
  | nil => simp [untilColonBracket] at h
  | cons c t ih =>
    cases t with
    | nil => simp [untilColonBracket] at h
    | cons d t =>
      simp only [untilColonBracket] at h
      split at h
      · simp only [Option.some.injEq, Prod.mk.injEq] at h
        obtain ⟨-, rfl⟩ := h
        simp only [List.length_cons]
        omega
      · obtain ⟨⟨a', r'⟩, h', he⟩ := Option.map_eq_some_iff.mp h
        simp only [Prod.mk.injEq] at he
        obtain ⟨-, rfl⟩ := he
        exact Nat.lt_succ_of_lt (ih h')

theorem untilQuoteEnd_length (t : List Char) : (untilQuoteEnd t).2.length ≤ t.length := by
  induction t with
  | nil => simp [untilQuoteEnd]
  | cons c t ih =>
    cases t with
    | nil => simp [untilQuoteEnd]
    | cons d t =>
      simp only [untilQuoteEnd]
      split
      · simp only [List.length_cons]
        omega
      · exact Nat.le_succ_of_le ih

theorem parseFlags_length {flags : Flags} {negate sawFlag : Bool} {t r : List Char}
    {f : Flags} {opens : Bool} (h : parseFlags flags negate sawFlag t = some (f, opens, r)) :
    r.length < t.length := by
  fun_induction parseFlags flags negate sawFlag t <;> grind

theorem classChar_length {t r : List Char} {v : Nat} (h : classChar t = some (v, r)) :
    r.length < t.length := by
  unfold classChar at h
  split at h
  · cases h
  · exact Nat.lt_succ_of_lt (parseEscape_length h)
  · simp only [Option.some.injEq, Prod.mk.injEq] at h
    obtain ⟨-, rfl⟩ := h
    exact Nat.lt_succ_self _

theorem classRange_length {t r : List Char} {item : ClassItem}
    (h : classRange t = some (item, r)) : r.length < t.length := by
  unfold classRange at h
  split at h
  · cases h
  · rename_i lo u hu
    have hu' := classChar_length hu
    split at h
    · split at h
      · simp only [Option.some.injEq, Prod.mk.injEq] at h
        obtain ⟨-, rfl⟩ := h
        exact hu'
      · split at h
        · cases h
        · rename_i hi w hw
          have hw' := classChar_length hw
          split at h
          · cases h
          · simp only [Option.some.injEq, Prod.mk.injEq] at h
            obtain ⟨-, rfl⟩ := h
            simp only [List.length_cons] at hu' hw'
            omega
    · simp only [Option.some.injEq, Prod.mk.injEq] at h
      obtain ⟨-, rfl⟩ := h
      exact hu'

theorem classItem_length {t r : List Char} {item : ClassItem}
    (h : classItem t = some (item, r)) : r.length < t.length := by
  unfold classItem at h
  split at h
  · split at h
    · rename_i name rest hsplit
      obtain ⟨_, _, he⟩ := Option.map_eq_some_iff.mp h
      simp only [Prod.mk.injEq] at he
      obtain ⟨-, rfl⟩ := he
      have := untilColonBracket_length hsplit
      simp only [List.length_cons] at this ⊢
      omega
    · exact classRange_length h
  · cases h
  · cases h
  · split at h
    · simp only [Option.some.injEq, Prod.mk.injEq] at h
      obtain ⟨-, rfl⟩ := h
      simp only [List.length_cons]
      omega
    · exact classRange_length h
  · exact classRange_length h

set_option linter.unusedVariables false in
/-- Reads the items of a class up to its closing `]`, which may stand for itself first. -/
def classItems (first : Bool) (acc : List ClassItem) (t : List Char) :
    Option (List ClassItem × List Char) :=
  match t with
  | [] => none
  | c :: u =>
    if c = ']' ∧ !first then some (acc.reverse, u)
    else match h : classItem (c :: u) with
      | none => none
      | some (item, rest) => classItems false (item :: acc) rest
termination_by t.length
decreasing_by exact classItem_length h

theorem classItems_length {first : Bool} {acc : List ClassItem} {t r : List Char}
    {items : List ClassItem} (h : classItems first acc t = some (items, r)) :
    r.length < t.length := by
  fun_induction classItems first acc t with
  | case1 => cases h
  | case2 first acc c u hc =>
    simp only [Option.some.injEq, Prod.mk.injEq] at h
    obtain ⟨-, rfl⟩ := h
    exact Nat.lt_succ_self _
  | case3 => cases h
  | case4 first acc c u hc item rest hitem ih =>
    exact Nat.lt_trans (ih h) (classItem_length hitem)

/-- Reads a class after its `[`: a `^` first negates it. -/
def parseClass (fold : Bool) : List Char → Option (CharSet × List Char)
  | '^' :: t => (classItems true [] t).map fun (items, rest) => (.cls items true fold, rest)
  | t => (classItems true [] t).map fun (items, rest) => (.cls items false fold, rest)

theorem parseClass_length {fold : Bool} {t r : List Char} {s : CharSet}
    (h : parseClass fold t = some (s, r)) : r.length < t.length := by
  unfold parseClass at h
  split at h
  · obtain ⟨⟨_, _⟩, h', he⟩ := Option.map_eq_some_iff.mp h
    cases he
    exact Nat.lt_succ_of_lt (classItems_length h')
  · obtain ⟨⟨_, _⟩, h', he⟩ := Option.map_eq_some_iff.mp h
    cases he
    exact classItems_length h'

/-! ### The reading loop -/

/-- A group still open: the flags to restore when it closes, its finished alternatives and
the concatenation it was reading, both last first. -/
structure Frame where
  flags : Flags
  alts : List Node
  items : List Node

/-- What the reader holds between steps. -/
structure Parser where
  flags : Flags
  /-- The concatenation being read, last first. -/
  items : List Node
  /-- The finished alternatives of the innermost group, last first. -/
  alts : List Node
  /-- The groups around it, innermost first. -/
  outer : List Frame
  /-- Whether the last thing read was a repetition operator. -/
  afterRepeat : Bool

namespace Parser

/-- The reader at the start of an expression. -/
def start : Parser := ⟨Flags.perl, [], [], [], false⟩

/-- Adds an expression to the concatenation. -/
def push (p : Parser) (r : Node) : Parser := { p with items := r :: p.items, afterRepeat := false }

/-- Adds a literal, under the case folding in force. -/
def literal (p : Parser) (c : Nat) : Parser := p.push (.chars (.lit c p.flags.foldCase))

/-- Opens a group whose inside is read under `flags`. -/
def openGroup (p : Parser) (flags : Flags) : Parser :=
  ⟨flags, [], [], ⟨p.flags, p.alts, p.items⟩ :: p.outer, false⟩

/-- Ends an alternative at `|`. -/
def bar (p : Parser) : Parser :=
  { p with items := [], alts := concatOf p.items.reverse :: p.alts, afterRepeat := false }

/-- The expression of the innermost group so far: its alternatives, the last one being the
concatenation being read. -/
def body (p : Parser) : Node := altOf (concatOf p.items.reverse :: p.alts).reverse

/-- Closes the innermost group at `)`; none when no group is open. -/
def closeGroup (p : Parser) : Option Parser :=
  match p.outer with
  | [] => none
  | f :: outer => some ⟨f.flags, p.body :: f.items, f.alts, outer, false⟩

/-- What follows a repetition operator, past a `?` after it: the `?` makes the repetition
lazy, which changes no match. -/
def skipLazy : List Char → List Char
  | '?' :: u => u
  | u => u

/-- Applies a repetition of `min` to `max` copies to the last expression read. RE2 refuses a
repetition with nothing before it, one right after another repetition (`a**`), and counts that
nest to more than 1000 copies. -/
def repetition (p : Parser) (min : Nat) (max : Option Nat) (t : List Char) :
    Option (Parser × List Char) :=
  if p.afterRepeat then none
  else match p.items with
    | [] => none
    | r :: items =>
      if (2 ≤ min || max.any (2 ≤ ·)) && !(Node.rep r min max).repeatIsValid 1000 then none
      else some ({ p with items := .rep r min max :: items, afterRepeat := true }, skipLazy t)

/-- The text after the `P<` or `<` that opens a named group, when a name may follow. -/
def groupNameStart : List Char → Option (List Char)
  | 'P' :: '<' :: c :: u => some (c :: u)
  | '<' :: c :: u => some (c :: u)
  | _ => none

/-- Reads what follows `(?`: a named group, or flags that open a group or hold for the rest of
the innermost one. -/
def perlGroup (p : Parser) (t : List Char) : Option (Parser × List Char) :=
  match groupNameStart t with
  | some u =>
    match splitAtFirst '>' u with
    | some (name, rest) => if isGroupName name then some (p.openGroup p.flags, rest) else none
    | none => none
  | none =>
    match parseFlags p.flags false false t with
    | some (flags, true, rest) => some (p.openGroup flags, rest)
    | some (flags, false, rest) => some ({ p with flags, afterRepeat := false }, rest)
    | none => none

/-- Reads an escape after its backslash: an assertion, a quoted text `\Q...\E`, a Perl class
or an escaped character. `\C` (any byte) and Unicode classes are refused. -/
def escape (p : Parser) : List Char → Option (Parser × List Char)
  | [] => none
  | c :: t =>
    match c with
    | 'A' => some (p.push (.assert .beginText), t)
    | 'b' => some (p.push (.assert .wordBoundary), t)
    | 'B' => some (p.push (.assert .noWordBoundary), t)
    | 'z' => some (p.push (.assert .endText), t)
    | 'Q' =>
      let (lit, rest) := untilQuoteEnd t
      some ({ lit.foldl (fun p c => p.literal c.toNat) p with afterRepeat := false }, rest)
    | 'C' | 'p' | 'P' => none
    | _ =>
      match perlClass c with
      | some item => some (p.push (.chars (.cls [item] false p.flags.foldCase)), t)
      | none => (parseEscape (c :: t)).map fun (v, rest) => (p.literal v, rest)

/-- Reads one operator, atom or escape at the front of the text. -/
def step (p : Parser) : List Char → Option (Parser × List Char)
  | [] => none
  | c :: t =>
    match c with
    | '(' =>
      match t with
      | '?' :: u => p.perlGroup u
      | _ => some (p.openGroup p.flags, t)
    | '|' => some (p.bar, t)
    | ')' => p.closeGroup.map (·, t)
    | '^' => some (p.push (.assert (if p.flags.multiLine then .beginLine else .beginText)), t)
    | '$' => some (p.push (.assert (if p.flags.multiLine then .endLine else .endText)), t)
    | '.' => some (p.push (.chars (.any p.flags.dotNL)), t)
    | '[' => (parseClass p.flags.foldCase t).map fun (s, rest) => (p.push (.chars s), rest)
    | '*' => p.repetition 0 none t
    | '+' => p.repetition 1 none t
    | '?' => p.repetition 0 (some 1) t
    | '\x7b' =>
      match parseRepeat t with
      -- a brace that starts no counts stands for itself
      | none => some (p.literal 0x7B, t)
      | some ((min, max), rest) =>
        if 1000 < min || max.any (1000 < ·) || max.any (· < min) then none
        else p.repetition min max rest
    | '\\' => p.escape t
    | _ => some (p.literal c.toNat, t)

theorem skipLazy_length (t : List Char) : (skipLazy t).length ≤ t.length := by
  unfold skipLazy
  split <;> simp

theorem repetition_length {p p' : Parser} {min : Nat} {max : Option Nat} {t r : List Char}
    (h : p.repetition min max t = some (p', r)) : r.length ≤ t.length := by
  unfold repetition at h
  split at h
  · cases h
  · split at h
    · cases h
    · split at h
      · cases h
      · simp only [Option.some.injEq, Prod.mk.injEq] at h
        obtain ⟨-, rfl⟩ := h
        exact skipLazy_length t

theorem groupNameStart_length {t u : List Char} (h : groupNameStart t = some u) :
    u.length < t.length := by
  unfold groupNameStart at h
  split at h <;> simp only [Option.some.injEq, reduceCtorEq] at h <;> subst h <;> simp

theorem perlGroup_length {p p' : Parser} {t r : List Char} (h : p.perlGroup t = some (p', r)) :
    r.length < t.length := by
  unfold perlGroup at h
  split at h
  · rename_i u hu
    -- a name up to its `>`
    split at h
    · rename_i name rest hsplit
      split at h
      · simp only [Option.some.injEq, Prod.mk.injEq] at h
        obtain ⟨-, rfl⟩ := h
        exact Nat.lt_trans (splitAtFirst_length hsplit) (groupNameStart_length hu)
      · cases h
    · cases h
  · -- flags up to `)` or `:`
    split at h
    · simp only [Option.some.injEq, Prod.mk.injEq] at h
      obtain ⟨-, rfl⟩ := h
      exact parseFlags_length (by assumption)
    · simp only [Option.some.injEq, Prod.mk.injEq] at h
      obtain ⟨-, rfl⟩ := h
      exact parseFlags_length (by assumption)
    · cases h

theorem escape_length {p p' : Parser} {t r : List Char} (h : p.escape t = some (p', r)) :
    r.length < t.length := by
  cases t with
  | nil => cases h
  | cons c t =>
    -- an escape reads its letter, then perhaps more of `t`
    suffices hle : r.length ≤ t.length by simp only [List.length_cons]; omega
    simp only [escape] at h
    split at h
    any_goals
      simp only [Option.some.injEq, Prod.mk.injEq] at h
      obtain ⟨-, rfl⟩ := h
      exact Nat.le_refl _
    · simp only [Option.some.injEq, Prod.mk.injEq] at h
      obtain ⟨-, rfl⟩ := h
      exact untilQuoteEnd_length t
    any_goals cases h
    split at h
    · simp only [Option.some.injEq, Prod.mk.injEq] at h
      obtain ⟨-, rfl⟩ := h
      exact Nat.le_refl _
    · obtain ⟨⟨_, _⟩, h', he⟩ := Option.map_eq_some_iff.mp h
      simp only [Prod.mk.injEq] at he
      obtain ⟨-, rfl⟩ := he
      have := parseEscape_length h'
      simp only [List.length_cons] at this
      omega

theorem step_length {p p' : Parser} {t r : List Char} (h : p.step t = some (p', r)) :
    r.length < t.length := by
  cases t with
  | nil => cases h
  | cons c t =>
    -- a step reads its first character, then perhaps more of `t`
    suffices hle : r.length ≤ t.length by simp only [List.length_cons]; omega
    simp only [step] at h
    split at h
    · split at h
      · have := perlGroup_length h
        simp only [List.length_cons] at this ⊢
        omega
      · simp only [Option.some.injEq, Prod.mk.injEq] at h
        obtain ⟨-, rfl⟩ := h
        exact Nat.le_refl _
    any_goals
      simp only [Option.some.injEq, Prod.mk.injEq] at h
      obtain ⟨-, rfl⟩ := h
      exact Nat.le_refl _
    · obtain ⟨_, -, he⟩ := Option.map_eq_some_iff.mp h
      simp only [Prod.mk.injEq] at he
      obtain ⟨-, rfl⟩ := he
      exact Nat.le_refl _
    · obtain ⟨⟨_, _⟩, h', he⟩ := Option.map_eq_some_iff.mp h
      simp only [Prod.mk.injEq] at he
      obtain ⟨-, rfl⟩ := he
      exact Nat.le_of_lt (parseClass_length h')
    any_goals exact repetition_length h
    · split at h
      · simp only [Option.some.injEq, Prod.mk.injEq] at h
        obtain ⟨-, rfl⟩ := h
        exact Nat.le_refl _
      · rename_i b rest hrep
        split at h
        · cases h
        · exact Nat.le_trans (repetition_length h) (Nat.le_of_lt (parseRepeat_length hrep))
    · exact Nat.le_of_lt (escape_length h)

set_option linter.unusedVariables false in
/-- Reads the rest of an expression; at its end every group must be closed. -/
def run (p : Parser) (t : List Char) : Option Node :=
  match t with
  | [] => if p.outer.isEmpty then some p.body else none
  | c :: u =>
    match h : p.step (c :: u) with
    | none => none
    | some (p', rest) => run p' rest
termination_by t.length
decreasing_by exact step_length h

end Parser

/-- Reads a regular expression; none when RE2 refuses it. -/
def compile (s : String) : Option Node := Parser.start.run s.toList

end Regex

end ArmReach
