import ArmReach.Logging.Pattern
import ArmReach.Proofs.Regex.Matching
/-!
# Logger patterns: their grammar, their settings and their regular expressions

A pattern is valid when it is one or more sections joined by dots, each `*` or a name of ASCII
letters, digits, `_` and `-` that begins and ends with a letter or digit (`InGrammar`); the
check splits the pattern at its dots and looks at each section (`isValid_iff`).

A level setting `pattern=level` is cut at its first `=`; it is read exactly when the pattern is
in the grammar and the level, lowered character by character, is a level name
(`PatternLevel.parse_eq_ok_iff`), and then it keeps both halves as written.

A pattern stands for a glob language: each `*` for a text, every other character for itself
(`Glob`, with the characters a star may stand for as a parameter). The registry matches names
with the regular expression `^…$` it writes for a pattern (`matchesName`). When every character
of the pattern other than its stars and dots is no operator of the reader of expressions, as in
every valid pattern (`operatorFree_of_isValid`) but also in `x y`, the expression compiles to
the pattern's characters between two anchors (`compile_regexOf`), each star a repeated `.`. RE2's
`.` reads every character but a line break, so the expression matches the glob language whose
stars stand for texts without a line break (`matchesName_iff_glob`), which `accepts` reads
directly. On names without a line break that is the whole glob language
(`regexOf_matches_iff_glob`), but the name `a⏎b` is in the language of `*` and not matched
(`regexOf_star_misses_line_break`).
-/

namespace ArmReach

namespace Logging

namespace Pattern

/-! ### The grammar of patterns -/

/-- A name section: ASCII letters, digits, `_` and `-`, beginning and ending with a letter or a
digit. -/
def NameSection (s : List Char) : Prop :=
  (∀ c ∈ s, isAlnum c = true ∨ c = '_' ∨ c = '-') ∧
    (∃ a, s.head? = some a ∧ isAlnum a = true) ∧ ∃ z, s.getLast? = some z ∧ isAlnum z = true

/-- The grammar of patterns: one or more sections joined by dots, each `*` or a name section. -/
def InGrammar (p : List Char) : Prop :=
  ∃ secs : List (List Char), secs ≠ [] ∧ p = ['.'].intercalate secs ∧
    ∀ s ∈ secs, s = ['*'] ∨ NameSection s

theorem getD_map_isAlnum {o : Option Char} :
    (o.map isAlnum).getD false = true ↔ ∃ a, o = some a ∧ isAlnum a = true := by
  cases o <;> simp

theorem isSection_iff (s : List Char) : isSection s = true ↔ s = ['*'] ∨ NameSection s := by
  simp only [isSection, NameSection, Bool.or_eq_true, Bool.and_eq_true, beq_iff_eq,
    List.all_eq_true, getD_map_isAlnum, or_assoc, and_assoc]

/-- No section holds a dot: a name section is letters, digits, `_` and `-`. -/
theorem dot_not_mem {s : List Char} (h : s = ['*'] ∨ NameSection s) : '.' ∉ s := by
  rcases h with rfl | ⟨hchars, -⟩
  · decide
  · intro hdot
    rcases hchars '.' hdot with h | h | h <;> revert h <;> decide

/-- **The check is the grammar**: splitting at the dots gives the sections back, since no
section holds a dot. -/
theorem isValid_iff (p : String) : isValid p = true ↔ InGrammar p.toList := by
  unfold isValid
  rw [List.all_eq_true]
  constructor
  · intro h
    exact ⟨p.toList.splitOn '.', List.splitOn_ne_nil _ _, (List.intercalate_splitOn _).symm,
      fun s hs => (isSection_iff s).mp (h s hs)⟩
  · rintro ⟨secs, hne, hp, hsecs⟩ s hs
    rw [hp, List.splitOn_intercalate _ (fun s hs => dot_not_mem (hsecs s hs)) hne] at hs
    exact (isSection_iff s).mpr (hsecs s hs)

end Pattern

/-! ### Level names -/

namespace Level

/-- The names a level is read from, once lowered. -/
def readableNames : List String := ["debug", "info", "warn", "warning", "error"]

/-- A level name reads exactly when its lowered form is one of the five names. -/
theorem parse_ok_iff (l : String) :
    (∃ v, parse l = .ok v) ↔ l.map lowerChar ∈ readableNames := by
  unfold parse
  split <;> simp_all [readableNames]

end Level

/-! ### Level settings -/

namespace PatternLevel

/-- A text with an `=` is cut at its first one. -/
theorem exists_first_eq {s : List Char} (h : '=' ∈ s) :
    ∃ a b, s = a ++ '=' :: b ∧ '=' ∉ a := by
  induction s with
  | nil => cases h
  | cons c s ih =>
    by_cases hc : c = '='
    · exact ⟨[], s, by rw [hc]; rfl, List.not_mem_nil⟩
    · obtain ⟨a, b, rfl, ha⟩ := ih ((List.mem_cons.mp h).resolve_left (Ne.symm hc))
      refine ⟨c :: a, b, rfl, ?_⟩
      simp only [List.mem_cons, not_or]
      exact ⟨Ne.symm hc, ha⟩

/-- A setting without `=` is refused. -/
theorem parse_of_not_mem {s : String} (h : '=' ∉ s.toList) :
    parse s = .error ("logger level " ++ Text.quote s ++ " is not of the form pattern=level") := by
  rw [parse, List.splitOn_eq_singleton h]

/-- A setting cut at its first `=` checks the pattern, then the level name. -/
theorem parse_append (p l : String) (hp : '=' ∉ p.toList) :
    parse (p ++ "=" ++ l) =
      if !Pattern.isValid p then .error ("invalid logger pattern " ++ Text.quote p)
      else (Level.parse l).map fun _ => ⟨p, l⟩ := by
  have hsplit : (p ++ "=" ++ l).toList.splitOn '=' = p.toList :: l.toList.splitOn '=' := by
    simpa [String.toList_append] using List.splitOn_append_cons_self_of_not_mem hp l.toList
  obtain ⟨r₀, rs, hrs⟩ := List.exists_cons_of_ne_nil (List.splitOn_ne_nil '=' l.toList)
  -- what follows the first `=` is joined back at the others
  have hlevel : "=".intercalate ((r₀ :: rs).map String.ofList) = l := by
    rw [← String.toList_inj, String.toList_intercalate, List.map_map, ← hrs]
    simp
  rw [parse, hsplit, hrs]
  simp only [String.ofList_toList, hlevel]
  -- the level's verdict is passed on, with the setting in place of the level
  cases Level.parse l <;> rfl

/-- **A setting is read exactly when it is `p=l` with `p` free of `=` and in the grammar and `l`
a level name once lowered**, and then it is `p` and `l` as written. -/
theorem parse_eq_ok_iff (s : String) (r : PatternLevel) :
    parse s = .ok r ↔
      ∃ p l : String, s = p ++ "=" ++ l ∧ '=' ∉ p.toList ∧ Pattern.InGrammar p.toList ∧
        l.map Level.lowerChar ∈ Level.readableNames ∧ r = ⟨p, l⟩ := by
  constructor
  · intro h
    by_cases hs : '=' ∈ s.toList
    · obtain ⟨a, b, hab, ha⟩ := exists_first_eq hs
      have hcut : s = String.ofList a ++ "=" ++ String.ofList b := by
        rw [← String.toList_inj, hab]
        simp [String.toList_append]
      rw [hcut, parse_append _ _ (by simpa using ha)] at h
      refine ⟨String.ofList a, String.ofList b, hcut, by simpa using ha, ?_⟩
      split at h
      · cases h
      · rename_i hvalid
        cases hv : Level.parse (String.ofList b) with
        | error e =>
          rw [hv] at h
          cases h
        | ok v =>
          rw [hv] at h
          cases h
          refine ⟨(Pattern.isValid_iff _).mp (by simpa using hvalid), ?_, rfl⟩
          exact (Level.parse_ok_iff _).mp ⟨v, hv⟩
    · rw [parse_of_not_mem hs] at h
      cases h
  · rintro ⟨p, l, rfl, hp, hgrammar, hlevel, rfl⟩
    obtain ⟨v, hv⟩ := (Level.parse_ok_iff l).mpr hlevel
    rw [parse_append p l hp, if_neg (by simpa using (Pattern.isValid_iff p).mpr hgrammar), hv]
    rfl

end PatternLevel

namespace Pattern

/-! ### Glob languages -/

/-- The text a pattern stands for when its stars stand, in order, for the texts `ws`. -/
def fill : List Char → List (List Char) → List Char
  | [], _ => []
  | c :: p, ws => if c = '*' then ws.headD [] ++ fill p ws.tail else c :: fill p ws

/-- The glob language of a pattern whose stars stand for texts of characters satisfying `ok`:
the texts made from the pattern by putting such a text for each `*`, every other character
standing for itself. -/
def Glob (ok : Char → Prop) (p n : List Char) : Prop :=
  ∃ ws : List (List Char), ws.length = p.count '*' ∧ (∀ w ∈ ws, ∀ c ∈ w, ok c) ∧ fill p ws = n

section Glob

variable {ok : Char → Prop} {p n : List Char}

theorem glob_nil : Glob ok [] n ↔ n = [] := by
  constructor
  · rintro ⟨ws, -, -, rfl⟩
    rfl
  · rintro rfl
    exact ⟨[], rfl, by simp, rfl⟩

theorem glob_cons {c : Char} (hc : c ≠ '*') :
    Glob ok (c :: p) n ↔ ∃ n', n = c :: n' ∧ Glob ok p n' := by
  constructor
  · rintro ⟨ws, hlen, hws, rfl⟩
    exact ⟨fill p ws, by simp [fill, hc], ws, by simpa [List.count_cons_of_ne hc] using hlen,
      hws, rfl⟩
  · rintro ⟨n', rfl, ws, hlen, hws, rfl⟩
    exact ⟨ws, by simpa [List.count_cons_of_ne hc] using hlen, hws, by simp [fill, hc]⟩

theorem glob_star :
    Glob ok ('*' :: p) n ↔ ∃ w n', n = w ++ n' ∧ (∀ c ∈ w, ok c) ∧ Glob ok p n' := by
  constructor
  · rintro ⟨_ | ⟨w, ws⟩, hlen, hws, rfl⟩
    · simp at hlen
    · exact ⟨w, fill p ws, by simp [fill], hws w (by simp), ws, by simpa using hlen,
        fun v hv => hws v (List.mem_cons_of_mem w hv), rfl⟩
  · rintro ⟨w, n', rfl, hw, ws, hlen, hws, rfl⟩
    refine ⟨w :: ws, by simpa using hlen, ?_, by simp [fill]⟩
    intro v hv
    rcases List.mem_cons.mp hv with rfl | hv
    · exact hw
    · exact hws v hv

/-- A pattern without stars stands for itself alone. -/
theorem glob_iff_eq_of_star_not_mem (h : '*' ∉ p) : Glob ok p n ↔ n = p := by
  induction p generalizing n with
  | nil => exact glob_nil
  | cons c p ih =>
    have hc : c ≠ '*' := fun hc => h (hc ▸ List.mem_cons_self)
    have hp : '*' ∉ p := fun hs => h (List.mem_cons_of_mem c hs)
    rw [glob_cons hc]
    constructor
    · rintro ⟨n', rfl, hn'⟩
      rw [(ih hp).mp hn']
    · rintro rfl
      exact ⟨p, rfl, (ih hp).mpr rfl⟩

/-- A star stands for a part of the text, so a text whose characters all satisfy `ok'` is in
the language with `ok'` once it is in the language with any `ok`. -/
theorem Glob.of_forall_mem (h : Glob ok p n) {ok' : Char → Prop} (hn : ∀ c ∈ n, ok' c) :
    Glob ok' p n := by
  induction p generalizing n with
  | nil => exact glob_nil.mpr (glob_nil.mp h)
  | cons c p ih =>
    by_cases hc : c = '*'
    · subst hc
      obtain ⟨w, n', rfl, -, hp⟩ := glob_star.mp h
      exact glob_star.mpr ⟨w, n', rfl, fun c hc => hn c (List.mem_append_left n' hc),
        ih hp fun c hc => hn c (List.mem_append_right w hc)⟩
    · obtain ⟨n', rfl, hp⟩ := (glob_cons hc).mp h
      exact (glob_cons hc).mpr ⟨n', rfl, ih hp fun c hc => hn c (List.mem_cons_of_mem _ hc)⟩

end Glob

/-! ### Reading a glob language directly -/

/-- Whether `pattern` matches the whole of `name`, each `*` standing for a run of characters
other than a line break. -/
def matchesFrom : List Char → List Char → Bool
  | [], name => name.isEmpty
  | '*' :: rest, name =>
    matchesFrom rest name ||
      match name with
      | [] => false
      | c :: more => c != '\n' && matchesFrom ('*' :: rest) more
  | p :: rest, name =>
    match name with
    | [] => false
    | c :: more => c == p && matchesFrom rest more
termination_by p n => (p.length, n.length)

/-- Whether a pattern matches a whole logger name, read directly from the pattern. -/
def accepts (pattern name : String) : Bool := matchesFrom pattern.toList name.toList

/-- A star of the direct reading takes a run of characters other than a line break, and the
rest of the pattern what is left. -/
theorem matchesFrom_star_iff (p n : List Char) :
    matchesFrom ('*' :: p) n = true ↔
      ∃ w n', n = w ++ n' ∧ (∀ c ∈ w, c ≠ '\n') ∧ matchesFrom p n' = true := by
  induction n with
  | nil =>
    rw [matchesFrom.eq_2, Bool.or_false]
    constructor
    · intro h
      exact ⟨[], [], rfl, by simp, h⟩
    · rintro ⟨w, n', hwn, -, h⟩
      obtain ⟨rfl, rfl⟩ := List.append_eq_nil_iff.mp hwn.symm
      exact h
  | cons c n ih =>
    rw [matchesFrom.eq_3, Bool.or_eq_true, Bool.and_eq_true, bne_iff_ne, ih]
    constructor
    · rintro (h | ⟨hc, w, n', rfl, hw, h⟩)
      · exact ⟨[], c :: n, rfl, by simp, h⟩
      · refine ⟨c :: w, n', rfl, ?_, h⟩
        intro d hd
        rcases List.mem_cons.mp hd with rfl | hd
        · exact hc
        · exact hw d hd
    · rintro ⟨_ | ⟨d, w⟩, n', hwn, hw, h⟩
      · rw [List.nil_append] at hwn
        exact Or.inl (hwn ▸ h)
      · obtain ⟨rfl, rfl⟩ := List.cons.inj hwn
        exact Or.inr ⟨hw c List.mem_cons_self, w, n', rfl,
          fun e he => hw e (List.mem_cons_of_mem c he), h⟩

/-- **The direct reading accepts the glob language whose stars stand for texts without a line
break.** -/
theorem matchesFrom_iff_glob (p n : List Char) :
    matchesFrom p n = true ↔ Glob (· ≠ '\n') p n := by
  induction p generalizing n with
  | nil => rw [matchesFrom.eq_1, glob_nil, List.isEmpty_iff]
  | cons c p ih =>
    by_cases hc : c = '*'
    · subst hc
      simp only [matchesFrom_star_iff, glob_star, ih]
    · rw [glob_cons hc]
      cases n with
      | nil => simp [matchesFrom.eq_4 _ _ hc]
      | cons d n =>
        rw [matchesFrom.eq_5 _ _ _ _ hc, Bool.and_eq_true, beq_iff_eq, ih]
        constructor
        · rintro ⟨rfl, h⟩
          exact ⟨n, rfl, h⟩
        · rintro ⟨n', hn, h⟩
          obtain ⟨rfl, rfl⟩ := List.cons.inj hn
          exact ⟨rfl, h⟩

end Pattern

end Logging

/-! ### Reading the expression of a pattern -/

namespace Regex.Parser

/-- A step of the reader is followed by the reading of what it leaves. -/
theorem run_cons_of_step {p p' : Parser} {c : Char} {u rest : List Char}
    (h : p.step (c :: u) = some (p', rest)) : p.run (c :: u) = p'.run rest := by
  rw [run, h]

/-- At the end of the text, with no group open, the reader gives what it has read. -/
theorem run_nil {p : Parser} (h : p.outer = []) : p.run [] = some p.body := by
  rw [run, h]
  rfl

/-- The characters with a meaning of their own at the top level of an expression; the reader
takes every other character for itself. -/
def operators : List Char := ['(', ')', '|', '^', '$', '.', '[', '*', '+', '?', '\x7b', '\\']

theorem step_of_not_mem_operators {c : Char} (hc : c ∉ operators) (p : Parser) (t : List Char) :
    p.step (c :: t) = some (p.literal c.toNat, t) := by
  simp only [step]
  -- every branch but the last is an operator, which `hc` excludes
  split <;> first | rfl | simp [operators] at hc

end Regex.Parser

namespace Logging

namespace Pattern

open Regex Regex.Parser

/-- A pattern whose characters other than stars and dots are no operators of the reader, so
that its regular expression is read as the registry writes it. -/
def OperatorFree (p : List Char) : Prop := ∀ c ∈ p, c = '*' ∨ c = '.' ∨ c ∉ operators

-- checked character by character along the list, not over every character
instance : DecidablePred OperatorFree := fun p => List.decidableBAll _ p

/-- The expression one character of a pattern becomes: a star any run of characters other than
a line break, every other character itself. -/
def pieceOf (c : Char) : Node :=
  if c = '*' then .rep (.chars (.any false)) 0 none else .chars (.lit c.toNat false)

/-- The text of a pattern character starts with no `?`, which would make the repetition before
it lazy. -/
theorem head?_regexText_append {c : Char} (hc : c = '*' ∨ c = '.' ∨ c ∉ operators)
    (rest : List Char) : ((regexText c).toList ++ rest).head? ≠ some '?' := by
  rcases hc with rfl | rfl | hc
  · show ('.' :: '*' :: rest).head? ≠ some '?'
    simp
  · show ('\\' :: '.' :: rest).head? ≠ some '?'
    simp
  · have hstar : c ≠ '*' := fun h => hc (by simp [h, operators])
    have hdot : c ≠ '.' := fun h => hc (by simp [h, operators])
    have hq : c ≠ '?' := fun h => hc (by simp [h, operators])
    simpa [regexText, hstar, hdot] using hq

/-- The reader takes the text of a pattern character to the expression of the character, at
the top level of an expression, whatever it read before. -/
theorem run_regexText {c : Char} (hc : c = '*' ∨ c = '.' ∨ c ∉ operators) (items : List Node)
    (ar : Bool) {rest : List Char} (hrest : rest.head? ≠ some '?') :
    ∃ ar', run ⟨Flags.perl, items, [], [], ar⟩ ((regexText c).toList ++ rest) =
      run ⟨Flags.perl, pieceOf c :: items, [], [], ar'⟩ rest := by
  rcases hc with rfl | rfl | hc
  · -- `.*`: any character, then a star that repeats it
    have hdot : step ⟨Flags.perl, items, [], [], ar⟩ ('.' :: '*' :: rest) =
        some (⟨Flags.perl, .chars (.any false) :: items, [], [], false⟩, '*' :: rest) := rfl
    have hstar : step ⟨Flags.perl, .chars (.any false) :: items, [], [], false⟩ ('*' :: rest) =
        some (⟨Flags.perl, pieceOf '*' :: items, [], [], true⟩, skipLazy rest) := rfl
    have hlazy : skipLazy rest = rest := by
      match rest, hrest with
      | [], _ => rfl
      | d :: u, hd =>
        have : d ≠ '?' := fun h => hd (by rw [h]; rfl)
        simp [skipLazy, this]
    exact ⟨true, by rw [show (regexText '*').toList ++ rest = '.' :: '*' :: rest from rfl,
      run_cons_of_step hdot, run_cons_of_step hstar, hlazy]⟩
  · -- `\.`: an escaped dot is a literal dot
    have hesc : step ⟨Flags.perl, items, [], [], ar⟩ ('\\' :: '.' :: rest) =
        some (⟨Flags.perl, pieceOf '.' :: items, [], [], false⟩, rest) := rfl
    exact ⟨false, by rw [show (regexText '.').toList ++ rest = '\\' :: '.' :: rest from rfl,
      run_cons_of_step hesc]⟩
  · have hstar : c ≠ '*' := fun h => hc (by simp [h, operators])
    have hdot : c ≠ '.' := fun h => hc (by simp [h, operators])
    have htext : (regexText c).toList = [c] := by simp [regexText, hstar, hdot]
    refine ⟨false, ?_⟩
    rw [htext, List.singleton_append, run_cons_of_step (step_of_not_mem_operators hc _ rest)]
    simp [pieceOf, hstar, Parser.literal, Parser.push, Flags.perl]

/-- The reader takes the texts of the characters of a pattern to their expressions, the last
first. -/
theorem run_regexTexts {cs : List Char} (hcs : OperatorFree cs) (items : List Node) (ar : Bool)
    (rest : List Char) (hrest : rest.head? ≠ some '?') :
    ∃ ar', run ⟨Flags.perl, items, [], [], ar⟩
        (cs.flatMap (fun c => (regexText c).toList) ++ rest) =
      run ⟨Flags.perl, (cs.map pieceOf).reverse ++ items, [], [], ar'⟩ rest := by
  induction cs generalizing items ar with
  | nil => exact ⟨ar, rfl⟩
  | cons c cs ih =>
    have hc := hcs c List.mem_cons_self
    have hcs' : OperatorFree cs := fun d hd => hcs d (List.mem_cons_of_mem c hd)
    -- the text after this character's starts with the next character's text, or is `rest`
    have hnext : (cs.flatMap (fun c => (regexText c).toList) ++ rest).head? ≠ some '?' := by
      cases cs with
      | nil => simpa using hrest
      | cons d ds =>
        rw [List.flatMap_cons, List.append_assoc]
        exact head?_regexText_append (hcs' d List.mem_cons_self) _
    obtain ⟨ar₁, h₁⟩ := run_regexText hc items ar hnext
    obtain ⟨ar₂, h₂⟩ := ih hcs' (pieceOf c :: items) ar₁
    refine ⟨ar₂, ?_⟩
    rw [List.flatMap_cons, List.append_assoc, h₁, h₂]
    simp

/-- **The regular expression of a pattern free of operators compiles** to the expressions of its
characters between the two anchors. -/
theorem compile_regexOf {p : String} (hp : OperatorFree p.toList) :
    compile (regexOf p) =
      some (concatOf (.assert .beginText :: (p.toList.map pieceOf ++ [.assert .endText]))) := by
  have htext : (regexOf p).toList =
      '^' :: (p.toList.flatMap (fun c => (regexText c).toList) ++ ['$']) := by
    simp [regexOf, String.toList_append, List.flatMap_map]
  have hcaret : start.step ('^' :: (p.toList.flatMap (fun c => (regexText c).toList) ++ ['$'])) =
      some (⟨Flags.perl, [.assert .beginText], [], [], false⟩,
        p.toList.flatMap (fun c => (regexText c).toList) ++ ['$']) := rfl
  obtain ⟨ar, hrun⟩ := run_regexTexts hp [.assert .beginText] false ['$'] (by decide)
  have hdollar : step ⟨Flags.perl, (p.toList.map pieceOf).reverse ++ [.assert .beginText], [], [],
      ar⟩ ['$'] = some (⟨Flags.perl, .assert .endText ::
        ((p.toList.map pieceOf).reverse ++ [.assert .beginText]), [], [], false⟩, []) := rfl
  rw [compile, htext, run_cons_of_step hcaret, hrun, run_cons_of_step hdollar, run_nil rfl]
  simp [body, altOf]

/-! ### What the expression of a pattern matches -/

/-- The expressions of a pattern's characters, then the end anchor, match the glob language
whose stars stand for texts without a line break, up to the end of the text. -/
theorem matches_pieces_iff (p : List Char) (b a : List Char) (q : Place) :
    Matches (concatOf (p.map pieceOf ++ [.assert .endText])) ⟨b, a⟩ q ↔
      Glob (· ≠ '\n') p a ∧ q = ⟨a.reverse ++ b, []⟩ := by
  induction p generalizing b a with
  | nil =>
    rw [List.map_nil, List.nil_append, glob_nil]
    show Matches (.assert .endText) _ _ ↔ _
    rw [matches_assert_iff]
    constructor
    · rintro ⟨rfl, hend⟩
      cases a with
      | nil => exact ⟨rfl, rfl⟩
      | cons d a => cases hend
    · rintro ⟨rfl, rfl⟩
      exact ⟨rfl, rfl⟩
  | cons c p ih =>
    rw [List.map_cons, List.cons_append, matches_concatOf_cons (by simp)]
    by_cases hc : c = '*'
    · -- a star reads a run without line breaks, the rest of the pattern what follows
      subst hc
      simp only [pieceOf, if_true, matches_rep_chars_iff, CharSet.mem_any_iff, glob_star]
      constructor
      · rintro ⟨_, ⟨u, v, rfl, -, -, hu, rfl⟩, hrest⟩
        obtain ⟨hp, rfl⟩ := (ih _ _).mp hrest
        exact ⟨⟨u, v, rfl, hu, hp⟩, by simp⟩
      · rintro ⟨⟨u, v, rfl, hu, hp⟩, rfl⟩
        exact ⟨_, ⟨u, v, rfl, Nat.zero_le _, rfl, hu, rfl⟩, (ih _ _).mpr ⟨hp, by simp⟩⟩
    · simp only [pieceOf, hc, if_false, matches_chars_iff, CharSet.mem_lit_iff, glob_cons hc]
      constructor
      · rintro ⟨_, ⟨d, a', rfl, rfl, rfl⟩, hrest⟩
        obtain ⟨hp, rfl⟩ := (ih _ _).mp hrest
        exact ⟨⟨a', rfl, hp⟩, by simp⟩
      · rintro ⟨⟨a', rfl, hp⟩, rfl⟩
        exact ⟨_, ⟨c, a', rfl, rfl, rfl⟩, (ih _ _).mpr ⟨hp, by simp⟩⟩

/-- Anchored at both ends, the expressions of a pattern's characters match a text exactly when
it is in the glob language whose stars stand for texts without a line break. -/
theorem matchString_iff_glob (p n : List Char) :
    MatchString (concatOf (.assert .beginText :: (p.map pieceOf ++ [.assert .endText]))) n ↔
      Glob (· ≠ '\n') p n := by
  constructor
  · rintro ⟨⟨b, a⟩, q, htext, h⟩
    obtain ⟨_, hstart, hrest⟩ := (matches_concatOf_cons (by simp)).mp h
    obtain ⟨rfl, hbegin⟩ := matches_assert_iff.mp hstart
    -- the start anchor holds only with nothing before it
    obtain rfl : b = [] := by
      cases b with
      | nil => rfl
      | cons d b => cases hbegin
    obtain rfl : a = n := by simpa using htext
    exact ((matches_pieces_iff p [] a q).mp hrest).1
  · intro h
    refine ⟨⟨[], n⟩, ⟨n.reverse, []⟩, by simp, (matches_concatOf_cons (by simp)).mpr ?_⟩
    exact ⟨_, matches_assert_iff.mpr ⟨rfl, rfl⟩, (matches_pieces_iff p [] n _).mpr ⟨h, by simp⟩⟩

/-- **The registry matches a name with a pattern free of operators exactly when the name is in
the glob language whose stars stand for texts without a line break.** -/
theorem matchesName_iff_glob {p : String} (hp : OperatorFree p.toList) (n : String) :
    matchesName p n = true ↔ Glob (· ≠ '\n') p.toList n.toList := by
  rw [matchesName, matchesString_iff, compile_regexOf hp, ← matchString_iff_glob]
  constructor
  · rintro ⟨r, hr, h⟩
    rwa [Option.some.inj hr]
  · intro h
    exact ⟨_, rfl, h⟩

/-- So the registry matches a name with a pattern free of operators and stars exactly when the
name is the pattern. -/
theorem matchesName_iff_eq {p : String} (hp : OperatorFree p.toList) (hstar : '*' ∉ p.toList)
    (n : String) : matchesName p n = true ↔ n = p := by
  rw [matchesName_iff_glob hp, glob_iff_eq_of_star_not_mem hstar, String.toList_inj]

/-! ### The characters of valid patterns -/

theorem mem_intercalate_dot {c : Char} {secs : List (List Char)}
    (h : c ∈ ['.'].intercalate secs) : c = '.' ∨ ∃ s ∈ secs, c ∈ s := by
  induction secs with
  | nil => simp at h
  | cons s secs ih =>
    by_cases hne : secs = []
    · subst hne
      exact Or.inr ⟨s, List.mem_cons_self, by simpa using h⟩
    · rw [List.intercalate_cons_of_ne_nil hne] at h
      simp only [List.mem_append, List.mem_singleton] at h
      rcases h with (h | rfl) | h
      · exact Or.inr ⟨s, List.mem_cons_self, h⟩
      · exact Or.inl rfl
      · rcases ih h with h | ⟨t, ht, hc⟩
        · exact Or.inl h
        · exact Or.inr ⟨t, List.mem_cons_of_mem s ht, hc⟩

/-- A character of a name section is no operator of the reader. -/
theorem not_mem_operators {c : Char} (h : isAlnum c = true ∨ c = '_' ∨ c = '-') :
    c ∉ operators := by
  intro hop
  simp only [operators, List.mem_cons, List.not_mem_nil, or_false] at hop
  rcases hop with rfl | rfl | rfl | rfl | rfl | rfl | rfl | rfl | rfl | rfl | rfl | rfl <;>
    revert h <;> decide

/-- A valid pattern is made of dots, stars and characters that are no operators. -/
theorem operatorFree_of_isValid {p : String} (hp : isValid p = true) : OperatorFree p.toList := by
  obtain ⟨secs, -, hsecs, hsec⟩ := (isValid_iff p).mp hp
  intro c hc
  rw [hsecs] at hc
  rcases mem_intercalate_dot hc with rfl | ⟨s, hs, hcs⟩
  · exact Or.inr (Or.inl rfl)
  · rcases hsec s hs with rfl | ⟨hchars, -⟩
    · exact Or.inl (by simpa using hcs)
    · exact Or.inr (Or.inr (not_mem_operators (hchars c hcs)))

/-- **The regular expression of a valid pattern matches the glob language whose stars stand for
texts without a line break**, and so does the direct reading of that language; for a name
without a line break that is the glob language whose stars stand for any text. -/
theorem regexOf_matches_iff_glob (p n : String) (hp : isValid p = true) :
    ∃ r, Regex.compile (regexOf p) = some r ∧
      (Regex.MatchString r n.toList ↔ Glob (· ≠ '\n') p.toList n.toList) ∧
      (accepts p n = true ↔ Regex.MatchString r n.toList) ∧
      ('\n' ∉ n.toList →
        (Regex.MatchString r n.toList ↔ Glob (fun _ => True) p.toList n.toList)) := by
  refine ⟨_, compile_regexOf (operatorFree_of_isValid hp), matchString_iff_glob _ _, ?_, ?_⟩
  · rw [matchString_iff_glob]
    exact matchesFrom_iff_glob _ _
  · intro hn
    rw [matchString_iff_glob]
    refine ⟨fun h => h.of_forall_mem fun _ _ => trivial, fun h => h.of_forall_mem ?_⟩
    rintro c hc rfl
    exact hn hc

theorem regexOf_matches_iff_glob_of_dotted :
    isValid "ikreach.*" = true ∧
      ∃ r, Regex.compile (regexOf "ikreach.*") = some r ∧
        (Regex.MatchString r "ikreach.ik.jacobian".toList ↔
          Glob (· ≠ '\n') "ikreach.*".toList "ikreach.ik.jacobian".toList) ∧
        (accepts "ikreach.*" "ikreach.ik.jacobian" = true ↔
          Regex.MatchString r "ikreach.ik.jacobian".toList) ∧
        ('\n' ∉ "ikreach.ik.jacobian".toList →
          (Regex.MatchString r "ikreach.ik.jacobian".toList ↔
            Glob (fun _ => True) "ikreach.*".toList "ikreach.ik.jacobian".toList)) :=
  ⟨by decide, regexOf_matches_iff_glob "ikreach.*" "ikreach.ik.jacobian" (by decide)⟩

/-- **A star does not reach across a line break**: `*` is a valid pattern whose glob language
holds `a⏎b`, but its regular expression `^.*$` does not match `a⏎b`. -/
theorem regexOf_star_misses_line_break :
    isValid "*" = true ∧ Glob (fun _ => True) ['*'] ['a', '\n', 'b'] ∧
      ∃ r, Regex.compile (regexOf "*") = some r ∧ ¬Regex.MatchString r ['a', '\n', 'b'] := by
  have hstar : "*".toList = ['*'] := by decide
  have hfree : OperatorFree "*".toList := by
    rw [hstar]
    intro c hc
    exact .inl (List.mem_singleton.mp hc)
  refine ⟨by decide, glob_star.mpr ⟨['a', '\n', 'b'], [], rfl, fun _ _ => trivial,
    glob_nil.mpr rfl⟩, _, compile_regexOf hfree, ?_⟩
  rw [hstar, matchString_iff_glob, glob_star]
  rintro ⟨w, n', hwn, hw, hp⟩
  obtain rfl := glob_nil.mp hp
  rw [List.append_nil] at hwn
  exact hw '\n' (by rw [← hwn]; decide) rfl

end Pattern

end Logging

end ArmReach
