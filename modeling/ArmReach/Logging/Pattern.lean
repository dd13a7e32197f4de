import ArmReach.Logging.Level
import ArmReach.Regex.Search
/-!
# Logger name patterns

Logger names are dotted paths such as `ikreach.ik.jacobian`. A pattern is a dotted path whose
sections are names or `*`; a name section is ASCII letters, digits, `_` and `-`, and starts and
ends with a letter or digit.

A pattern is matched against a name through the regular expression written for it
(`regexOf`): anchored at both ends, each `*` written `.*`, each dot escaped, every other
character as it is. So a `*` stands for any run of characters but a line break, dots included:
`a.*.c` matches `a.b.c` and `a.b.x.c` but not `a.c`. Characters of a pattern that validation
refuses keep their meaning in the regular expression, so `a+` matches `aa`, and `(`, which does
not compile, matches nothing.

A level setting is written `pattern=level`; it is refused when it has no `=`, when the pattern
is not valid, or when the level is not a level name.
-/

namespace ArmReach

namespace Logging

/-- A pattern of logger names and the name of the level for them. -/
structure PatternLevel where
  pattern : String
  level : String
  deriving Inhabited

namespace Pattern

/-- Whether a character is an ASCII letter or digit. -/
def isAlnum (c : Char) : Bool :=
  ('a' ≤ c && c ≤ 'z') || ('A' ≤ c && c ≤ 'Z') || ('0' ≤ c && c ≤ '9')

/-- Whether a section of a pattern is `*`, or a name: letters, digits, `_` and `-`, starting and
ending with a letter or digit. -/
def isSection (s : List Char) : Bool :=
  s == ['*'] ||
    (s.all (fun c => isAlnum c || c == '_' || c == '-') &&
      (s.head?.map isAlnum).getD false && (s.getLast?.map isAlnum).getD false)

/-- Whether a text is a valid pattern: sections separated by single dots. -/
def isValid (pattern : String) : Bool :=
  (pattern.toList.splitOn '.').all isSection

/-- The regular expression text of one character of a pattern: `.*` for a star, an escaped dot
for a dot, the character itself otherwise. -/
def regexText (c : Char) : String :=
  if c = '*' then ".*" else if c = '.' then "\\." else c.toString

/-- The regular expression a pattern is matched with: its characters in order, between `^`
and `$`. -/
def regexOf (pattern : String) : String :=
  "^" ++ String.join (pattern.toList.map regexText) ++ "$"

/-- Whether a pattern matches a logger name: its regular expression matches the name. -/
def matchesName (pattern name : String) : Bool := Regex.matchesString (regexOf pattern) name

end Pattern

namespace PatternLevel

/-- Reads `pattern=level`, split at the first `=`. -/
def parse (s : String) : Except String PatternLevel :=
  match s.toList.splitOn '=' with
  | [_] => .error ("logger level " ++ Text.quote s ++ " is not of the form pattern=level")
  | first :: rest =>
    let pattern := String.ofList first
    let level := "=".intercalate (rest.map String.ofList)
    if !Pattern.isValid pattern then .error ("invalid logger pattern " ++ Text.quote pattern)
    else match Level.parse level with
      | .error e => .error e
      | .ok _ => .ok ⟨pattern, level⟩
  | [] => .error ("logger level " ++ Text.quote s ++ " is not of the form pattern=level")

end PatternLevel

end Logging

end ArmReach
