import ArmReach.Regex.Parse
/-!
# Regular expressions: searching a text

`Regex.matchesString e s` says whether the expression `e` matches somewhere in the text `s`,
as the standard library's `regexp.MatchString` does; an expression RE2 refuses matches
nothing.

The search works by derivatives. At a place of the text, with the character `prev` behind it:

* `Node.nullable r prev next` says whether `r` matches the empty text there, `next` being the
  character ahead. Only the assertions look at the two characters.
* `Node.deriv r prev c` is what is left of `r` once it has read the character `c` ahead.
* `Node.matchPrefix` reads the text ahead character by character and says whether `r` matches
  up to some place; `Node.search` tries every place to start from.

The derivatives are kept small by `cat'` and `alt'`, which drop what cannot match and
alternatives already there.
-/

namespace ArmReach

namespace Regex

/-! ### Characters and places -/

/-- Whether an assertion holds between the characters `prev` and `next` (none at the ends of
the text). -/
def Assertion.holds (prev next : Option Char) : Assertion → Bool
  | .beginText => prev.isNone
  | .endText => next.isNone
  | .beginLine => prev.all (· == '\n')
  | .endLine => next.all (· == '\n')
  | .wordBoundary => (prev.any isWordChar) != (next.any isWordChar)
  | .noWordBoundary => (prev.any isWordChar) == (next.any isWordChar)

/-- Whether a class item holds the code point `c`, or with case folding a code point of its
orbit. -/
def ClassItem.mem (fold : Bool) (c : Nat) : ClassItem → Bool
  | .range lo hi => (caseVariants fold c).any fun d => lo ≤ d && d ≤ hi
  | .named runs negated =>
    ((caseVariants fold c).any fun d => runs.any fun (lo, hi) => lo ≤ d && d ≤ hi) != negated

/-- Whether a position reading the set `s` reads the character `c`. -/
def CharSet.mem (c : Char) : CharSet → Bool
  | .lit d fold => (caseVariants fold c.toNat).contains d
  | .any nl => nl || c != '\n'
  | .cls items negated fold => (items.any (·.mem fold c.toNat)) != negated

/-! ### Derivatives -/

namespace Node

/-- Whether `r` matches the empty text at the place between `prev` and `next`. -/
def nullable (prev next : Option Char) : Node → Bool
  | .noMatch => false
  | .empty => true
  | .chars _ => false
  | .assert a => a.holds prev next
  | .cat r s => r.nullable prev next && s.nullable prev next
  | .alt r s => r.nullable prev next || s.nullable prev next
  | .rep r min max => min == 0 || (r.nullable prev next && max.all (min ≤ ·))

/-- `r` then `s`, with what cannot match and the empty text taken out. -/
def cat' : Node → Node → Node
  | .noMatch, _ => .noMatch
  | _, .noMatch => .noMatch
  | .empty, s => s
  | r, .empty => r
  | r, s => .cat r s

/-- Whether `r` is one of the alternatives of `s`. -/
def isBranch (r : Node) : Node → Bool
  | .alt a b => r == .alt a b || r == a || r.isBranch b
  | s => r == s

/-- `r` or `s`, with what cannot match taken out and the alternatives of `r` added to those of
`s` that differ from them. -/
def alt' : Node → Node → Node
  | .noMatch, s => s
  | .alt a b, s => alt' a (alt' b s)
  | r, s => if s == .noMatch then r else if r.isBranch s then s else .alt r s

/-- What is left of `r` after reading the character `c`, at a place with `prev` behind it. -/
def deriv (prev : Option Char) (c : Char) : Node → Node
  | .noMatch | .empty | .assert _ => .noMatch
  | .chars s => if s.mem c then .empty else .noMatch
  | .cat r s =>
    alt' (cat' (r.deriv prev c) s) (if r.nullable prev (some c) then s.deriv prev c else .noMatch)
  | .alt r s => alt' (r.deriv prev c) (s.deriv prev c)
  | .rep r min max =>
    if max == some 0 || max.any (· < min) then .noMatch
    else
      -- copies that match the empty text before the one reading `c` lift the least count
      cat' (r.deriv prev c)
        (.rep r (if r.nullable prev (some c) then 0 else min - 1) (max.map (· - 1)))

/-- Whether `r` matches from a place with `prev` behind it and `rest` ahead up to some place. -/
def matchPrefix (r : Node) (prev : Option Char) : List Char → Bool
  | [] => r.nullable prev none
  | c :: rest => r.nullable prev (some c) || (r.deriv prev c).matchPrefix (some c) rest

/-- Whether `r` matches from some place of `rest` on, `prev` being the character before it. -/
def searchFrom (r : Node) (prev : Option Char) : List Char → Bool
  | [] => r.matchPrefix prev []
  | c :: rest => r.matchPrefix prev (c :: rest) || r.searchFrom (some c) rest

/-- Whether `r` matches somewhere in a text. -/
def search (r : Node) (text : List Char) : Bool := r.searchFrom none text

end Node

/-- Whether the regular expression `e` matches somewhere in `s`; an expression that RE2
refuses matches nothing. -/
def matchesString (e s : String) : Bool :=
  match compile e with
  | some r => r.search s.toList
  | none => false

end Regex

end ArmReach
