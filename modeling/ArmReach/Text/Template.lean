/-!
# Format templates without arguments

A format template is text with `%` directives: flags `#0+- `, an optional width, an optional
precision after `.`, optional argument indices `[n]`, and a verb character. Table titles are
such templates given no arguments, so every directive prints a complaint in its place:

* `%%` prints `%`, whatever width or precision stands between;
* a directive whose argument index is malformed or out of range prints `%!v(BADINDEX)`;
* any other directive prints `%!v(MISSING)`, for its verb `v`;
* a width or precision given as `*` prints `%!(BADWIDTH)` or `%!(BADPREC)` first;
* a template that ends inside a directive prints `%!(NOVERB)`.

Numbers in a directive above a million end the template, as an unfinished directive.
-/

namespace ArmReach

namespace Text

namespace Template

/-- Whether a character is an ASCII digit. -/
def isDigit (c : Char) : Bool := '0' ≤ c && c ≤ '9'

/-- Reads decimal digits after the value `acc` read so far: the value, whether any digit was
there, and the rest. A value above a million before the next digit gives up and consumes
everything, so the directive is left unfinished. -/
def readDigits (acc : Nat) (seen : Bool) : List Char → Nat × Bool × List Char
  | [] => (acc, seen, [])
  | c :: cs =>
    if isDigit c then
      if acc > 1000000 then (0, false, [])
      else readDigits (acc * 10 + (c.toNat - '0'.toNat)) true cs
    else (acc, seen, c :: cs)

/-- Reads a decimal number from the front, as `readDigits` does from nothing. -/
def readNumber (cs : List Char) : Nat × Bool × List Char := readDigits 0 false cs

/-- Reads an argument index `[n]` from the front. With no argument to index, any index makes
the directive bad: the result says whether an index was there, whether it was well formed,
and the rest. -/
def readIndex : List Char → Bool × Bool × List Char
  | '[' :: cs =>
    if cs.length < 2 then (true, false, cs) else
    match cs.findIdx? (· == ']') with
    | none => (true, false, cs)
    | some j =>
      let inside := cs.take j
      let after := cs.drop (j + 1)
      match readNumber inside with
      | (_, true, []) => (true, true, after)
      | _ => (true, false, after)
  | cs => (false, false, cs)

/-- The state of a directive while it is read: whether its argument index went wrong, and
whether the last thing read was an index. -/
structure Directive where
  bad : Bool := false
  afterIndex : Bool := false
  output : String := ""

/-- Reads an index, if one stands at the front, into the directive. -/
def Directive.index (d : Directive) (cs : List Char) : Directive × List Char :=
  let (found, ok, rest) := readIndex cs
  if found then ({ d with bad := true, afterIndex := ok }, rest) else ({ d with afterIndex := false }, rest)

/-- Expands one directive, the `%` already read: what it prints and the rest of the template,
or `none` for the rest when the template ends inside it. -/
def directive (cs : List Char) : String × Option (List Char) :=
  let cs := cs.dropWhile fun c => c == '#' || c == '0' || c == '+' || c == '-' || c == ' '
  let (d, cs) := Directive.index {} cs
  -- width
  let (d, cs) := match cs with
    | '*' :: rest => ({ d with output := d.output ++ "%!(BADWIDTH)", afterIndex := false }, rest)
    | _ =>
      let (_, present, rest) := readNumber cs
      ({ d with bad := d.bad || (d.afterIndex && present) }, rest)
  -- precision
  let (d, cs) := match cs with
    | '.' :: c :: rest =>
      let d := { d with bad := d.bad || d.afterIndex }
      let (d, cs) := d.index (c :: rest)
      match cs with
      | '*' :: rest => ({ d with output := d.output ++ "%!(BADPREC)", afterIndex := false }, rest)
      | _ => let (_, _, rest) := readNumber cs; (d, rest)
    | _ => (d, cs)
  let (d, cs) := if d.afterIndex then (d, cs) else d.index cs
  match cs with
  | [] => (d.output ++ "%!(NOVERB)", none)
  | v :: rest =>
    if v == '%' then (d.output ++ "%", some rest)
    else if d.bad then (d.output ++ "%!" ++ v.toString ++ "(BADINDEX)", some rest)
    else (d.output ++ "%!" ++ v.toString ++ "(MISSING)", some rest)

/-- Expands a template with no arguments; `fuel` bounds the directives read, and each
directive takes at least one character. -/
def expandFuel : Nat → List Char → String
  | 0, _ => ""
  | fuel + 1, cs =>
    let plain := cs.takeWhile (· != '%')
    match cs.dropWhile (· != '%') with
    | [] => String.ofList plain
    | _ :: rest =>
      match directive rest with
      | (out, none) => String.ofList plain ++ out
      | (out, some more) => String.ofList plain ++ out ++ expandFuel fuel more

end Template

/-- What a format template prints when it is given no arguments. -/
def expandTemplate (s : String) : String :=
  Template.expandFuel (s.length + 1) s.toList

end Text

end ArmReach
