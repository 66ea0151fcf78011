import TestGrid.Rule.Basic

/-!
# The syntax of rules

How the rules of a component are written:

```text
pattern  := "…" | '…' | bare
bare     := range | !version | version       (a version with a star is a wildcard)
range    := bound | bound bound
bound    := (< | <= | > | >=) digits-and-dots
line     := component = pattern , … , pattern
          | component = [ pattern , … , pattern ]
```

A range is read through its tokens (`RangeToken.scan`), the limits and the runs
of digits and dots; whatever stands between them is passed over.
-/

namespace TestGrid

open Version

/-- Why a text is no rule or no line of rules. -/
inductive SyntaxFault where
  /-- A quote or bracket is opened and not closed. -/
  | unclosed (text : Text)
  /-- A range goes on after its second bound. -/
  | thirdBound (pattern : Text)
  /-- A range ends where a bound should go on. -/
  | endOfRange (pattern : Text)
  /-- A run of digits and dots stands in the place of a limit. -/
  | noLimit (token pattern : Text)
  /-- A second limit stands in the place of a version. -/
  | noVersion (limit : Limit) (pattern : Text)
  /-- A bound is no version. -/
  | badVersion (pattern : Text) (segment version : Text)
  /-- A range has no bound at all. -/
  | noBound (pattern : Text)
  /-- A line has no equals sign. -/
  | noEquals (line : Text)
  /-- A line has nothing in front of its equals sign. -/
  | noComponent (line : Text)
  /-- A segment of a bound has more digits than a number may have. This is a
      limit of numbers, and not of the syntax. -/
  | tooLong (digits : Nat)
  deriving DecidableEq, Repr

/-- The wording of a fault. -/
def SyntaxFault.message : SyntaxFault → String
  | unclosed text => s!"Version match rule is invalid: {text}"
  | thirdBound pattern => s!"Invalid range match rule: {pattern}"
  | endOfRange pattern => s!"Parse range match rule failed, unexpected EOF: {pattern}"
  | noLimit token pattern => s!"Comparison operator is invalid: {token} in {pattern}"
  | noVersion limit pattern => s!"Expected a version after '{limit.symbol}' in {pattern}"
  | badVersion pattern segment version =>
    let cause := (KeyFault.notNumeric segment version).message
    s!"Invalid version in range match rule {pattern}: {cause}"
  | noBound pattern => s!"Parse range match rule failed: {pattern}"
  | noEquals line => s!"Missing '=' in rule line: {line}"
  | noComponent line => s!"Missing component name in rule line: {line}"
  | tooLong digits => (KeyFault.tooLong digits).message

/-- A token of a range. -/
inductive RangeToken where
  | limit (l : Limit)
  | version (v : Text)
  deriving DecidableEq, Repr

namespace RangeToken

/-- The characters of the versions in ranges. -/
def isVersionChar (c : Char) : Bool := c.isDigit || c = '.'

/-- Puts a character in front of the version that the tokens start with. -/
def consVersion (c : Char) : List RangeToken → List RangeToken
  | version v :: ts => version (c :: v) :: ts
  | ts => version [c] :: ts

/-- The tokens of a range. A sign with an equals sign after it is one limit; an
    equals sign anywhere else is passed over like all other characters. -/
def scan : Text → List RangeToken
  | [] => []
  | '<' :: '=' :: r => limit .atMost :: scan r
  | '>' :: '=' :: r => limit .atLeast :: scan r
  | '<' :: r => limit .below :: scan r
  | '>' :: r => limit .above :: scan r
  | c :: r =>
    if isVersionChar c then
      if r.head?.any isVersionChar then consVersion c (scan r) else version [c] :: scan r
    else scan r

end RangeToken

namespace Rule

/-- Takes the marks off a text, without its blank margins, that starts with
    `opening`: one character on each side. It must end with `closing` then, or
    with `opening` if `closing` is empty. -/
def unwrap (opening closing text : Text) : Except SyntaxFault Text :=
  let closing := if closing.isEmpty then opening else closing
  let t := text.trim
  if opening.isPrefixOf t then
    if 1 < t.length && closing.isSuffixOf t then .ok (t.drop 1).dropLast
    else .error (.unclosed t)
  else .ok t

/-- The bound of two tokens of a range. -/
def boundOf (pattern : Text) (limit : Limit) (version : Text) : Except SyntaxFault Bound :=
  (Bound.of limit version).mapError fun
    | .notNumeric segment version => .badVersion pattern segment version
    | .tooLong digits => .tooLong digits

/-- At most as many bounds as a number says, read from the tokens of a range. -/
def readBounds (pattern : Text) : Nat → List RangeToken → Except SyntaxFault (List Bound)
  | _, [] => .ok []
  | 0, _ :: _ => .error (.thirdBound pattern)
  | _ + 1, [_] => .error (.endOfRange pattern)
  | _ + 1, .version v :: _ :: _ => .error (.noLimit v pattern)
  | _ + 1, .limit l :: .limit _ :: _ => .error (.noVersion l pattern)
  | n + 1, .limit l :: .version v :: ts => do
    let b ← boundOf pattern l v
    return b :: (← readBounds pattern n ts)

/-- The rule of a range. -/
def ofRange (pattern : Text) : Except SyntaxFault Rule := do
  match ← readBounds pattern 2 (RangeToken.scan pattern) with
  | [b] => return range b
  | [b, c] => return interval b c
  | _ => throw (.noBound pattern)

/-- The rule of a version, which is a wildcard if it has a star. -/
def ofVersion (excluded : Bool) (v : Text) : Rule :=
  if v.contains '*' then wildcard v excluded else literal v excluded

/-- The rule of a bare pattern. -/
def ofBare (t : Text) : Except SyntaxFault Rule :=
  match t with
  | '>' :: _ => ofRange t
  | '<' :: _ => ofRange t
  | '!' :: r => .ok (ofVersion true (Text.trim r))
  | _ => .ok (ofVersion false t)

/-- The rule of a pattern, which may stand in double quotes, and within these in
    single ones. -/
def ofPattern (pattern : Text) : Except SyntaxFault Rule := do
  let t ← unwrap ['"'] [] pattern
  let t ← unwrap ['\''] [] t
  ofBare t.trim

end Rule

/-- The rules that a line states for a component. -/
structure Statement where
  component : Text
  rules : List Rule
  deriving DecidableEq

namespace Statement

/-- The rules of a list of patterns, without the blank ones among them. -/
def readPatterns (t : Text) : Except SyntaxFault (List Rule) := do
  let t ← Rule.unwrap ['['] [']'] t
  ((t.pieces (· = ',')).filter (!·.trim.isEmpty)).mapM Rule.ofPattern

/-- The statement of a line. -/
def ofLine (line : Text) : Except SyntaxFault Statement :=
  match line.cut '=' with
  | none => .error (.noEquals line)
  | some (component, patterns) =>
    let component := component.trim
    if component.isEmpty then .error (.noComponent line)
    else return ⟨component, ← readPatterns patterns⟩

end Statement

end TestGrid
