import TestGrid.Text.Numeral

/-!
# Version keys

Versions are compared by their *keys*: the numbers of their first four
segments, where a missing segment counts as zero. Segments stand between dots;
empty ones are passed over, so `1..2`, `.1.2` and `1.2.` all have the key of
`1.2`. A version such as `2.7-SNAPSHOT` has a qualifier, which is not part of
its *numeric part*.

* `Key.ofText`: the key of a version, or the first of its four segments which
  is no number;
* `Key.toText`: the version that writes a key.
-/

namespace TestGrid.Version

/-- A version without its qualifier: what stands before the first hyphen. A
    hyphen in front is no beginning of a qualifier. -/
def numericPart : Text → Text
  | '-' :: r => '-' :: r
  | v => v.takeWhile (· != '-')

/-- The four numbers by which versions are compared, the most significant one
    first. -/
structure Key where
  major : Int
  minor : Int
  patch : Int
  build : Int
  deriving DecidableEq, Repr

/-- Why a version has no key. -/
inductive KeyFault where
  /-- One of the first four segments of the version is not made of digits. -/
  | notNumeric (segment version : Text)
  /-- A segment has more digits than a number may have. -/
  | tooLong (digits : Nat)
  deriving DecidableEq, Repr

/-- The most digits that a segment may have, leading zeros included. -/
def digitLimit : Nat := 4300

/-- The wording of a fault. -/
def KeyFault.message : KeyFault → String
  | .notNumeric segment version => s!"Invalid version segment '{segment}' in version: {version}"
  | .tooLong digits =>
    s!"Exceeds the limit ({digitLimit} digits) for integer string conversion: value has {digits} " ++
      "digits; use sys.set_int_max_str_digits() to increase the limit"

namespace Key

/-- The number of segments of a key. -/
def width : Nat := 4

/-- The segments of a version: its pieces between dots, without the empty ones. -/
def segments (v : Text) : List Text := (v.trim.pieces (· = '.')).filter (!·.isEmpty)

/-- The number of one segment of a version. -/
def segmentValue (version segment : Text) : Except KeyFault Nat :=
  if segment.isNumeral then
    if segment.length ≤ digitLimit then .ok segment.numeralValue
    else .error (.tooLong segment.length)
  else .error (.notNumeric segment version)

/-- The key with the given segments, the rest of which are zero. -/
def ofSegments (ns : List Nat) : Key :=
  ⟨ns.getD 0 0, ns.getD 1 0, ns.getD 2 0, ns.getD 3 0⟩

/-- The key of a version. -/
def ofText (v : Text) : Except KeyFault Key :=
  return ofSegments (← ((segments v).take width).mapM (segmentValue v))

/-- The segments of a key. -/
def toList (k : Key) : List Int := [k.major, k.minor, k.patch, k.build]

/-- The version that writes a key: its four numbers around dots. -/
def toText (k : Key) : Text := Text.joined ['.'] (k.toList.map Text.ofInt)

/-- Keys are compared by their first segment that differs. -/
def order (a b : Key) : Ordering :=
  (compare a.major b.major).then <| (compare a.minor b.minor).then <|
    (compare a.patch b.patch).then (compare a.build b.build)

instance : Ord Key := ⟨order⟩

end Key

end TestGrid.Version
