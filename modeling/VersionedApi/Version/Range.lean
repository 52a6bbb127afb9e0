import VersionedApi.Version.Number

/-!
# Version constraints

* `Interval` : a stretch of the axis, an absent end being open; `Interval.contains`;
* `Range` : a constraint as it was written, with the interval that it denotes;
* `Range.read` : the reader. A constraint is a plain version, an operator before one (`Operator`),
  a whole major version `3.*`, or two versions around ` - `;
* `introduced?` : the first supported version in an interval, unless that is the first of all;
* `removed?` : the supported version right behind the last one in an interval. Timelines are
  ascending; neither function looks at a version that is not supported.
-/

namespace VersionedApi.Version

open VersionedApi.Text

/-- The versions from `first` to `last`; an end that is `none` is open. -/
structure Interval where
  first : Option Number
  last : Option Number
deriving DecidableEq, Repr

namespace Interval

def contains (i : Interval) (n : Number) : Bool :=
  i.first.all (· ≤ n) && i.last.all (n ≤ ·)

def point (n : Number) : Interval := ⟨some n, some n⟩

end Interval

/-- A constraint, trimmed, and its interval. -/
structure Range extends Interval where
  text : String
deriving DecidableEq, Repr

/-- What may stand before a version in a constraint. -/
inductive Operator where
  | above
  | atLeast
  | below
  | atMost
  | withinMajor
deriving DecidableEq, Repr

namespace Operator

def read? : List Char → Option (Operator × List Char)
  | '>' :: '=' :: rest => some (atLeast, rest)
  | '<' :: '=' :: rest => some (atMost, rest)
  | '>' :: rest => some (above, rest)
  | '<' :: rest => some (below, rest)
  | '~' :: rest => some (withinMajor, rest)
  | _ => none

/-- The interval of an operator before a version; `none` if an end falls off the axis. -/
def interval? : Operator → Number → Option Interval
  | above, n => n.next?.map fun m => ⟨some m, none⟩
  | atLeast, n => some ⟨some n, none⟩
  | below, n => n.previous?.map fun m => ⟨none, some m⟩
  | atMost, n => some ⟨none, some n⟩
  | withinMajor, n => n.ceil?.map fun m => ⟨some n, some m⟩

end Operator

namespace Interval

/-- Two runs of digits, of any script, around a point. -/
def isPointShape (cs : List Char) : Bool :=
  match cs.dropWhile isDigit with
  | '.' :: minor => !(cs.takeWhile isDigit).isEmpty && !minor.isEmpty && minor.all isDigit
  | _ => false

def wholeMajor? (cs : List Char) : Option (List Char) :=
  let major := cs.takeWhile isDigit
  if cs.dropWhile isDigit = ['.', '*'] && !major.isEmpty then some major else none

/-- Ten tenths from a whole major version on; `none` if that is no numeral or off the axis. -/
def ofMajor? (major : List Char) : Option Interval :=
  if isNumeral major then do
    let first ← Number.ofTenths? (10 * value major : Nat)
    let last ← Number.ofTenths? (10 * value major + 10 : Nat)
    return ⟨some first, some last⟩
  else none

/-- The interval of a constraint that is not a range. -/
def readSingle (cs : List Char) : Except Fault Interval :=
  let refused := Fault.unrecognizedSchema (String.ofList cs)
  match Operator.read? cs with
  | some (op, number) =>
    if isPointShape number then do
      let n ← Number.read (String.ofList number)
      match op.interval? n with
      | some i => .ok i
      | none => .error refused
    else .error refused
  | none =>
    if isPointShape cs then do
      let n ← Number.read (String.ofList cs)
      return point n
    else
      match (wholeMajor? cs).bind ofMajor? with
      | some i => .ok i
      | none => .error refused

def hasOperator (cs : List Char) : Bool := (Operator.read? (trimStart cs)).isSome

/-- The interval from the start of `lower` to the end of `upper`, the two sides of the range
`whole`. -/
def readRange (whole lower upper : List Char) : Except Fault Interval :=
  let text := String.ofList whole
  if hasOperator lower || hasOperator upper then .error (.operatorsWithinRange text)
  else
    match readSingle (trim lower), readSingle (trim upper) with
    | .ok low, .ok high =>
      match low.first, high.last with
      | some s, some e =>
        if e < s then .error (.lopsidedRange text)
        else if s = e then .error (.badRangeUse text)
        else .ok ⟨some s, some e⟩
      | s, e => .ok ⟨s, e⟩
    | _, _ => .error (.unrecognizedSchema text)

end Interval

namespace Range

def read (s : String) : Except Fault Range :=
  let whole := trim s.toList
  let interval := match cutAt [' ', '-', ' '] whole with
    | some (lower, upper) => Interval.readRange whole lower upper
    | none => Interval.readSingle whole
  interval.map fun i => { i with text := String.ofList whole }

/-- The constraint of a version and all behind it, by way of its text. -/
def since (n : Number) : Except Fault Range := read (">=" ++ n.text)

/-- The version that a text denotes lies in the range; a text that denotes none does not. -/
def matchesText (r : Range) (s : String) : Bool :=
  match Number.ofText? s.toList with
  | some n => r.contains n
  | none => false

end Range

/-! ## Timelines of supported versions -/

/-- Where an interval begins on a timeline; what holds from the very first version on is introduced
nowhere. -/
def introduced? (i : Interval) (timeline : List Number) : Option Number :=
  (timeline.find? i.contains).filter fun n => timeline.head? != some n

/-- Where an interval is over: the version behind the last one that it contains. -/
def removed? (i : Interval) : List Number → Option Number
  | [] => none
  | n :: later =>
    if later.any i.contains then removed? i later
    else if i.contains n then later.head? else none

end VersionedApi.Version
