import VersionedApi.Fault
import VersionedApi.Text.Cut
import VersionedApi.Text.Word

/-!
# The version axis

* `Number` : a version such as `3.4`, held as 34 tenths, between `axisMin` and `axisMax`;
* `Number.next?`, `Number.previous?` : its neighbours, `none` at an end of the axis;
* `Number.ceil?` : the next whole major version, rounded up;
* `Number.text` and `Number.read` : how it is written and read. A longer minor part is rounded half
  up to a tenth;
* `compareDotted` : the order of texts by their dot-separated parts as numbers, so that `1.10` comes
  after `1.2`. A part that is no number below 2^64 counts as zero, as does a part that is not there;
  texts with equal parts are ordered by their characters.
-/

namespace VersionedApi.Version

open VersionedApi.Text

def axisMin : Int := -2147483648

def axisMax : Int := 2147483647

/-- The number of tenths, if the axis reaches so far. -/
def onAxis? (t : Int) : Option Int := if axisMin ≤ t ∧ t ≤ axisMax then some t else none

structure Number where
  tenths : Int
  axisMin_le : axisMin ≤ tenths
  le_axisMax : tenths ≤ axisMax
deriving DecidableEq, Repr

namespace Number

/-- The version with this many tenths, if the axis has it. -/
def ofTenths? (t : Int) : Option Number :=
  if h : axisMin ≤ t ∧ t ≤ axisMax then some ⟨t, h.1, h.2⟩ else none

/-- The first version of an API that names none, `1.0`. -/
def one : Number := ⟨10, by decide, by decide⟩

instance : Inhabited Number := ⟨one⟩

instance : LE Number := ⟨fun a b => a.tenths ≤ b.tenths⟩

instance : LT Number := ⟨fun a b => a.tenths < b.tenths⟩

instance (a b : Number) : Decidable (a ≤ b) := inferInstanceAs (Decidable (a.tenths ≤ b.tenths))

instance (a b : Number) : Decidable (a < b) := inferInstanceAs (Decidable (a.tenths < b.tenths))

instance : Max Number := maxOfLe

def next? (n : Number) : Option Number := ofTenths? (n.tenths + 1)

def previous? (n : Number) : Option Number := ofTenths? (n.tenths - 1)

/-- Rounded up to a whole major version, by way of the whole version at or below it: both have to
lie on the axis. -/
def ceil? (n : Number) : Option Number :=
  (ofTenths? (n.tenths / 10 * 10)).bind fun floor =>
    if n.tenths % 10 = 0 then some floor else ofTenths? (floor.tenths + 10)

def text (n : Number) : String :=
  let size := n.tenths.natAbs
  String.ofList ((if n.tenths < 0 then ['-'] else []) ++
    digits (size / 10) ++ '.' :: digits (size % 10))

/-- Tenths of a minor part: its first digit, one more if the second is five or above. -/
def minorTenths : List Char → Nat
  | [] => 0
  | [d] => value [d]
  | d :: e :: _ => value [d] + if 5 ≤ value [e] then 1 else 0

/-- The version that a text of the form `3.4` denotes; the blanks around it do not count. The major
part, ten times it and the sum with the minor part must each be on the axis. -/
def ofText? (cs : List Char) : Option Number := do
  let (major, minor) ← cutAt ['.'] (trim cs)
  if isNumeral major && isNumeral minor then
    let whole ← onAxis? (value major)
    let tenths ← onAxis? (whole * 10)
    ofTenths? (tenths + minorTenths minor)
  else none

/-- `ofText?` with the fault that a text of another form has. -/
def read (s : String) : Except Fault Number :=
  match ofText? s.toList with
  | some n => .ok n
  | none => .error (.unrecognizedSchema (trimmed s))

end Number

/-! ## Dotted texts -/

/-- The greatest number that a part may denote. -/
def partMax : Nat := 18446744073709551615

def dottedParts (s : String) : List Nat :=
  (pieces (· == '.') s.toList).map fun p => (natural? partMax (trim p)).getD 0

/-- Lists of numbers compared in order, the shorter one continued with zeros. -/
def compareParts : List Nat → List Nat → Ordering
  | [], [] => .eq
  | [], r :: rs => (compare 0 r).then (compareParts [] rs)
  | l :: ls, [] => (compare l 0).then (compareParts ls [])
  | l :: ls, r :: rs => (compare l r).then (compareParts ls rs)

def compareDotted (a b : String) : Ordering :=
  (compareParts (dottedParts a) (dottedParts b)).then (compare a b)

end VersionedApi.Version
