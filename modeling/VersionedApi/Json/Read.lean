import VersionedApi.Decimal.Shortest
import VersionedApi.Json.Value

/-!
# Reading JSON text

`Value.read?` is the value of a text, or `none` if the text is not JSON. Of equal keys in an object
the last counts.

Integers that fit into 64 bits stay integers; all other numbers are doubles. Of the digits of such a
number those count that fit into a significand of 64 bits (`absorb`); `Double.scaled?` then makes a
double of the significand and the power of ten. A number beyond the greatest double is not JSON.
-/

namespace VersionedApi.Json

def isSpace (c : Char) : Bool := c == ' ' || c == '\t' || c == '\n' || c == '\r'

def skipSpace (cs : List Char) : List Char := cs.dropWhile isSpace

def hexValue? (c : Char) : Option Nat :=
  if '0' ≤ c && c ≤ '9' then some (c.toNat - 48)
  else if 'a' ≤ c && c ≤ 'f' then some (c.toNat - 87)
  else if 'A' ≤ c && c ≤ 'F' then some (c.toNat - 55)
  else none

def hexNumber? (cs : List Char) : Option Nat :=
  cs.foldlM (fun n c => (hexValue? c).map (16 * n + ·)) 0

/-- A character escaped by one letter. -/
def unescaped? (c : Char) : Option Char :=
  match c with
  | '\"' => some '\"'
  | '\\' => some '\\'
  | '/' => some '/'
  | 'b' => some (Char.ofNat 8)
  | 'f' => some (Char.ofNat 12)
  | 'n' => some '\n'
  | 'r' => some '\r'
  | 't' => some '\t'
  | _ => none

/-- The character of a code unit that is no surrogate. -/
def plainUnit? (u : Nat) : Option Char :=
  if 0xD800 ≤ u && u ≤ 0xDFFF then none else some (Char.ofNat u)

/-- The character of a pair of surrogates. -/
def pairedUnit? (high low : Nat) : Option Char :=
  if 0xD800 ≤ high && high ≤ 0xDBFF && 0xDC00 ≤ low && low ≤ 0xDFFF then
    some (Char.ofNat (0x10000 + (high - 0xD800) * 1024 + (low - 0xDC00)))
  else none

/-- The characters of a string up to its closing quote, and what follows it. -/
def stringBody? : List Char → Option (List Char × List Char)
  | [] => none
  | '\"' :: rest => some ([], rest)
  | '\\' :: 'u' :: a :: b :: c :: d :: rest =>
    (hexNumber? [a, b, c, d]).bind fun unit =>
      match plainUnit? unit with
      | some ch => (stringBody? rest).map fun (s, r) => (ch :: s, r)
      | none =>
        match rest with
        | '\\' :: 'u' :: e :: f :: g :: h :: rest =>
          ((hexNumber? [e, f, g, h]).bind (pairedUnit? unit)).bind fun ch =>
            (stringBody? rest).map fun (s, r) => (ch :: s, r)
        | _ => none
  | '\\' :: c :: rest =>
    (unescaped? c).bind fun ch => (stringBody? rest).map fun (s, r) => (ch :: s, r)
  | c :: rest =>
    if c.toNat < 32 || c == '\\' then none
    else (stringBody? rest).map fun (s, r) => (c :: s, r)

def quotedString? : List Char → Option (String × List Char)
  | '\"' :: rest => (stringBody? rest).map fun (s, r) => (String.ofList s, r)
  | _ => none

structure Numeral where
  negative : Bool
  whole : List Char
  fraction : Option (List Char)
  power : Option Int

def fraction? : List Char → Option (Option (List Char) × List Char)
  | '.' :: cs =>
    let ds := cs.takeWhile Text.isAsciiDigit
    if ds.isEmpty then none else some (some ds, cs.dropWhile Text.isAsciiDigit)
  | cs => some (none, cs)

def power? : List Char → Option (Option Int × List Char)
  | c :: cs =>
    if c == 'e' || c == 'E' then
      let (negative, ds) := match cs with
        | '+' :: rest => (false, rest)
        | '-' :: rest => (true, rest)
        | _ => (false, cs)
      let numeral := ds.takeWhile Text.isAsciiDigit
      let size : Int := Text.value numeral
      if numeral.isEmpty then none
      else some (some (if negative then -size else size), ds.dropWhile Text.isAsciiDigit)
    else some (none, c :: cs)
  | [] => some (none, [])

/-- The number at the start of a text, and what follows it. -/
def numeral? (cs : List Char) : Option (Numeral × List Char) := do
  let (negative, cs) := match cs with
    | '-' :: rest => (true, rest)
    | _ => (false, cs)
  let whole := cs.takeWhile Text.isAsciiDigit
  if whole.isEmpty || (whole.length != 1 && whole.head? == some '0') then none
  let (fraction, rest) ← fraction? (cs.dropWhile Text.isAsciiDigit)
  let (power, rest) ← power? rest
  return ({ negative, whole, fraction, power }, rest)

/-- Digits join a significand as long as it stays below `2 ^ 64`: the significand, and the digits
that are left. -/
def absorb (significand : Nat) : List Char → Nat × List Char
  | [] => (significand, [])
  | c :: cs =>
    let next := 10 * significand + Text.value [c]
    if next < Nat.pow 2 64 then absorb next cs else (significand, c :: cs)

/-- The double that a numeral is taken for. Digits before the point that are left over count as
zeros; digits behind it that are left over do not count at all. -/
def Numeral.double? (n : Numeral) : Option Double :=
  let fraction := n.fraction.getD []
  let (whole, zeros) := absorb 0 n.whole
  let (significand, ignored) := absorb whole fraction
  let places : Int := fraction.length - ignored.length
  Double.scaled? significand (zeros.length - places + n.power.getD 0)

/-- The number that a numeral denotes: an integer of at most 64 bits, or a double. There is no
negative integer zero. -/
def Numeral.number? (n : Numeral) : Option Number :=
  let size := Text.value n.whole
  if n.fraction.isNone && n.power.isNone &&
      (if n.negative then 0 < size && size ≤ Nat.pow 2 63 else size < Nat.pow 2 64) then
    some (.integer (if n.negative then -size else size))
  else n.double?.map fun d => .double { d.shortest with negative := n.negative }

def maxDepth : Nat := 127

mutual

/-- A value at the start of a text without blanks, and what follows it. The first argument bounds
the number of steps, the second the depth. -/
def value? : Nat → Nat → List Char → Option (Value × List Char)
  | 0, _, _ => none
  | steps + 1, depth, cs =>
    match cs with
    | 'n' :: 'u' :: 'l' :: 'l' :: rest => some (.null, rest)
    | 't' :: 'r' :: 'u' :: 'e' :: rest => some (.bool true, rest)
    | 'f' :: 'a' :: 'l' :: 's' :: 'e' :: rest => some (.bool false, rest)
    | '\"' :: _ => (quotedString? cs).map fun (s, rest) => (.string s, rest)
    | '[' :: rest =>
      match depth, skipSpace rest with
      | 0, _ => none
      | _ + 1, ']' :: rest => some (.array [], rest)
      | depth + 1, rest => (items? steps depth rest).map fun (vs, rest) => (.array vs, rest)
    | '\x7b' :: rest =>
      match depth, skipSpace rest with
      | 0, _ => none
      | _ + 1, '\x7d' :: rest => some (.object [], rest)
      | depth + 1, rest => (entries? steps depth rest).map fun (es, rest) => (.object es, rest)
    | _ => do
      let (numeral, rest) ← numeral? cs
      let n ← numeral.number?
      return (.number n, rest)

def items? : Nat → Nat → List Char → Option (List Value × List Char)
  | 0, _, _ => none
  | steps + 1, depth, cs =>
    (value? steps depth cs).bind fun (v, rest) =>
      match skipSpace rest with
      | ']' :: rest => some ([v], rest)
      | ',' :: rest => (items? steps depth (skipSpace rest)).map fun (vs, rest) => (v :: vs, rest)
      | _ => none

def entries? : Nat → Nat → List Char → Option (List (String × Value) × List Char)
  | 0, _, _ => none
  | steps + 1, depth, cs =>
    (quotedString? cs).bind fun (key, rest) =>
      match skipSpace rest with
      | ':' :: rest =>
        (value? steps depth (skipSpace rest)).bind fun (v, rest) =>
          match skipSpace rest with
          | '\x7d' :: rest => some ([(key, v)], rest)
          | ',' :: rest =>
            (entries? steps depth (skipSpace rest)).map fun (es, rest) => ((key, v) :: es, rest)
          | _ => none
      | _ => none

end

/-- The value of a JSON text, in canonical form. -/
def Value.read? (text : String) : Option Value :=
  let cs := skipSpace text.toList
  match value? (2 * cs.length + 1) maxDepth cs with
  | some (v, rest) => if (skipSpace rest).isEmpty then some v.canonical else none
  | none => none

end VersionedApi.Json
