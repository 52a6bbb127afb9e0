import VersionedApi.Json.Value
import VersionedApi.Text.Word

/-!
# JSON text

* `Number.text` : integers in base ten; doubles with a point, in scientific form from 10 ^ 16 on and
  below 10 ^ -5, the exponent with its sign;
* `quoted` : a string with quotes, backslashes and control characters escaped, all else as it is;
* `Value.compact` : no blanks at all; `Value.pretty` : one entry a line, two spaces a level.
-/

namespace VersionedApi.Json

open VersionedApi.Text

def zeros (n : Nat) : List Char := List.replicate n '0'

/-- A decimal as text; `point` is the place of the decimal point behind its first digit. -/
def decimalText (d : Decimal) : List Char :=
  let ds := Text.digits d.digits
  let point : Int := ds.length + d.exponent
  let body :=
    if d.digits = 0 then ['0', '.', '0']
    else if 0 ≤ d.exponent && point ≤ 16 then ds ++ zeros d.exponent.toNat ++ ['.', '0']
    else if 0 < point && point ≤ 16 then ds.take point.toNat ++ '.' :: ds.drop point.toNat
    else if -5 < point && point ≤ 0 then '0' :: '.' :: zeros (-point).toNat ++ ds
    else
      let sign := if point - 1 < 0 then '-' else '+'
      ds.take 1 ++ (if ds.length = 1 then [] else '.' :: ds.drop 1) ++
        'e' :: sign :: Text.digits (point - 1).natAbs
  if d.negative then '-' :: body else body

def Number.text : Number → List Char
  | .integer n => (if n < 0 then ['-'] else []) ++ Text.digits n.natAbs
  | .double d => decimalText d

def hexDigit (n : Nat) : Char := if n < 10 then Char.ofNat (48 + n) else Char.ofNat (87 + n)

def escaped (c : Char) : List Char :=
  match c with
  | '\"' => ['\\', '\"']
  | '\\' => ['\\', '\\']
  | '\n' => ['\\', 'n']
  | '\r' => ['\\', 'r']
  | '\t' => ['\\', 't']
  | _ =>
    if c.toNat = 8 then ['\\', 'b']
    else if c.toNat = 12 then ['\\', 'f']
    else if c.toNat < 32 then
      ['\\', 'u', '0', '0', hexDigit (c.toNat / 16), hexDigit (c.toNat % 16)]
    else [c]

def quoted (s : String) : List Char := '\"' :: s.toList.flatMap escaped ++ ['\"']

namespace Value

mutual

/-- A value without blanks. -/
def compactChars : Value → List Char
  | null => ['n', 'u', 'l', 'l']
  | bool true => ['t', 'r', 'u', 'e']
  | bool false => ['f', 'a', 'l', 's', 'e']
  | number n => n.text
  | string s => quoted s
  | array items => '[' :: compactItems items ++ [']']
  | object entries => '\x7b' :: compactEntries entries ++ ['\x7d']

def compactItems : List Value → List Char
  | [] => []
  | [v] => compactChars v
  | v :: w :: vs => compactChars v ++ ',' :: compactItems (w :: vs)

def compactEntries : List (String × Value) → List Char
  | [] => []
  | [(k, v)] => quoted k ++ ':' :: compactChars v
  | (k, v) :: e :: es => quoted k ++ ':' :: compactChars v ++ ',' :: compactEntries (e :: es)

end

def compact (v : Value) : String := String.ofList v.compactChars

/-- A line feed and the indentation of a level. -/
def newLine (level : Nat) : List Char := '\n' :: List.replicate (2 * level) ' '

mutual

/-- A value on lines of its own, its first line standing on the given level. -/
def prettyChars (level : Nat) : Value → List Char
  | array [] => ['[', ']']
  | array (v :: vs) =>
    '[' :: prettyItems (level + 1) (v :: vs) ++ newLine level ++ [']']
  | object [] => ['\x7b', '\x7d']
  | object (e :: es) =>
    '\x7b' :: prettyEntries (level + 1) (e :: es) ++ newLine level ++ ['\x7d']
  | v => compactChars v

def prettyItems (level : Nat) : List Value → List Char
  | [] => []
  | [v] => newLine level ++ prettyChars level v
  | v :: w :: vs => newLine level ++ prettyChars level v ++ ',' :: prettyItems level (w :: vs)

def prettyEntries (level : Nat) : List (String × Value) → List Char
  | [] => []
  | [(k, v)] => newLine level ++ quoted k ++ ':' :: ' ' :: prettyChars level v
  | (k, v) :: e :: es =>
    newLine level ++ quoted k ++ ':' :: ' ' :: prettyChars level v ++
      ',' :: prettyEntries level (e :: es)

end

/-- The text of a value over several lines. -/
def pretty (v : Value) : String := String.ofList (v.prettyChars 0)

end Value

end VersionedApi.Json
