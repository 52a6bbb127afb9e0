import VersionedApi.Decimal.Double
import VersionedApi.Text.Cut
import VersionedApi.Text.Word

/-!
# The words of TOML

Readers of what stands at the start of a text; each gives what it read and what follows, or `none`:

* `blanks`, `comment?`, `lineEnd?`, `skipLines` : what stands between values;
* `key?`, `dottedKey?` : keys;
* `string?` : the four kinds of strings;
* `scalar?` : numbers, moments and truth values, which `isNumber` and `isMoment` tell apart.
-/

namespace VersionedApi.Toml

open VersionedApi.Text

/-! ## Blanks, comments, line ends -/

def isBlank (c : Char) : Bool := c == ' ' || c == '\t'

def blanks (cs : List Char) : List Char := cs.dropWhile isBlank

def isLineChar (c : Char) : Bool := c == '\t' || (32 ≤ c.toNat && c.toNat != 127)

/-- The text behind a line feed, which a carriage return may precede. -/
def newline? : List Char → Option (List Char)
  | '\n' :: rest => some rest
  | '\r' :: '\n' :: rest => some rest
  | _ => none

/-- The text behind a comment, if there is one. -/
def comment : List Char → List Char
  | '#' :: rest => rest.dropWhile isLineChar
  | cs => cs

/-- The text behind the end of a line, on which only blanks and a comment may stand. -/
def lineEnd? (cs : List Char) : Option (List Char) :=
  match comment (blanks cs) with
  | [] => some []
  | rest => newline? rest

/-- The text behind blanks, comments and line ends; the first argument bounds their number. -/
def skipLines : Nat → List Char → List Char
  | 0, cs => cs
  | n + 1, cs =>
    match newline? (comment (blanks cs)) with
    | some rest => skipLines n rest
    | none => blanks cs

/-! ## Strings -/

def charOf? (n : Nat) : Option Char :=
  if n < 0xD800 || (0xDFFF < n && n < 0x110000) then some (Char.ofNat n) else none

def hexValue? (c : Char) : Option Nat :=
  if '0' ≤ c && c ≤ '9' then some (c.toNat - 48)
  else if 'a' ≤ c && c ≤ 'f' then some (c.toNat - 87)
  else if 'A' ≤ c && c ≤ 'F' then some (c.toNat - 55)
  else none

def hexEscape? (n : Nat) (cs : List Char) : Option (Char × List Char) := do
  let ds := cs.take n
  if ds.length != n then none
  let number ← ds.foldlM (fun m c => (hexValue? c).map (16 * m + ·)) 0
  let c ← charOf? number
  return (c, cs.drop n)

/-- The character of an escape, the backslash of which has been read. -/
def escape? : List Char → Option (Char × List Char)
  | 'b' :: rest => some (Char.ofNat 8, rest)
  | 't' :: rest => some ('\t', rest)
  | 'n' :: rest => some ('\n', rest)
  | 'f' :: rest => some (Char.ofNat 12, rest)
  | 'r' :: rest => some ('\r', rest)
  | '\"' :: rest => some ('\"', rest)
  | '\\' :: rest => some ('\\', rest)
  | 'u' :: rest => hexEscape? 4 rest
  | 'U' :: rest => hexEscape? 8 rest
  | _ => none

/-- The rest of a string on one line between double quotes. The first argument bounds its length. -/
def basicBody? : Nat → List Char → Option (List Char × List Char)
  | 0, _ => none
  | n + 1, cs =>
    match cs with
    | '\"' :: rest => some ([], rest)
    | '\\' :: rest => do
      let (c, rest) ← escape? rest
      let (s, rest) ← basicBody? n rest
      return (c :: s, rest)
    | c :: rest =>
      if isLineChar c then (basicBody? n rest).map fun (s, r) => (c :: s, r) else none
    | [] => none

def literalBody? : List Char → Option (List Char × List Char)
  | [] => none
  | c :: rest =>
    if c == '\x27' then some ([], rest)
    else if isLineChar c then (literalBody? rest).map fun (s, r) => (c :: s, r)
    else none

/-- The text behind all blanks and line ends. -/
def skipBlankLines : List Char → List Char
  | '\n' :: rest => skipBlankLines rest
  | '\r' :: '\n' :: rest => skipBlankLines rest
  | c :: rest => if isBlank c then skipBlankLines rest else c :: rest
  | [] => []

/-- The text behind all blanks and line ends, if a line end is the first thing behind blanks. -/
def foldedLine? (cs : List Char) : Option (List Char) := (newline? (blanks cs)).map skipBlankLines

/-- The rest of a string over several lines between triple quotes `q`; up to two quotes may stand
before the closing ones. A backslash is an escape if `escapes` says so. The second argument bounds
the length. -/
def multiBody? (q : Char) (escapes : Bool) : Nat → List Char → Option (List Char × List Char)
  | 0, _ => none
  | n + 1, cs =>
    let quotes := cs.takeWhile (· == q)
    if 3 ≤ quotes.length then
      if quotes.length ≤ 5 then some (quotes.drop 3, cs.drop quotes.length) else none
    else
      match cs with
      | [] => none
      | c :: rest =>
        if c == '\\' && escapes then
          match foldedLine? rest with
          | some rest => multiBody? q escapes n rest
          | none => do
            let (c, rest) ← escape? rest
            let (s, rest) ← multiBody? q escapes n rest
            return (c :: s, rest)
        else
          match newline? cs with
          | some rest => (multiBody? q escapes n rest).map fun (s, r) => ('\n' :: s, r)
          | none =>
            if isLineChar c then (multiBody? q escapes n rest).map fun (s, r) => (c :: s, r)
            else none

/-- The rest of a string over several lines; a line end right behind the opening is dropped. -/
def multi? (q : Char) (escapes : Bool) (cs : List Char) : Option (String × List Char) :=
  let inner := (newline? cs).getD cs
  (multiBody? q escapes (inner.length + 1) inner).map fun (s, r) => (String.ofList s, r)

def lineString? : List Char → Option (String × List Char)
  | '\"' :: rest => (basicBody? (rest.length + 1) rest).map fun (s, r) => (String.ofList s, r)
  | '\x27' :: rest => (literalBody? rest).map fun (s, r) => (String.ofList s, r)
  | _ => none

def string? : List Char → Option (String × List Char)
  | '\"' :: '\"' :: '\"' :: rest => multi? '\"' true rest
  | '\x27' :: '\x27' :: '\x27' :: rest => multi? '\x27' false rest
  | cs => lineString? cs

/-! ## Keys -/

def isKeyChar (c : Char) : Bool := isAsciiLetter c || isAsciiDigit c || c == '_' || c == '-'

def key? (cs : List Char) : Option (String × List Char) :=
  match cs.takeWhile isKeyChar with
  | [] => lineString? cs
  | name => some (String.ofList name, cs.dropWhile isKeyChar)

/-- Keys with dots between them, blanks around the dots, and the text behind blanks that follow.
The first argument bounds their number. -/
def dottedKey? : Nat → List Char → Option (List String × List Char)
  | 0, _ => none
  | n + 1, cs => do
    let (key, rest) ← key? (blanks cs)
    match blanks rest with
    | '.' :: rest =>
      let (keys, rest) ← dottedKey? n rest
      return (key :: keys, rest)
    | rest => return ([key], rest)

/-! ## Numbers and moments -/

/-- Digits of a base, with single underscores between them only. -/
def isGrouped (isDigitOf : Char → Bool) (cs : List Char) : Bool :=
  (pieces (· == '_') cs).all fun p => !p.isEmpty && p.all isDigitOf

def ungrouped (cs : List Char) : List Char := cs.filter (· != '_')

def unsigned : List Char → List Char
  | '+' :: rest => rest
  | '-' :: rest => rest
  | cs => cs

/-- A decimal numeral without leading zeros. -/
def isDecimal (cs : List Char) : Bool :=
  isGrouped isAsciiDigit cs && (cs.length == 1 || cs.head? != some '0')

def baseValue (base : Nat) (cs : List Char) : Nat :=
  cs.foldl (fun n c => base * n + (hexValue? c).getD 0) 0

def isInteger (cs : List Char) : Bool :=
  match cs with
  | '0' :: 'x' :: ds =>
    isGrouped (fun c => (hexValue? c).isSome) ds && baseValue 16 (ungrouped ds) < Nat.pow 2 63
  | '0' :: 'o' :: ds =>
    isGrouped (fun c => '0' ≤ c && c ≤ '7') ds && baseValue 8 (ungrouped ds) < Nat.pow 2 63
  | '0' :: 'b' :: ds =>
    isGrouped (fun c => c == '0' || c == '1') ds && baseValue 2 (ungrouped ds) < Nat.pow 2 63
  | _ =>
    let size := value (ungrouped (unsigned cs))
    isDecimal (unsigned cs) && (size < Nat.pow 2 63 || (cs.head? == some '-' && size == Nat.pow 2 63))

/-- The exponent at the end of a number: behind the letter `e`, or zero if nothing is left. -/
def exponent? : List Char → Option Int
  | [] => some 0
  | c :: ds =>
    let size : Int := value (ungrouped (unsigned ds))
    if (c == 'e' || c == 'E') && isGrouped isAsciiDigit (unsigned ds) then
      some (if ds.head? == some '-' then -size else size)
    else none

/-- A number with a fraction or an exponent and without a sign, as `m · 10 ^ e`. -/
def float? (cs : List Char) : Option (Nat × Int) :=
  let inNumeral (c : Char) : Bool := isAsciiDigit c || c == '_'
  let whole := cs.takeWhile inNumeral
  if !isDecimal whole then none
  else
    match cs.dropWhile inNumeral with
    | [] => none
    | '.' :: rest =>
      let fraction := rest.takeWhile inNumeral
      if isGrouped isAsciiDigit fraction then
        (exponent? (rest.dropWhile inNumeral)).map fun e =>
          (value (ungrouped (whole ++ fraction)), e - (ungrouped fraction).length)
      else none
    | rest => (exponent? rest).map fun e => (value (ungrouped whole), e)

/-- A number with a fraction or an exponent, or one of the words for numbers that have no digits.
Only a negative number may lie beyond all doubles. -/
def isFloat (cs : List Char) : Bool :=
  let body := unsigned cs
  body == "inf".toList || body == "nan".toList ||
    match float? body with
    | some (m, e) => cs.head? == some '-' || (Double.ofDecimal? m e).isSome
    | none => false

def isNumber (cs : List Char) : Bool := isInteger cs || isFloat cs

/-- A numeral of exactly `n` digits with a value from `low` to `high`. -/
def isField (n low high : Nat) (cs : List Char) : Bool :=
  isNumeral cs && cs.length == n && low ≤ value cs && value cs ≤ high

def daysIn (year month : Nat) : Nat :=
  let leap := year % 4 == 0 && (year % 100 != 0 || year % 400 == 0)
  if month == 2 then (if leap then 29 else 28)
  else if month == 4 || month == 6 || month == 9 || month == 11 then 30 else 31

def isDate (cs : List Char) : Bool :=
  match pieces (· == '-') cs with
  | [year, month, day] =>
    isField 4 0 9999 year && isField 2 1 12 month &&
      isField 2 1 (daysIn (value year) (value month)) day
  | _ => false

def isTime (cs : List Char) : Bool :=
  match pieces (· == ':') cs with
  | [hour, minute, seconds] =>
    isField 2 0 23 hour && isField 2 0 59 minute && isField 2 0 60 (seconds.take 2) &&
      match seconds.drop 2 with
      | [] => true
      | '.' :: fraction => isNumeral fraction
      | _ => false
  | _ => false

/-- The distance of a local time from universal time: a letter, or a sign, hours and minutes. -/
def isOffset (cs : List Char) : Bool :=
  match cs with
  | [] => true
  | ['Z'] | ['z'] => true
  | sign :: rest =>
    (sign == '+' || sign == '-') &&
      match pieces (· == ':') rest with
      | [hour, minute] => isField 2 0 23 hour && isField 2 0 59 minute
      | _ => false

def isOffsetTime (cs : List Char) : Bool :=
  let inTime (c : Char) : Bool := isAsciiDigit c || c == ':' || c == '.'
  isTime (cs.takeWhile inTime) && isOffset (cs.dropWhile inTime)

/-- A date, a time of day, or both with a letter or a space between them and an offset. -/
def isMoment (cs : List Char) : Bool :=
  isDate cs || isTime cs ||
    (isDate (cs.take 10) &&
      match cs.drop 10 with
      | c :: rest => (c == 'T' || c == 't' || c == ' ') && isOffsetTime rest
      | [] => false)

def isScalarChar (c : Char) : Bool :=
  isAsciiLetter c || isAsciiDigit c || c == '_' || c == '+' || c == '-' || c == ':' || c == '.'

/-- The word at the start of a text; a date goes on with the time behind one space. -/
def scalar? (cs : List Char) : Option (List Char × List Char) :=
  let word := cs.takeWhile isScalarChar
  let rest := cs.dropWhile isScalarChar
  match word, isDate word, rest with
  | [], _, _ => none
  | _, true, ' ' :: c :: more =>
    if isAsciiDigit c then
      some (word ++ ' ' :: (c :: more).takeWhile isScalarChar, (c :: more).dropWhile isScalarChar)
    else some (word, rest)
  | _, _, _ => some (word, rest)

end VersionedApi.Toml
