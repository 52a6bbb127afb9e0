import VersionedApi.Text.Cut

/-!
# Running text

* `collapse` : a description put on one line, each line break and the blanks around it one space;
* `dedent` : a description that keeps its lines and loses the indentation that they share.
-/

namespace VersionedApi.Text

/-- Spaces and tabs, the blanks that belong to a line break when they stand before it. -/
def isIndent (c : Char) : Bool := c == ' ' || c == '\t'

/-- A line without what belongs to the break behind it: a carriage return, and the spaces and tabs
before that. -/
def beforeBreak (line : List Char) : List Char :=
  ((dropReturn line).reverse.dropWhile isIndent).reverse

/-- Lines with a break behind each but the last. -/
def withoutBreaks : List (List Char) → List (List Char)
  | [] => []
  | [l] => [l]
  | l :: l' :: ls => beforeBreak l :: withoutBreaks (l' :: ls)

/-- A description on one line: every line break, with the blanks that follow it, is one space. -/
def collapse (cs : List Char) : List Char :=
  match pieces (· == '\n') (trim cs) with
  | [] => []
  | first :: rest =>
    joinWith [' '] (withoutBreaks (first :: (rest.map trimStart).filter (!·.isEmpty)))

def collapsed? (cs : List Char) : Option String :=
  let text := collapse cs
  if text.isEmpty then none else some (String.ofList text)

def byteSize (cs : List Char) : Nat := cs.foldr (fun c n => c.utf8Size + n) 0

/-- The text behind its first `n` bytes; `none` if that falls inside a character or past the end. -/
def dropBytes? : Nat → List Char → Option (List Char)
  | 0, cs => some cs
  | _ + 1, [] => none
  | n + 1, c :: cs => if c.utf8Size ≤ n + 1 then dropBytes? (n + 1 - c.utf8Size) cs else none

def indentation (line : List Char) : Nat := byteSize (line.takeWhile isBlank)

/-- The least indentation of the lines that are not blank; zero if all are. -/
def sharedIndentation (ls : List (List Char)) : Nat :=
  ((ls.filter (!allBlank ·)).map indentation).min?.getD 0

def unindent (n : Nat) (line : List Char) : List Char := (dropBytes? n line).getD (trimStart line)

/-- The first line trimmed, the others without their shared indentation, the whole trimmed. -/
def dedent (body : List Char) : List Char :=
  match lines body with
  | [] => []
  | first :: rest =>
    trim (joinWith ['\n'] (trim first :: rest.map (unindent (sharedIndentation rest))))

end VersionedApi.Text
