import VersionedApi.Text.Blank

/-!
# Cutting and joining texts

* `after?` : what follows a mark at the start of a text;
* `cutAt` : the parts before and behind the first occurrence of a mark; `occurs`;
* `lines` : the lines of a text, ended by a line feed with an optional carriage return before it;
* `joinWith` : pieces put together again with a separator.
-/

namespace VersionedApi.Text

/-- What follows `mark`, if the text starts with it. -/
def after? : List Char → List Char → Option (List Char)
  | [], cs => some cs
  | _ :: _, [] => none
  | m :: ms, c :: cs => if m = c then after? ms cs else none

def startsWith (mark cs : List Char) : Bool := (after? mark cs).isSome

/-- The text before and behind the first occurrence of `mark`. -/
def cutAt (mark : List Char) : List Char → Option (List Char × List Char)
  | [] => if mark.isEmpty then some ([], []) else none
  | c :: cs =>
    match after? mark (c :: cs) with
    | some rest => some ([], rest)
    | none => (cutAt mark cs).map fun (before, rest) => (c :: before, rest)

def occurs (mark cs : List Char) : Bool := (cutAt mark cs).isSome

def dropReturn (line : List Char) : List Char :=
  if line.getLast? = some '\r' then line.dropLast else line

/-- Pieces between line feeds, read as lines: a terminated line loses its carriage return, and an
unterminated last one counts only if it is not empty. -/
def terminated : List (List Char) → List (List Char)
  | [] => []
  | [l] => if l.isEmpty then [] else [l]
  | l :: l' :: ls => dropReturn l :: terminated (l' :: ls)

def lines (cs : List Char) : List (List Char) := terminated (pieces (· == '\n') cs)

/-- The pieces with `sep` between neighbours. -/
def joinWith (sep : List Char) : List (List Char) → List Char
  | [] => []
  | [p] => p
  | p :: q :: ps => p ++ sep ++ joinWith sep (q :: ps)

def dotted (name : String) : List String :=
  (pieces (· == '.') name.toList).map String.ofList

/-- The comma-separated tokens of a text, each without outer blanks. -/
def tokens (cs : List Char) : List (List Char) := (pieces (· == ',') cs).map trim

end VersionedApi.Text
