import VersionedApi.Text.Case
import VersionedApi.Text.Cut

/-!
# The tags of a docblock

* `stripGutter` : a line of a comment without its delimiters and its star;
* `LineRole`, `roleOf` : a line opens a tag, closes the tag before it, or continues it;
* `Tag`, `tagsOf` : the `@api-` tags of a docblock, each with its decorators and its body. A body
  is what follows the tag on its line and the continuing lines below it; one pass over the lines
  (`Pass`) keeps the tag whose body may go on.
-/

namespace VersionedApi.Docblock

open VersionedApi.Text

/-- One `@api-` tag as it is written, name and decorators in lower case. -/
structure Tag where
  name : String
  decorators : List String
  body : String
  line : Nat
deriving DecidableEq, Repr

def marker : List Char := ['@', 'a', 'p', 'i', '-']

/-- The docblock may hold tags. -/
def hasMarker (text : String) : Bool := occurs marker text.toList

def dropSpace : List Char → List Char
  | ' ' :: rest => rest
  | cs => cs

def dropClose (cs : List Char) : List Char :=
  match cs.reverse with
  | '/' :: '*' :: before => before.reverse
  | _ => cs

/-- A line of a comment without delimiters and gutter; a line that has no star keeps its
indentation. -/
def stripGutter (raw : List Char) : List Char :=
  let line := dropClose (trimEnd raw)
  match trimStart line with
  | '/' :: '*' :: '*' :: rest => dropSpace rest
  | '*' :: rest => dropSpace rest
  | _ => line

/-- Characters of a tag's name behind the first, and of a decorator. -/
def isTagChar (c : Char) : Bool := isWord c || c == '-'

/-- A letter, then tag characters. -/
def isTagName : List Char → Bool
  | [] => false
  | c :: cs => isAsciiLetter c && cs.all isTagChar

def isDecorator (cs : List Char) : Bool := !cs.isEmpty && cs.all isTagChar

/-- What a line does to the tags around it. -/
inductive LineRole where
  /-- The line opens a tag. -/
  | opens (name : List Char) (decorators : List (List Char)) (body : List Char)
  /-- The line belongs to a tag of another tool and closes the one before it. -/
  | closes
  /-- The line continues what stands before it. -/
  | continues
deriving DecidableEq, Repr

/-- A tag that a line opens: the marker, a name, decorators behind colons, and after a blank the
body. -/
def opening? (cs : List Char) : Option LineRole :=
  (after? marker cs).bind fun rest =>
    match pieces (· == ':') (rest.takeWhile (!isBlank ·)) with
    | [] => none
    | name :: decorators =>
      if isTagName name && decorators.all isDecorator then
        some (.opens name decorators (trimStart (rest.dropWhile (!isBlank ·))))
      else none

def startsTag : List Char → Bool
  | '@' :: c :: _ => isAsciiLetter c
  | _ => false

def roleOf (line : List Char) : LineRole :=
  let bare := trimStart line
  match opening? bare with
  | some role => role
  | none => if startsTag bare then .closes else .continues

/-- A tag whose body may go on. -/
structure OpenTag where
  name : List Char
  decorators : List (List Char)
  body : List Char
  line : Nat
deriving DecidableEq, Repr

def OpenTag.finish (t : OpenTag) : Tag :=
  { name := String.ofList t.name
    decorators := t.decorators.map String.ofList
    body := String.ofList (trimEnd t.body)
    line := t.line }

/-- A pass over the lines of a docblock: the tags that are finished, and the one that is open. -/
structure Pass where
  tags : List Tag := []
  current : Option OpenTag := none
deriving DecidableEq, Repr

namespace Pass

def finished (p : Pass) : List Tag := p.tags ++ (p.current.map OpenTag.finish).toList

/-- One line more, without its gutter. -/
def step (p : Pass) (line : List Char) (n : Nat) : Pass :=
  match roleOf line with
  | .opens name decorators body =>
    { tags := p.finished
      current := some { name := lower name, decorators := decorators.map lower, body, line := n } }
  | .closes => { tags := p.finished }
  | .continues =>
    { p with current := p.current.map fun t => { t with body := t.body ++ '\n' :: line } }

end Pass

def tagsOf (docblock : String) : List Tag :=
  (((lines docblock.toList).zipIdx 1).foldl (fun p (raw, n) => p.step (stripGutter raw) n)
    ({} : Pass)).finished

end VersionedApi.Docblock
