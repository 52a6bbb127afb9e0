import VersionedApi.Docblock.Tag

/-!
# The docblocks of a source text

* `Segment`, `segments` : a source text as single lines of code and whole comments;
* `Declaration`, `declarationIn?` : the class or method that the code behind a comment declares;
* `Block`, `Scan`, `scan` : every comment with its place, its class and its declaration, and the
  namespace of the text.
-/

namespace VersionedApi.Docblock

open VersionedApi.Text

inductive Declaration where
  | ofClass (name : String)
  | ofMethod (name : String)
deriving DecidableEq, Repr

/-- A documentation comment in a source text. -/
structure Block where
  text : String
  firstLine : Nat
  lastLine : Nat
  owner : Option String
  declaration : Option Declaration
deriving DecidableEq, Repr

structure Scan where
  nameSpace : Option String
  blocks : List Block
deriving DecidableEq, Repr

/-- A part of a source text. -/
inductive Segment where
  | code (line : List Char)
  | comment (lines : List (List Char))
deriving DecidableEq, Repr

def Segment.lines : Segment → List (List Char)
  | code line => [line]
  | comment lines => lines

/-- After its blanks the line starts a documentation comment. -/
def opensComment (line : List Char) : Bool := startsWith ['/', '*', '*'] (trimStart line)

/-- The line has a closing delimiter. -/
def closesComment (line : List Char) : Bool := occurs ['*', '/'] line

/-- The segments of the lines that follow an unfinished comment, if one is given. A comment ends
with the first line that closes it, which may be the one that opens it, or with the text. -/
def segmentsFrom : Option (List (List Char)) → List (List Char) → List Segment
  | none, [] => []
  | some begun, [] => [.comment begun]
  | none, l :: ls =>
    if !opensComment l then .code l :: segmentsFrom none ls
    else if closesComment l then .comment [l] :: segmentsFrom none ls
    else segmentsFrom (some [l]) ls
  | some begun, l :: ls =>
    if closesComment l then .comment (begun ++ [l]) :: segmentsFrom none ls
    else segmentsFrom (some (begun ++ [l])) ls

def segments (text : String) : List Segment := segmentsFrom none (lines text.toList)

/-- A name declared behind modifiers and a keyword, all separated by blanks: the word characters
that follow. -/
def declaredName? (modifiers keywords : List String) (line : List Char) : Option String :=
  match (words line).dropWhile fun w => String.ofList w ∈ modifiers with
  | keyword :: name :: _ =>
    if String.ofList keyword ∈ keywords && !(name.takeWhile isWord).isEmpty then
      some (String.ofList (name.takeWhile isWord))
    else none
  | _ => none

def className? (line : List Char) : Option String :=
  declaredName? ["pub", "public", "abstract", "final", "export"]
    ["class", "struct", "trait", "interface"] line

def methodName? (line : List Char) : Option String :=
  declaredName? ["pub", "public", "private", "protected", "static", "async", "final", "abstract"]
    ["function", "fn", "def"] line

def namespaceOf? (line : List Char) : Option String :=
  (after? "namespace".toList (trimStart line)).bind fun rest =>
    let named := trimStart rest
    let name := named.takeWhile isQualified
    match rest.head?.any isBlank && !name.isEmpty, trimStart (named.dropWhile isQualified) with
    | true, ';' :: _ => some (String.ofList name)
    | _, _ => none

/-- Lines between a docblock and its declaration that belong to neither: blank ones and
attributes. -/
def isBetween (line : List Char) : Bool :=
  match trim line with
  | [] => true
  | '#' :: '[' :: _ => true
  | '@' :: _ => true
  | _ => false

/-- What the first line of code behind a docblock declares. -/
def declarationIn? (following : List (List Char)) : Option Declaration :=
  (following.find? (!isBetween ·)).bind fun line =>
    match className? line with
    | some name => some (.ofClass name)
    | none => (methodName? line).map .ofMethod

/-- The blocks of segments whose first line has the number `n`, inside the class `owner`. -/
def blocksFrom (n : Nat) (owner : Option String) : List Segment → List Block
  | [] => []
  | .code line :: rest => blocksFrom (n + 1) ((className? line).or owner) rest
  | .comment ls :: rest =>
    let declaration := declarationIn? (rest.flatMap Segment.lines)
    { text := String.ofList (joinWith ['\n'] ls)
      firstLine := n
      lastLine := n + ls.length - 1
      owner := match declaration with
        | some (.ofClass name) => some name
        | _ => owner
      declaration := declaration } :: blocksFrom (n + ls.length) owner rest

/-- The namespace of the first line of code that declares one. -/
def namespaceIn? (segs : List Segment) : Option String :=
  segs.findSome? fun
    | .code line => namespaceOf? line
    | .comment _ => none

def scan (text : String) : Scan :=
  let segs := segments text
  { nameSpace := namespaceIn? segs
    blocks := blocksFrom 1 none segs }

/-- A class name with the namespace of its source text, if that has one. -/
def Scan.qualify (s : Scan) (owner : String) : String :=
  match s.nameSpace with
  | none => owner
  | some ns =>
    let bare := ((ns.toList.dropWhile (· == '\\')).reverse.dropWhile (· == '\\')).reverse
    String.ofList ('\\' :: bare ++ ['\\']) ++ owner

end VersionedApi.Docblock
