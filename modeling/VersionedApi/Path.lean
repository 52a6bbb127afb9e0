import VersionedApi.Text.Case
import VersionedApi.Text.Cut

/-!
# Paths

A path is a text with slashes between its parts. Nothing here normalizes it, since it is shown to
users as it was put together:

* `join` : a path below a directory; `parentOf` : the directory that a file stands in;
* `fileName?`, `extension?` : the last part that names something, and what follows its last dot;
* `isSourceFile` : the files that are searched for docblocks;
* `resolve?` : the parts of a relative path without `.` and `..`.
-/

namespace VersionedApi.Path

open VersionedApi.Text

def isAbsolute (path : String) : Bool := path.toList.head? == some '/'

/-- The path `path` below `base`; an absolute one stays as it is. -/
def join (base path : String) : String :=
  if isAbsolute path then path
  else
    match base.toList.getLast? with
    | none => path
    | some '/' => base ++ path
    | some _ => base ++ "/" ++ path

def parts (path : String) : List (List Char) := pieces (· == '/') path.toList

/-- A part that names nothing: an empty one, or a dot behind the first part. -/
def isVoid (part : List Char) : Bool := part.isEmpty || part == ['.']

/-- The parts of a path that count: no empty ones, and a dot only in front of a relative path. -/
def components (path : String) : List (List Char) :=
  match parts path with
  | [] => []
  | first :: rest => (if first.isEmpty then [] else [first]) ++ rest.filter (!isVoid ·)

/-- The last component, if it is the name of something. -/
def fileName? (path : String) : Option (List Char) :=
  (components path).getLast?.filter fun name => name != ['.', '.'] && name != ['.']

/-- What follows the last dot of the file name; a name has none if that dot is its first
character. -/
def extension? (path : String) : Option (List Char) := do
  let name ← fileName? path
  let after := name.reverse.takeWhile (· != '.')
  if name.length ≤ after.length + 1 then none else some after.reverse

def sourceExtensions : List String := ["php", "rs", "ts", "js", "java", "py", "go"]

def isSourceFile (path : String) : Bool :=
  (extension? path).any fun e => sourceExtensions.contains (String.ofList (lower e))

/-- The directory of a file: the path before its last component, or `.` if that is empty. -/
def parentOf (path : String) : String :=
  let voidEnd (cs : List (List Char)) := cs.dropWhile isVoid
  match voidEnd (parts path).reverse with
  | [] => "."
  | _ :: before =>
    match before.reverse with
    | [] => "."
    | first :: rest =>
      let kept := (voidEnd rest.reverse).reverse
      if first.isEmpty && kept.isEmpty then "/"
      else String.ofList (joinWith ['/'] (first :: kept))

def step (stack : List String) (part : List Char) : Option (List String) :=
  if isVoid part then some stack
  else if part == ['.', '.'] then
    match stack with
    | [] => none
    | _ :: rest => some rest
  else some (String.ofList part :: stack)

/-- The names on the way to a path from the working directory; `none` if the way leads out of
it. -/
def resolve? (path : String) : Option (List String) :=
  if isAbsolute path then none else ((parts path).foldlM step []).map List.reverse

end VersionedApi.Path
