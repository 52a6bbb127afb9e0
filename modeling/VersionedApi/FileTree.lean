import VersionedApi.Error
import VersionedApi.Json.Value
import VersionedApi.Path

/-!
# Files

* `FileTree` : files and directories as they stand at one moment, the names of a directory in order;
* `FileTree.ofPaths` : the tree of a list of paths with their contents;
* `FileTree.read` : the text of a file, or why there is none;
* `FileTree.sourceFiles` : the source files below some directories, depth first and by name.
-/

namespace VersionedApi

/-- A file with its text, if its bytes are text, or a directory. -/
inductive FileTree where
  | file (text : Option String)
  | directory (entries : List (String × FileTree))
deriving Repr

namespace FileTree

def empty : FileTree := directory []

instance : Inhabited FileTree := ⟨empty⟩

def entries : FileTree → List (String × FileTree)
  | file _ => []
  | directory es => es

/-- The tree with something else under a way of names; directories on the way are made. -/
def insert (new : FileTree) : List String → FileTree → FileTree
  | [], _ => new
  | name :: names, t =>
    directory
      (SortedMap.alter compare name (fun old => insert new names (old.getD empty)) t.entries)

/-- The tree of some paths. A path that ends in a slash is a directory without files; another one
is a file with its text, or one that is not text. -/
def ofPaths (paths : List (String × Option String)) : FileTree :=
  paths.foldl
    (fun t (path, text) =>
      let new := if path.toList.getLast? == some '/' then empty else file text
      match Path.resolve? path with
      | some names => insert new names t
      | none => t)
    empty

def maxName : Nat := 255

def maxPath : Nat := 4095

/-- One step on a path, below the directories that were entered before, the innermost first. The
path leaves a directory by two dots, and nothing is below a file. Of the directories around the
tree nothing is known but that they are there. -/
def step (way : List FileTree) (part : List Char) : Except ReadFault (List FileTree) :=
  match way with
  | directory es :: above =>
    let name := String.ofList part
    if Path.isVoid part then .ok way
    else if part == ['.', '.'] then .ok (if above.isEmpty then [empty] else above)
    else if maxName < name.utf8ByteSize then .error .nameTooLong
    else
      match es.lookup name with
      | some t => .ok (t :: way)
      | none => .error .notFound
  | _ => .error .notDirectory

def find (t : FileTree) (path : String) : Except ReadFault FileTree :=
  if path.toList.contains '\x00' then .error .zeroInName
  else if path.isEmpty then .error .notFound
  else if maxPath < path.utf8ByteSize then .error .nameTooLong
  else do
    let start := if Path.isAbsolute path then empty else t
    let way ← (Path.parts path).foldlM step [start]
    return way.headD empty

def read (t : FileTree) (path : String) : Except ReadFault String := do
  match ← t.find path with
  | file (some text) => .ok text
  | file none => .error .notText
  | directory _ => .error .isDirectory

mutual

/-- The paths of all files at and below `path`. -/
def filesBelow (path : String) : FileTree → List String
  | file _ => [path]
  | directory es => filesIn path es

/-- The paths of all files below some entries of the directory `path`. -/
def filesIn (path : String) : List (String × FileTree) → List String
  | [] => []
  | (name, t) :: rest => filesBelow (Path.join path name) t ++ filesIn path rest

end

/-- The source files at or below a path; none if there is no such path. -/
def sourceFilesAt (t : FileTree) (path : String) : List String :=
  match t.find path with
  | .ok found => (found.filesBelow path).filter Path.isSourceFile
  | .error _ => []

def sourceFiles (t : FileTree) (dirs : List String) : List String := dirs.flatMap t.sourceFilesAt

end FileTree

end VersionedApi
