import VersionedApi.Directive.Basic

/-!
# Representations

* `normalizeClass` : the spelling of a class under which it is looked up;
* `Representation` : a documented shape of data with its fields, in order;
* `RepresentationSource` : the docblocks of a class and of its members;
* `DocblockIndex` : the docblocks of members by class and method.
-/

namespace VersionedApi

open VersionedApi.Text

/-- A class with exactly one backslash in front, without blanks around it. -/
def normalizeClass (owner : String) : String :=
  String.ofList ('\\' :: (trim owner.toList).dropWhile (· == '\\'))

/-- A documented shape of data. -/
structure Representation where
  owner : String
  label : String
  description : Option String
  fields : List DataField
deriving DecidableEq, Repr

namespace Representation

def field? (r : Representation) (name : String) : Option DataField :=
  r.fields.find? (·.name == name)

def fieldsAt (r : Representation) (v : Version.Number) : List DataField :=
  r.fields.filter (·.traits.isAt v)

def atVersion (r : Representation) (v : Version.Number) : Representation :=
  { r with fields := r.fieldsAt v }

end Representation

structure MemberSource where
  method : String
  docblock : String
deriving DecidableEq, Repr

/-- The docblocks of a class, and where the class was found. -/
structure RepresentationSource where
  owner : String
  docblock : String
  members : List MemberSource := []
  file : Option String := none
  line : Nat := 0
deriving DecidableEq, Repr

/-- A source whose class is put in its normal spelling. -/
def RepresentationSource.ofClass (owner docblock : String) (members : List MemberSource) :
    RepresentationSource :=
  { owner := normalizeClass owner, docblock, members }

/-- The docblocks of members, by normal class and method. -/
structure DocblockIndex where
  entries : List ((String × String) × String) := []
deriving DecidableEq, Repr

namespace DocblockIndex

def compareKeys (a b : String × String) : Ordering := (compare a.1 b.1).then (compare a.2 b.2)

/-- The index with one docblock more, or another one for the same member. -/
def insert (i : DocblockIndex) (owner method docblock : String) : DocblockIndex :=
  ⟨SortedMap.insert compareKeys (normalizeClass owner, method) docblock i.entries⟩

def find? (i : DocblockIndex) (owner method : String) : Option String :=
  i.entries.lookup (normalizeClass owner, method)

def size (i : DocblockIndex) : Nat := i.entries.length

/-- The docblocks of all members of some classes; of equal members the last counts. -/
def ofSources (sources : List RepresentationSource) : DocblockIndex :=
  sources.foldl (fun i s => s.members.foldl (fun i m => i.insert s.owner m.method m.docblock) i) {}

end DocblockIndex

end VersionedApi
