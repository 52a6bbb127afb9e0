import VersionedApi.Changelog.Change

/-!
# The index of changes

* `ByDefinition` : the changes of one version, listed under their definition, part, group, class,
  subject and hash, with the keys of every level in order;
* `Changelog` : the changes of all versions, the newest version first; `Entry` and
  `Changelog.entries` : the lists of the index one after the other, each with its keys;
* `Changelog.Builder` : the index while it is built, which has its versions in the order of their
  texts. `Builder.record` is one change more, and `Builder.build` puts the newest version first.
-/

namespace VersionedApi

open VersionedApi.Json

/-! ## Changelogs -/

abbrev ByHash := List (String × List Change)
abbrev BySubject := List (Subject × ByHash)
abbrev ByOwner := List (String × BySubject)
abbrev ByGroup := List (String × ByOwner)
abbrev ByPart := List (Part × ByGroup)
abbrev ByDefinition := List (Definition × ByPart)

structure VersionChanges where
  version : String
  changes : ByDefinition
deriving Repr

/-- The same change, on one path or on several. -/
structure Entry where
  version : String
  definition : Definition
  part : Part
  group : String
  owner : String
  subject : Subject
  hash : String
  changes : List Change
deriving DecidableEq, Repr

structure Changelog where
  versions : List VersionChanges := []
deriving Repr

namespace Changelog

def isEmpty (log : Changelog) : Bool := log.versions.isEmpty

/-- The changes of the version with this text. -/
def version? (log : Changelog) (version : String) : Option VersionChanges :=
  log.versions.find? (·.version == version)

/-- The entries of all versions, in the order of the index. -/
def entries (log : Changelog) : List Entry :=
  log.versions.flatMap fun v =>
    SortedMap.flatMap v.changes fun definition parts =>
      SortedMap.flatMap parts fun part groups =>
        SortedMap.flatMap groups fun group owners =>
          SortedMap.flatMap owners fun owner subjects =>
            SortedMap.flatMap subjects fun subject hashes =>
              SortedMap.flatMap hashes fun hash changes =>
                [{ version := v.version, definition, part, group, owner, subject, hash, changes }]

/-- The serialized form: for every version its index, an object on every level. -/
def toJson (log : Changelog) : Value :=
  let changes : ByDefinition → Value :=
    .ofMap Definition.key <| .ofMap Part.key <| .ofMap id <| .ofMap id <| .ofMap Subject.key <|
      .ofMap id fun changes => .array (changes.map Change.toJson)
  .object [("versions", .array (log.versions.map fun v =>
    .object [("version", .string v.version), ("changes", changes v.changes)]))]

/-! ## Builders -/

/-- The index of the changes that are recorded so far, with the texts of versions as its keys. -/
structure Builder where
  index : List (String × ByDefinition) := []
deriving Repr

namespace Builder

/-- One change more behind the others, unless an equal one is among them. -/
def enlist (c : Change) (changes : List Change) : List Change :=
  if changes.any (c.Same ·) then changes else changes ++ [c]

/-- The index with the change under its seven keys; a level that is missing is created. -/
def enter (c : Change) : List (String × ByDefinition) → List (String × ByDefinition) :=
  SortedMap.modify compare c.version.text <|
    SortedMap.modify compare c.definition <|
      SortedMap.modify compare c.subject.part <|
        SortedMap.modify compare c.group <|
          SortedMap.modify compare c.owner <|
            SortedMap.modify compare c.subject <|
              SortedMap.modify compare c.hash (enlist c)

/-- One change more, if a changelog can hold it: the answer, and the builder behind it. -/
def record (b : Builder) (c : Change) : Except Error Unit × Builder :=
  if isRecordable c.definition c.subject then (.ok (), ⟨enter c b.index⟩)
  else (.error (.unsupportedChange c.definition.key c.subject.key), b)

/-- Several changes more, up to the first one that is refused. -/
def recordAll (b : Builder) : List Change → Except Error Unit × Builder
  | [] => (.ok (), b)
  | c :: cs =>
    match b.record c with
    | (.ok (), next) => next.recordAll cs
    | (.error e, next) => (.error e, next)

/-- The changelog of what is recorded, the newest version first. -/
def build (b : Builder) : Changelog :=
  ⟨(b.index.map fun (version, changes) => (⟨version, changes⟩ : VersionChanges)).mergeSort
    fun v w => (Version.compareDotted w.version v.version).isLE⟩

end Builder

end Changelog

end VersionedApi
