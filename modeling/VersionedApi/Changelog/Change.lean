import VersionedApi.Digest.Sha256
import VersionedApi.Error
import VersionedApi.Json.Text

/-!
# Changes

* `Definition`, `Subject`, `Part` : what happened, to what, and in which part of the documentation;
* `Change` : one change at one version; its payload is a JSON value in canonical form;
* `Change.hash` : the digest of what is changed, which does not depend on where;
* `isRecordable` : the pairs of definition and subject that a changelog can hold.
-/

namespace VersionedApi

open VersionedApi.Json

/-- What happened. -/
inductive Definition where
  | added
  | changed
  | removed
deriving DecidableEq, Ord, Repr

/-- What it happened to. -/
inductive Subject where
  | action
  | actionParam
  | actionReturn
  | actionThrows
  | contentType
  | representationData
deriving DecidableEq, Ord, Repr

/-- The two parts of a documentation. -/
inductive Part where
  | representations
  | resources
deriving DecidableEq, Ord, Repr

def Definition.key : Definition → String
  | added => "added"
  | changed => "changed"
  | removed => "removed"

def Definition.ofKey? (name : String) : Option Definition :=
  [added, changed, removed].find? (·.key == name)

def Subject.key : Subject → String
  | action => "action"
  | actionParam => "action_param"
  | actionReturn => "action_return"
  | actionThrows => "action_throws"
  | contentType => "content_type"
  | representationData => "representation_data"

def Subject.ofKey? (name : String) : Option Subject :=
  [action, actionParam, actionReturn, actionThrows, contentType, representationData].find?
    (·.key == name)

def Part.key : Part → String
  | representations => "representations"
  | resources => "resources"

def Subject.part : Subject → Part
  | representationData => .representations
  | _ => .resources

/-- A changelog can hold changes of this kind: content types only change, and an action is only
added. -/
def isRecordable : Definition → Subject → Bool
  | .added, .contentType => false
  | .added, _ => true
  | .removed, .contentType => false
  | .removed, .action => false
  | .removed, _ => true
  | .changed, .contentType => true
  | .changed, _ => false

structure Change where
  version : Version.Number
  definition : Definition
  subject : Subject
  group : String
  owner : String
  path : Option String
  payload : Value
deriving DecidableEq, Repr

namespace Change

/-- The change with no sign before the zeros of its payload. -/
def plain (c : Change) : Change := { c with payload := c.payload.plainZeros }

/-- The changes are equal; a zero in a payload is equal to minus zero. -/
def Same (c d : Change) : Prop := c.plain = d.plain

instance (c d : Change) : Decidable (c.Same d) := inferInstanceAs (Decidable (c.plain = d.plain))

/-- What is changed, without where. -/
def matter (c : Change) : Value :=
  .object
    [("change_type", .string c.subject.key),
      ("definition", .string c.definition.key),
      ("payload", c.payload)]

/-- The digest of what is changed. -/
def hash (c : Change) : String := Digest.sha256 c.matter.canonical.compact

def toJson (c : Change) : Value :=
  .object <|
    [("version", .string c.version.text),
      ("definition", .string c.definition.key),
      ("change_type", .string c.subject.key),
      ("group", .string c.group),
      ("namespace", .string c.owner)] ++
    (c.path.map fun p => ("path", Value.string p)).toList ++
    [("payload", c.payload)]

end Change

end VersionedApi
