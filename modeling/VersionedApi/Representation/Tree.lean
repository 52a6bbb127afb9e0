import VersionedApi.Directive.Serialized
import VersionedApi.Representation.Basic

/-!
# The tree of a representation's fields

* `FieldTree` : what stands under a dotted name: the field of that name, if it is documented, and
  the names that extend it, in order;
* `FieldTree.ofFields` : the tree of a list of fields; `FieldTree.child?` : the tree under a path;
* `FieldTree.toJson` : an object of the subtrees, with the field itself under `fieldKey`.
-/

namespace VersionedApi

open VersionedApi.Json VersionedApi.Text

/-- A field and what is nested under it. -/
inductive FieldTree where
  | node (data : Option DataField) (children : List (String × FieldTree))
deriving Repr

namespace FieldTree

def empty : FieldTree := node none []

instance : Inhabited FieldTree := ⟨empty⟩

def data : FieldTree → Option DataField
  | node data _ => data

def children : FieldTree → List (String × FieldTree)
  | node _ children => children

/-- The tree with a field under a path, in place of one that stood there. -/
def insert (f : DataField) : List String → FieldTree → FieldTree
  | [], node _ children => node (some f) children
  | part :: parts, node data children =>
    node data (SortedMap.alter compare part (fun old => insert f parts (old.getD empty)) children)

def ofFields (fields : List DataField) : FieldTree :=
  fields.foldl (fun t f => t.insert f (dotted f.name)) empty

/-- The tree under a path. -/
def find? : List String → FieldTree → Option FieldTree
  | [], t => some t
  | part :: parts, t => (t.children.lookup part).bind (find? parts)

/-- The tree under a dotted name. -/
def child? (t : FieldTree) (path : String) : Option FieldTree := t.find? (dotted path)

/-- The key of a node's own field. -/
def fieldKey : String := "__FIELD_DATA__"

mutual

/-- A node's field and its children in one object; a child with the name `fieldKey` comes behind
the field and so takes its place. -/
def toJson : FieldTree → Value
  | node data children =>
    Value.object ((data.map fun f => (fieldKey, f.toJson)).toList ++ childrenJson children)

def childrenJson : List (String × FieldTree) → List (String × Value)
  | [] => []
  | (name, t) :: rest => (name, t.toJson) :: childrenJson rest

end

end FieldTree

def Representation.explode (r : Representation) : FieldTree := FieldTree.ofFields r.fields

end VersionedApi
