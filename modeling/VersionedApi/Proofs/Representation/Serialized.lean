import VersionedApi.Proofs.Directive.Serialized
import VersionedApi.Proofs.Representation.Exploded

/-!
# The serialized tree of a representation

* `Value.follow` : what a path of keys leads to; `FieldTree.get?_toJson` : the keys of a node in
  serialized form, and `FieldTree.follow_toJson` : a path leads to the node that stands under it;
* `Representation.Keeps` : the name of a field leads to an object with that field under the key of
  a node's own field;
* `DataField.Covers` : a name goes on from another with that very key. Nothing reserves the key, and
  a child with this name takes the place of the field, so `Representation.keeps_iff` : a field is
  kept exactly if no name covers it.
-/

namespace VersionedApi

open VersionedApi.Json VersionedApi.Text

/-- The value that a path of keys leads to, from object to object. -/
def Json.Value.follow : List String → Value → Option Value
  | [], v => some v
  | key :: keys, v => (v.get? key).bind (follow keys)

namespace FieldTree

/-! ## Keys and paths -/

theorem childrenJson_eq (children : List (String × FieldTree)) :
    childrenJson children = children.map fun e => (e.1, e.2.toJson) := by
  induction children with
  | nil => rfl
  | cons e children ih => rw [childrenJson, ih, List.map_cons]

theorem toJson_eq (t : FieldTree) :
    t.toJson = .object ((t.data.map fun f => (fieldKey, f.toJson)).toList ++
      t.children.map fun e => (e.1, e.2.toJson)) := by
  cases t with
  | node data children => rw [toJson, childrenJson_eq, FieldTree.data, FieldTree.children]

theorem get?_children {children : List (String × FieldTree)}
    (h : children.Pairwise fun d e => d.1 < e.1) (name : String) :
    (Value.object (children.map fun e => (e.1, e.2.toJson))).get? name =
      (children.lookup name).map toJson := by
  have hkeys : (children.map fun e => (e.1, e.2.toJson)).map (·.1) = children.map (·.1) := by
    rw [List.map_map]
    rfl
  cases hlookup : children.lookup name with
  | some u =>
    have hnodup : ((children.map fun e => (e.1, e.2.toJson)).map (·.1)).Nodup := by
      rw [hkeys, List.Nodup, List.pairwise_map]
      exact h.imp fun hlt => hlt.ne
    exact Value.get?_of_nodup hnodup
      (List.mem_map_of_mem (f := fun e => (e.1, e.2.toJson)) (mem_of_lookup hlookup))
  | none =>
    refine Value.get?_eq_none fun hmem => ?_
    rw [hkeys] at hmem
    obtain ⟨e, he, rfl⟩ := List.mem_map.1 hmem
    simpa using List.lookup_eq_none_iff.1 hlookup e he

theorem get?_toJson {t : FieldTree} (h : t.Ordered) (name : String) :
    t.toJson.get? name = ((t.children.lookup name).map toJson).or
      (if name = fieldKey then t.data.map DataField.toJson else none) := by
  rw [toJson_eq, Value.get?_append, get?_children h.names, Traits.get?_toList]

theorem follow_toJson {t u : FieldTree} (h : t.Ordered) {parts : List String}
    (hfind : t.find? parts = some u) : t.toJson.follow parts = some u.toJson := by
  induction parts generalizing t with
  | nil =>
    cases hfind
    rfl
  | cons part parts ih =>
    rw [find?_cons] at hfind
    obtain ⟨next, hnext, hfind⟩ := Option.bind_eq_some_iff.1 hfind
    rw [Value.follow, get?_toJson h, hnext]
    exact ih (h.of_mem (mem_of_lookup hnext)) hfind

/-- A node is no field: all its entries are objects, and a field has a name. -/
theorem toJson_ne (t : FieldTree) (f : DataField) : t.toJson ≠ f.toJson := by
  intro heq
  have hname : ("field", Value.string f.name) ∈ f.field.entries ++ f.traits.entries :=
    List.mem_append_left _ List.mem_cons_self
  rw [toJson_eq] at heq
  rw [← show _ = f.field.entries ++ f.traits.entries from Value.object.inj heq, List.mem_append]
    at hname
  rcases hname with hname | hname
  · cases hdata : t.data <;> simp [hdata, DataField.toJson, Directive.toJson] at hname
  · obtain ⟨e, -, he⟩ := List.mem_map.1 hname
    have hobject := (Prod.mk.inj he).2
    rw [toJson_eq] at hobject
    cases hobject

theorem Ordered.of_find? {t u : FieldTree} (h : t.Ordered) {parts : List String}
    (hfind : t.find? parts = some u) : u.Ordered := by
  induction parts generalizing t with
  | nil =>
    cases hfind
    exact h
  | cons part parts ih =>
    obtain ⟨next, hnext, hfind⟩ := Option.bind_eq_some_iff.1 hfind
    exact ih (h.of_mem (mem_of_lookup hnext)) hfind

end FieldTree

/-- The name of the field goes on from that of the other with the key of a node's own field. -/
def DataField.Covers (g f : DataField) : Prop :=
  dotted f.name ++ [FieldTree.fieldKey] <+: dotted g.name

instance (g f : DataField) : Decidable (g.Covers f) :=
  inferInstanceAs (Decidable (dotted f.name ++ [FieldTree.fieldKey] <+: dotted g.name))

namespace Representation

/-- In the serialized tree the name of the field leads to an object that has the serialized form of
the field under the key of a node's own field. -/
def Keeps (r : Representation) (f : DataField) : Prop :=
  ∃ entries, r.explode.toJson.follow (dotted f.name) = some (.object entries) ∧
    (Value.object entries).get? FieldTree.fieldKey = some f.toJson

variable {registry : Registry} {docblockOf : String → String → Option String}
  {source : RepresentationSource} {r : Representation}

/-- What the tree has under the name of a field, and what stands there under the key of a node's own
field: the child with this name, or else the field. -/
theorem exists_follow (h : Representation.read registry docblockOf source = .ok r) {f : DataField}
    (hf : f ∈ r.fields) : ∃ u : FieldTree, r.explode.toJson.follow (dotted f.name) = some u.toJson ∧
      u.toJson.get? FieldTree.fieldKey =
        ((r.explode.find? (dotted f.name ++ [FieldTree.fieldKey])).map FieldTree.toJson).or
          (some f.toJson) := by
  have hordered := FieldTree.ordered_ofFields r.fields
  obtain ⟨u, hu, hdata⟩ := Option.bind_eq_some_iff.1
    ((FieldTree.data_find?_ofFields (nodup_names h)).2 ⟨hf, rfl⟩)
  refine ⟨u, FieldTree.follow_toJson hordered hu, ?_⟩
  have hchild : r.explode.find? (dotted f.name ++ [FieldTree.fieldKey]) =
      u.children.lookup FieldTree.fieldKey := by
    rw [FieldTree.find?_append, explode, hu, Option.bind_some, FieldTree.find?_cons]
    cases u.children.lookup FieldTree.fieldKey <;> rfl
  rw [FieldTree.get?_toJson (hordered.of_find? hu), hchild, if_pos rfl, hdata]
  rfl

theorem keeps_iff (h : Representation.read registry docblockOf source = .ok r) {f : DataField}
    (hf : f ∈ r.fields) : r.Keeps f ↔ ∀ g ∈ r.fields, ¬ g.Covers f := by
  obtain ⟨u, hfollow, hentry⟩ := exists_follow h hf
  have hkeeps : r.Keeps f ↔ u.toJson.get? FieldTree.fieldKey = some f.toJson := by
    unfold Keeps
    rw [hfollow, FieldTree.toJson_eq u]
    simp only [Option.some.injEq, Value.object.injEq, exists_eq_left']
  have hcovered : (r.explode.find? (dotted f.name ++ [FieldTree.fieldKey])).isSome = true ↔
      ∃ g ∈ r.fields, g.Covers f := by
    rw [explode, FieldTree.isSome_find?_ofFields]
    simp [DataField.Covers]
  rw [hkeeps, hentry]
  cases hchild : r.explode.find? (dotted f.name ++ [FieldTree.fieldKey]) with
  | none =>
    rw [hchild] at hcovered
    refine iff_of_true rfl fun g hg hcovers => ?_
    simpa using hcovered.2 ⟨g, hg, hcovers⟩
  | some child =>
    rw [hchild] at hcovered
    obtain ⟨g, hg, hcovers⟩ := hcovered.1 rfl
    refine iff_of_false ?_ fun hnone => hnone g hg hcovers
    intro heq
    exact FieldTree.toJson_ne child f (Option.some.inj heq)

/-- The names of all fields lead to objects in the serialized tree. A field is there under the key
of a node's own field exactly if no name goes on from its name with this key; so all fields are kept
exactly if no name does that. -/
theorem serialized_keeps_iff (h : Representation.read registry docblockOf source = .ok r) :
    (∀ f ∈ r.fields,
      (∃ entries, r.explode.toJson.follow (dotted f.name) = some (.object entries)) ∧
        (r.Keeps f ↔ ∀ g ∈ r.fields, ¬ g.Covers f)) ∧
    ((∀ f ∈ r.fields, r.Keeps f) ↔ ∀ f ∈ r.fields, ∀ g ∈ r.fields, ¬ g.Covers f) := by
  refine ⟨fun f hf => ⟨?_, keeps_iff h hf⟩, ?_⟩
  · obtain ⟨u, hfollow, -⟩ := exists_follow h hf
    rw [FieldTree.toJson_eq u] at hfollow
    exact ⟨_, hfollow⟩
  · exact forall₂_congr fun f hf => keeps_iff h hf

/-- The movie keeps the fields of its poster and its cast. -/
theorem serialized_keeps_movie :
    Representation.read {} (fun _ _ => none) Movie.documentation = .ok Movie.representation ∧
      Movie.representation.Keeps Movie.url ∧ Movie.representation.Keeps Movie.actor ∧
      Movie.representation.Keeps Movie.actors := by
  have hall := (serialized_keeps_iff Movie.read_documentation).2.2 (by decide +kernel)
  exact ⟨Movie.read_documentation, hall Movie.url (by decide +kernel),
    hall Movie.actor (by decide +kernel), hall Movie.actors (by decide +kernel)⟩

/-! A movie with addresses, one of which has the name of the key. -/

namespace Addressed

def addresses : String := "/** @api-data urls (object) - Addresses */"

def raw : String := "/** @api-data urls.__FIELD_DATA__ (string) - Raw */"

def documentation : RepresentationSource :=
  { owner := "\\Movie", docblock := "/** @api-label Movie */"
    members := [⟨"getUrls", addresses⟩, ⟨"getRaw", raw⟩] }

def urls : DataField :=
  ⟨{ name := "urls", typeName := "object", description := some "Addresses" },
    { context := .ofMethod "\\Movie" "getUrls" addresses }⟩

def text : DataField :=
  ⟨{ name := "urls.__FIELD_DATA__", typeName := "string", description := some "Raw" },
    { context := .ofMethod "\\Movie" "getRaw" raw }⟩

def representation : Representation :=
  { owner := "\\Movie", label := "Movie", description := none, fields := [urls, text] }

end Addressed

/-- The movie is accepted, and where its addresses should stand there is the node of the other
field. -/
theorem serialized_loses_urls :
    Representation.read {} (fun _ _ => none) Addressed.documentation =
        .ok Addressed.representation ∧
      Addressed.urls ∈ Addressed.representation.fields ∧
      (Addressed.representation.explode.toJson.follow ["urls"]).bind
          (·.get? FieldTree.fieldKey) =
        some (.object [(FieldTree.fieldKey, Addressed.text.toJson)]) ∧
      ¬ Addressed.representation.Keeps Addressed.urls := by
  have hread : Representation.read {} (fun _ _ => none) Addressed.documentation =
      .ok Addressed.representation := toOption_eq_some.1 (by decide +kernel)
  refine ⟨hread, List.mem_cons_self, by decide +kernel, ?_⟩
  rw [keeps_iff hread List.mem_cons_self]
  decide +kernel

end Representation

end VersionedApi
