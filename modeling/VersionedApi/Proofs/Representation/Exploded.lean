import VersionedApi.Proofs.Representation.Names
import VersionedApi.Proofs.Representation.Tree

/-!
# The tree of a representation

* `Representation.explode_holds` : the tree of a representation that was read has its fields, each
  under its name, and nothing else;
* `DataField.IsAbove` : the name of one field goes on from that of another;
  `Representation.children_ne_nil_iff` : this is what nests something at a node;
* `Representation.Jumps` : the name goes on across one that has no field. What is behind the gap is
  nested under whatever stands before it; by `Representation.nested_nestable_iff` this is the only
  way in which something is nested under a field that should hold nothing.
-/

namespace VersionedApi

open VersionedApi.Text VersionedApi.Docblock

/-- The name of `g` is that of `f` with more parts behind it. -/
def DataField.IsAbove (f g : DataField) : Prop :=
  ∃ part rest, dotted g.name = dotted f.name ++ part :: rest

namespace Representation

variable {registry : Registry} {docblockOf : String → String → Option String}
  {source : RepresentationSource} {r : Representation}

/-- The name of `g` is that of `f` with more parts behind it, the first of which leads to no
field. -/
def Jumps (r : Representation) (f g : DataField) : Prop :=
  ∃ part next rest, dotted g.name = dotted f.name ++ part :: next :: rest ∧
    ∀ k ∈ r.fields, dotted k.name ≠ dotted f.name ++ [part]

theorem Jumps.isAbove {f g : DataField} (h : r.Jumps f g) : f.IsAbove g := by
  obtain ⟨part, next, rest, hname, -⟩ := h
  exact ⟨part, next :: rest, hname⟩

/-! ## Nodes of the tree -/

theorem exists_node (h : Representation.read registry docblockOf source = .ok r) {f : DataField}
    (hf : f ∈ r.fields) : ∃ t ∈ r.explode.nodes, t.data = some f := by
  have hdata := (FieldTree.data_find?_ofFields (nodup_names h)).2 ⟨hf, rfl⟩
  obtain ⟨t, ht, hdata⟩ := Option.bind_eq_some_iff.1 hdata
  exact ⟨t, FieldTree.mem_nodes_of_find? ht, hdata⟩

theorem children_ne_nil_iff (h : Representation.read registry docblockOf source = .ok r)
    {t : FieldTree} (ht : t ∈ r.explode.nodes) {f : DataField} (hdata : t.data = some f) :
    f ∈ r.fields ∧ (t.children ≠ [] ↔ ∃ g ∈ r.fields, f.IsAbove g) := by
  obtain ⟨parts, hparts⟩ := (FieldTree.ordered_ofFields r.fields).exists_find? ht
  obtain ⟨hf, rfl⟩ := (FieldTree.data_find?_ofFields (nodup_names h)).1
    (by rw [hparts, Option.bind_some, hdata])
  refine ⟨hf, ?_⟩
  rw [FieldTree.children_ne_nil_iff hparts]
  constructor
  · rintro ⟨part, hnext⟩
    rcases FieldTree.isSome_find?_ofFields.1 hnext with hnil | ⟨g, hg, rest, hname⟩
    · exact absurd hnil (by simp)
    · exact ⟨g, hg, part, rest, by rw [← hname]; simp⟩
  · rintro ⟨g, hg, part, rest, hname⟩
    exact ⟨part, FieldTree.isSome_find?_ofFields.2 (Or.inr ⟨g, hg, rest, by rw [hname]; simp⟩)⟩

/-- The tree of a representation has its fields where their names lead, and nothing else. -/
theorem explode_holds (h : Representation.read registry docblockOf source = .ok r) :
    r.explode.Holds r.fields :=
  FieldTree.holds_ofFields (nodup_names h) (read_ok h).2.1

/-! A movie with an address below a name that has no field, and with a cast whose parts come before
it. -/

namespace Movie

def poster : String := "/** @api-data poster.url (string) - Address of the poster */"

def cast : String :=
  "/**\n * @api-data cast.name (string) - Name\n * @api-data cast (array<object>) - Cast\n */"

def documentation : RepresentationSource :=
  { owner := "\\Movie", docblock := "/** @api-label Movie */"
    members := [⟨"getPoster", poster⟩, ⟨"getCast", cast⟩] }

def url : DataField :=
  ⟨{ name := "poster.url", typeName := "string", description := some "Address of the poster" },
    { context := .ofMethod "\\Movie" "getPoster" poster }⟩

def actor : DataField :=
  ⟨{ name := "cast.name", typeName := "string", description := some "Name" },
    { context := .ofMethod "\\Movie" "getCast" cast }⟩

def actors : DataField :=
  ⟨{ name := "cast", typeName := "array", subtype := some "object", description := some "Cast" },
    { context := .ofMethod "\\Movie" "getCast" cast }⟩

def representation : Representation :=
  { owner := "\\Movie", label := "Movie", description := none, fields := [url, actor, actors] }

theorem read_documentation :
    Representation.read {} (fun _ _ => none) documentation = .ok representation :=
  toOption_eq_some.1 (by decide +kernel)

end Movie

/-- The tree of the movie: the poster has a node without a field, and the cast is one node with its
field and its part. -/
theorem explode_holds_movie :
    Representation.read {} (fun _ _ => none) Movie.documentation = .ok Movie.representation ∧
      Movie.representation.explode.Holds [Movie.url, Movie.actor, Movie.actors] ∧
      (Movie.representation.explode.child? "poster").map FieldTree.data = some none ∧
      (Movie.representation.explode.child? "cast").map FieldTree.data = some (some Movie.actors) ∧
      (Movie.representation.explode.child? "name").isSome = false :=
  ⟨Movie.read_documentation, explode_holds Movie.read_documentation, by decide +kernel,
    by decide +kernel, by decide +kernel⟩

/-! ## Nested fields -/

theorem nestable_of_isAbove (h : Representation.read registry docblockOf source = .ok r)
    {f g : DataField} (hf : f ∈ r.fields) (hg : g ∈ r.fields) (habove : f.IsAbove g)
    (hjumps : ¬ r.Jumps f g) : f.field.Nestable := by
  obtain ⟨part, rest, hname⟩ := habove
  by_cases hnext : ∃ k ∈ r.fields, dotted k.name = dotted f.name ++ [part]
  · obtain ⟨k, hk, hnext⟩ := hnext
    exact nestable_of_next h hf hk hnext
  · cases rest with
    | nil => exact absurd ⟨g, hg, hname⟩ hnext
    | cons next rest =>
      have hgap : ∀ k ∈ r.fields, dotted k.name ≠ dotted f.name ++ [part] :=
        fun k hk heq => hnext ⟨k, hk, heq⟩
      exact absurd ⟨part, next, rest, hname, hgap⟩ hjumps

/-- All fields with something nested under them can hold it, in the tree or by their names, exactly
if those can from which a name jumps; the others always can. -/
theorem nested_nestable_iff (h : Representation.read registry docblockOf source = .ok r) :
    ((∀ t ∈ r.explode.nodes, ∀ f, t.data = some f → t.children ≠ [] → f.field.Nestable) ↔
      ∀ f ∈ r.fields, ∀ g ∈ r.fields, r.Jumps f g → f.field.Nestable) ∧
    ((∀ f ∈ r.fields, ∀ g ∈ r.fields, f.IsAbove g → f.field.Nestable) ↔
      ∀ f ∈ r.fields, ∀ g ∈ r.fields, r.Jumps f g → f.field.Nestable) ∧
    ∀ f ∈ r.fields, ∀ g ∈ r.fields, f.IsAbove g → ¬ r.Jumps f g → f.field.Nestable := by
  have hnames : (∀ f ∈ r.fields, ∀ g ∈ r.fields, f.IsAbove g → f.field.Nestable) ↔
      ∀ f ∈ r.fields, ∀ g ∈ r.fields, r.Jumps f g → f.field.Nestable := by
    constructor
    · intro hall f hf g hg hjumps
      exact hall f hf g hg hjumps.isAbove
    · intro hall f hf g hg habove
      by_cases hjumps : r.Jumps f g
      · exact hall f hf g hg hjumps
      · exact nestable_of_isAbove h hf hg habove hjumps
  have htree : (∀ t ∈ r.explode.nodes, ∀ f, t.data = some f → t.children ≠ [] →
        f.field.Nestable) ↔ ∀ f ∈ r.fields, ∀ g ∈ r.fields, f.IsAbove g → f.field.Nestable := by
    constructor
    · intro hall f hf g hg habove
      obtain ⟨t, ht, hdata⟩ := exists_node h hf
      exact hall t ht f hdata ((children_ne_nil_iff h ht hdata).2.2 ⟨g, hg, habove⟩)
    · intro hall t ht f hdata hchildren
      obtain ⟨hf, hnested⟩ := children_ne_nil_iff h ht hdata
      obtain ⟨g, hg, habove⟩ := hnested.1 hchildren
      exact hall f hf g hg habove
  exact ⟨htree.trans hnames, hnames, fun f hf g hg => nestable_of_isAbove h hf hg⟩

/-- No name of the movie jumps from a field, so what has something nested under it can hold it. -/
theorem nested_nestable_movie :
    Representation.read {} (fun _ _ => none) Movie.documentation = .ok Movie.representation ∧
      Movie.actors.IsAbove Movie.actor ∧
      ∀ t ∈ Movie.representation.explode.nodes, ∀ f, t.data = some f → t.children ≠ [] →
        f.field.Nestable := by
  have hlengths : ∀ g ∈ Movie.representation.fields, (dotted g.name).length ≤ 2 := by decide +kernel
  have hparts : ∀ f : DataField, 0 < (dotted f.name).length :=
    fun f => List.length_pos_of_ne_nil (dotted_ne_nil f.name)
  refine ⟨Movie.read_documentation, ⟨"name", [], by decide +kernel⟩,
    (nested_nestable_iff Movie.read_documentation).1.2 ?_⟩
  rintro f - g hg ⟨part, next, rest, hname, -⟩
  -- a name with a jump has three parts
  have hlength := hlengths g hg
  rw [hname, List.length_append, List.length_cons, List.length_cons] at hlength
  have := hparts f
  omega

/-! A movie whose number has a text below it, across a name that has no field. -/

namespace Numbered

def number : String := "/** @api-data id (integer) - ID */"

def text : String := "/** @api-data id.deep.nested (string) - Nested */"

def documentation : RepresentationSource :=
  { owner := "\\Movie", docblock := "/** @api-label Movie */"
    members := [⟨"getId", number⟩, ⟨"getNested", text⟩] }

def id : DataField :=
  ⟨{ name := "id", typeName := "integer", description := some "ID" },
    { context := .ofMethod "\\Movie" "getId" number }⟩

def nested : DataField :=
  ⟨{ name := "id.deep.nested", typeName := "string", description := some "Nested" },
    { context := .ofMethod "\\Movie" "getNested" text }⟩

def representation : Representation :=
  { owner := "\\Movie", label := "Movie", description := none, fields := [id, nested] }

def node : FieldTree :=
  .node (some id) [("deep", .node none [("nested", .node (some nested) [])])]

end Numbered

/-- The movie is accepted, and its tree has something nested under an integer. -/
theorem nested_under_integer :
    Representation.read {} (fun _ _ => none) Numbered.documentation = .ok Numbered.representation ∧
      Numbered.node ∈ Numbered.representation.explode.nodes ∧
      Numbered.node.data = some Numbered.id ∧ Numbered.node.children ≠ [] ∧
      Numbered.id.IsAbove Numbered.nested ∧ ¬ Numbered.id.field.Nestable := by
  have hnode : Numbered.representation.explode.find? ["id"] = some Numbered.node := by rfl
  refine ⟨toOption_eq_some.1 (by decide +kernel), FieldTree.mem_nodes_of_find? hnode, rfl,
    List.cons_ne_nil _ _, ⟨"deep", ["nested"], by decide +kernel⟩, ?_⟩
  rw [← Field.isNestable_iff]
  decide

end Representation

end VersionedApi
