import Mathlib.Data.String.Basic
import VersionedApi.Proofs.SortedMap
import VersionedApi.Proofs.Text.Cut
import VersionedApi.Representation.Tree

/-!
# The tree of some fields

* `FieldTree.nodes` : all nodes of a tree;
* `FieldTree.Ordered` : the names under every node are in order, so that none is there twice;
  inserting a field keeps that (`Ordered.insert`);
* `FieldTree.find?_insert` : an insertion changes what stands on the way to the new field, and
  nothing else; `FieldTree.documented_insert` : it adds the field to those of the nodes;
* `FieldTree.isSome_find?_ofFields`, `FieldTree.data_find?_ofFields` : the nodes of the tree of some
  fields are the beginnings of their names, and each field is in the node of its name;
* `FieldTree.Holds` : the tree has the fields, and nothing else, where their names lead;
  `FieldTree.holds_ofFields`.
-/

namespace VersionedApi

open VersionedApi.Text

namespace FieldTree

/-! ## Nodes -/

mutual

/-- A node and all nodes under it. -/
def nodes : FieldTree → List FieldTree
  | node data children => node data children :: nodesUnder children

def nodesUnder : List (String × FieldTree) → List FieldTree
  | [] => []
  | (_, t) :: rest => t.nodes ++ nodesUnder rest

end

theorem nodesUnder_eq (children : List (String × FieldTree)) :
    nodesUnder children = children.flatMap (·.2.nodes) := by
  induction children with
  | nil => rfl
  | cons e children ih => rw [nodesUnder, ih, List.flatMap_cons]

theorem nodes_eq (t : FieldTree) : t.nodes = t :: t.children.flatMap (·.2.nodes) := by
  cases t with
  | node data children => rw [nodes, nodesUnder_eq, FieldTree.children]

def documented (t : FieldTree) : List DataField := t.nodes.filterMap data

theorem documented_eq (t : FieldTree) :
    t.documented = t.data.toList ++ t.children.flatMap (·.2.documented) := by
  unfold documented
  rw [nodes_eq, List.filterMap_cons, List.filterMap_flatMap]
  cases t.data <;> rfl

/-- The names under every node are in order. -/
inductive Ordered : FieldTree → Prop
  | node {data : Option DataField} {children : List (String × FieldTree)}
      (names : children.Pairwise fun d e => d.1 < e.1) (below : ∀ e ∈ children, Ordered e.2) :
      Ordered (node data children)

namespace Ordered

variable {t : FieldTree}

theorem empty : Ordered empty := by
  refine .node List.Pairwise.nil fun e he => ?_
  cases he

theorem names (h : t.Ordered) : t.children.Pairwise fun d e => d.1 < e.1 := by
  cases h with
  | node names below => exact names

theorem of_mem (h : t.Ordered) {e : String × FieldTree} (he : e ∈ t.children) : e.2.Ordered := by
  cases h with
  | node names below => exact below e he

end Ordered

/-! ## Insertions -/

@[simp] theorem find?_nil (t : FieldTree) : t.find? [] = some t := rfl

theorem find?_cons (t : FieldTree) (part : String) (parts : List String) :
    t.find? (part :: parts) = (t.children.lookup part).bind (find? parts) := rfl

@[simp] theorem insert_nil (f : DataField) (t : FieldTree) :
    t.insert f [] = node (some f) t.children := by
  cases t
  rfl

theorem insert_cons (f : DataField) (part : String) (parts : List String) (t : FieldTree) :
    t.insert f (part :: parts) = node t.data (SortedMap.alter compare part
      (fun old => insert f parts (old.getD empty)) t.children) := by
  cases t
  rfl

theorem mem_of_lookup {children : List (String × FieldTree)} {part : String} {t : FieldTree}
    (h : children.lookup part = some t) : (part, t) ∈ children := by
  obtain ⟨front, back, rfl, -⟩ := List.lookup_eq_some_iff.1 h
  exact List.mem_append_right front List.mem_cons_self

theorem Ordered.lookup {t : FieldTree} (h : t.Ordered) (part : String) :
    ((t.children.lookup part).getD FieldTree.empty).Ordered := by
  cases hlookup : t.children.lookup part with
  | none => exact Ordered.empty
  | some u => exact h.of_mem (mem_of_lookup hlookup)

theorem Ordered.insert {t : FieldTree} (h : t.Ordered) (f : DataField) (path : List String) :
    (t.insert f path).Ordered := by
  induction path generalizing t with
  | nil =>
    rw [insert_nil]
    exact .node h.names fun e he => h.of_mem he
  | cons part parts ih =>
    have hnames := SortedMap.pairwise_alter
      (f := fun old => FieldTree.insert f parts (old.getD FieldTree.empty))
      (k := part) compares_lt h.names
    obtain ⟨front, back, heq, -, halter⟩ := SortedMap.exists_alter_lookup (k := part) compares_lt
      h.names fun old => FieldTree.insert f parts (old.getD FieldTree.empty)
    rw [insert_cons]
    refine .node hnames fun e he => ?_
    rw [halter, List.mem_append, List.mem_cons] at he
    rcases he with he | rfl | he
    · exact h.of_mem (by rw [heq]; simp [he])
    · exact ih (h.lookup part)
    · exact h.of_mem (by rw [heq]; simp [he])

theorem find?_getD (old : Option FieldTree) (parts : List String) :
    ((old.getD empty).find? parts).getD empty = (old.bind (find? parts)).getD empty := by
  cases old with
  | some t => rfl
  | none => cases parts <;> rfl

theorem bind_data (o : Option FieldTree) : o.bind data = (o.getD empty).data := by
  cases o <;> rfl

/-- An insertion puts the field below what stands on the way to it, and changes nothing else. -/
theorem find?_insert {t : FieldTree} (h : t.Ordered) (f : DataField) (path parts : List String) :
    (t.insert f path).find? parts =
      if parts <+: path then
        some (((t.find? parts).getD empty).insert f (path.drop parts.length))
      else t.find? parts := by
  induction parts generalizing t path with
  | nil => simp
  | cons part parts ih =>
    cases path with
    | nil => simp [find?_cons, children]
    | cons next path =>
      rw [insert_cons, find?_cons, children,
        SortedMap.lookup_alter compares_lt h.names, find?_cons]
      by_cases hpart : part = next
      · subst hpart
        rw [if_pos rfl, Option.bind_some, ih (h.lookup part), find?_getD, List.length_cons,
          List.drop_succ_cons]
        by_cases hbegins : parts <+: path
        · rw [if_pos hbegins, if_pos (List.cons_prefix_cons.2 ⟨rfl, hbegins⟩)]
        · rw [if_neg hbegins, if_neg fun hcons => hbegins (List.cons_prefix_cons.1 hcons).2]
          cases t.children.lookup part with
          | some u => rfl
          | none =>
            -- the empty tree has only itself under it, and this is on the way to the field
            cases parts with
            | nil => exact absurd List.nil_prefix hbegins
            | cons next' parts => rfl
      · have hnot : ¬ part :: parts <+: next :: path := fun hbegins =>
          hpart (List.cons_prefix_cons.1 hbegins).1
        rw [if_neg hpart, if_neg hnot]

theorem data_insert_cons (f : DataField) (part : String) (parts : List String) (t : FieldTree) :
    (t.insert f (part :: parts)).data = t.data := by
  rw [insert_cons]
  rfl

theorem data_find?_insert {t : FieldTree} (h : t.Ordered) (f : DataField)
    (path parts : List String) :
    ((t.insert f path).find? parts).bind data =
      if parts = path then some f else (t.find? parts).bind data := by
  rw [find?_insert h]
  by_cases hbegins : parts <+: path
  · obtain ⟨rest, rfl⟩ := hbegins
    rw [if_pos (List.prefix_append parts rest), Option.bind_some, List.drop_left]
    cases rest with
    | nil => simp [data]
    | cons part rest =>
      rw [data_insert_cons, if_neg (by simp)]
      cases t.find? parts <;> rfl
  · have hne : parts ≠ path := by
      rintro rfl
      exact hbegins List.prefix_rfl
    rw [if_neg hbegins, if_neg hne]

theorem isSome_find?_insert {t : FieldTree} (h : t.Ordered) (f : DataField)
    (path parts : List String) :
    ((t.insert f path).find? parts).isSome = true ↔
      parts <+: path ∨ (t.find? parts).isSome = true := by
  rw [find?_insert h]
  by_cases hbegins : parts <+: path
  · simp [hbegins]
  · simp [hbegins]

/-- An insertion where no field stands adds the field to those of the nodes. -/
theorem documented_insert {t : FieldTree} (h : t.Ordered) {f : DataField} {path : List String}
    (hfree : (t.find? path).bind data = none) :
    (t.insert f path).documented.Perm (f :: t.documented) := by
  induction path generalizing t with
  | nil =>
    have hdata : t.data = none := hfree
    rw [insert_nil, documented_eq, documented_eq, hdata]
    exact .refl _
  | cons part parts ih =>
    obtain ⟨front, back, heq, -, halter⟩ := SortedMap.exists_alter_lookup (k := part) compares_lt
      h.names fun old => insert f parts (old.getD empty)
    have hchild : (insert f parts ((t.children.lookup part).getD empty)).documented.Perm
        (f :: ((t.children.lookup part).getD empty).documented) := by
      apply ih (h.lookup part)
      rwa [bind_data, find?_getD, ← bind_data]
    have hold : ((t.children.lookup part).toList.map (part, ·)).flatMap (·.2.documented) =
        ((t.children.lookup part).getD empty).documented := by
      cases t.children.lookup part with
      | some u => exact List.flatMap_singleton _ _
      | none => rfl
    rw [insert_cons, documented_eq, documented_eq t, data, children, halter]
    conv_rhs => rw [heq]
    rw [List.flatMap_append, List.flatMap_cons, List.flatMap_append, List.flatMap_append, hold]
    -- the new field moves to the front of its own tree, of what is nested here, and of the node
    refine (((hchild.append_right _).append_left _).append_left _).trans ?_
    rw [List.cons_append]
    exact (List.perm_middle.append_left _).trans List.perm_middle

/-! ## Nodes and paths -/

theorem find?_append (t : FieldTree) (parts more : List String) :
    t.find? (parts ++ more) = (t.find? parts).bind (find? more) := by
  induction parts generalizing t with
  | nil => rfl
  | cons part parts ih =>
    rw [List.cons_append, find?_cons, find?_cons, Option.bind_assoc]
    congr 1
    funext u
    exact ih u

/-- Every node stands under a path. -/
theorem Ordered.exists_find? {t u : FieldTree} (h : t.Ordered) (hu : u ∈ t.nodes) :
    ∃ parts, t.find? parts = some u := by
  induction h with
  | @node data children names below ih =>
    rw [nodes_eq, List.mem_cons, List.mem_flatMap] at hu
    rcases hu with rfl | ⟨e, he, hu⟩
    · exact ⟨[], rfl⟩
    · obtain ⟨parts, hparts⟩ := ih e he hu
      refine ⟨e.1 :: parts, ?_⟩
      have hlookup : children.lookup e.1 = some e.2 :=
        SortedMap.lookup_of_mem compares_lt names he
      rw [find?_cons, FieldTree.children, hlookup, Option.bind_some, hparts]

theorem mem_nodes_of_find? {t u : FieldTree} {parts : List String}
    (h : t.find? parts = some u) : u ∈ t.nodes := by
  induction parts generalizing t with
  | nil =>
    cases h
    rw [nodes_eq]
    exact List.mem_cons_self
  | cons part parts ih =>
    rw [find?_cons] at h
    obtain ⟨next, hnext, hu⟩ := Option.bind_eq_some_iff.1 h
    rw [nodes_eq]
    exact List.mem_cons_of_mem t (List.mem_flatMap.2 ⟨(part, next), mem_of_lookup hnext, ih hu⟩)

theorem children_ne_nil_iff {t u : FieldTree} {parts : List String} (hu : t.find? parts = some u) :
    u.children ≠ [] ↔ ∃ part, (t.find? (parts ++ [part])).isSome = true := by
  have hnext : ∀ part, t.find? (parts ++ [part]) = u.children.lookup part := by
    intro part
    rw [find?_append, hu, Option.bind_some, find?_cons]
    cases u.children.lookup part <;> rfl
  simp only [hnext]
  cases u.children with
  | nil => simp
  | cons e rest =>
    refine iff_of_true (List.cons_ne_nil e rest) ⟨e.1, ?_⟩
    rw [List.lookup_cons_self]
    rfl

/-! ## The tree of some fields -/

theorem ofFields_concat (fields : List DataField) (f : DataField) :
    ofFields (fields ++ [f]) = (ofFields fields).insert f (dotted f.name) := by
  unfold ofFields
  rw [List.foldl_append]
  rfl

theorem ordered_ofFields (fields : List DataField) : (ofFields fields).Ordered := by
  induction fields using List.reverseRecOn with
  | nil => exact Ordered.empty
  | append_singleton fields f ih =>
    rw [ofFields_concat]
    exact ih.insert f _

theorem isSome_find?_ofFields {fields : List DataField} {parts : List String} :
    ((ofFields fields).find? parts).isSome = true ↔
      parts = [] ∨ ∃ f ∈ fields, parts <+: dotted f.name := by
  induction fields using List.reverseRecOn with
  | nil =>
    cases parts with
    | nil => simp
    | cons part parts => simp [ofFields, empty, find?_cons, children]
  | append_singleton fields f ih =>
    rw [ofFields_concat, isSome_find?_insert (ordered_ofFields fields), ih]
    simp only [List.mem_append, List.mem_singleton, or_and_right, exists_or, exists_eq_left]
    rw [or_left_comm]
    exact or_congr_right or_comm

section Names
variable {fields : List DataField} (hnames : (fields.map DataField.name).Nodup)
include hnames

theorem data_find?_ofFields {parts : List String} {f : DataField} :
    ((ofFields fields).find? parts).bind data = some f ↔ f ∈ fields ∧ dotted f.name = parts := by
  induction fields using List.reverseRecOn with
  | nil => cases parts <;> simp [ofFields, empty, find?_cons, children, data]
  | append_singleton fields g ih =>
    rw [List.map_append, List.nodup_append] at hnames
    obtain ⟨hbefore, -, hnew⟩ := hnames
    rw [ofFields_concat, data_find?_insert (ordered_ofFields fields), List.mem_append,
      List.mem_singleton, or_and_right]
    split
    · rename_i hparts
      have hnot : ¬ (f ∈ fields ∧ dotted f.name = parts) := by
        rintro ⟨hf, hname⟩
        exact hnew _ (List.mem_map_of_mem hf) _ (List.mem_map_of_mem List.mem_cons_self)
          (dotted_inj.1 (hname.trans hparts))
      rw [or_iff_right hnot, Option.some.injEq, eq_comm]
      exact ⟨fun heq => ⟨heq, by rw [heq, hparts]⟩, And.left⟩
    · rename_i hparts
      have hnot : ¬ (f = g ∧ dotted f.name = parts) := by
        rintro ⟨rfl, hname⟩
        exact hparts hname.symm
      rw [or_iff_left hnot]
      exact ih hbefore

theorem documented_ofFields : (ofFields fields).documented.Perm fields := by
  induction fields using List.reverseRecOn with
  | nil => exact .refl _
  | append_singleton fields g ih =>
    rw [List.map_append, List.nodup_append] at hnames
    obtain ⟨hbefore, -, hnew⟩ := hnames
    have hfree : ((ofFields fields).find? (dotted g.name)).bind data = none := by
      rw [Option.eq_none_iff_forall_ne_some]
      intro f hf
      obtain ⟨hmem, hname⟩ := (data_find?_ofFields hbefore).1 hf
      exact hnew _ (List.mem_map_of_mem hmem) _ (List.mem_map_of_mem List.mem_cons_self)
        (dotted_inj.1 hname)
    rw [ofFields_concat]
    refine (documented_insert (ordered_ofFields fields) hfree).trans ?_
    exact ((ih hbefore).cons g).trans (List.perm_append_singleton g fields).symm

/-- A node under which nothing is nested has a field. -/
theorem isSome_data_of_leaf (hne : fields ≠ []) {u : FieldTree} (hu : u ∈ (ofFields fields).nodes)
    (hleaf : u.children = []) : u.data.isSome = true := by
  obtain ⟨parts, hparts⟩ := (ordered_ofFields fields).exists_find? hu
  obtain ⟨f, hf, rest, hname⟩ : ∃ f ∈ fields, parts <+: dotted f.name := by
    rcases isSome_find?_ofFields.1 (by rw [hparts]; rfl) with rfl | hbegins
    · obtain ⟨f, hf⟩ := List.exists_mem_of_ne_nil fields hne
      exact ⟨f, hf, List.nil_prefix⟩
    · exact hbegins
  cases rest with
  | nil =>
    rw [List.append_nil] at hname
    have hdata := (data_find?_ofFields hnames).2 ⟨hf, hname.symm⟩
    rw [hparts, Option.bind_some] at hdata
    rw [hdata]
    rfl
  | cons part rest =>
    -- the name of the field leads on, so something is nested here
    have hnext : ((ofFields fields).find? (parts ++ [part])).isSome = true :=
      isSome_find?_ofFields.2 (Or.inr ⟨f, hf, rest, by rw [← hname]; simp⟩)
    exact absurd hleaf ((children_ne_nil_iff hparts).2 ⟨part, hnext⟩)

end Names

/-- The tree has some fields where their names lead, and nothing else. -/
structure Holds (t : FieldTree) (fields : List DataField) : Prop where
  /-- Under a path stands something exactly if a name begins with it. -/
  path : ∀ p, (t.child? p).isSome = true ↔ ∃ f ∈ fields, dotted p <+: dotted f.name
  /-- This is the field with the path as its name, or no field if there is none. -/
  data : ∀ p u, t.child? p = some u → ∀ f, u.data = some f ↔ f ∈ fields ∧ f.name = p
  /-- Where nothing is nested there is a field. -/
  leaf : ∀ u ∈ t.nodes, u.children = [] → u.data.isSome = true
  /-- The fields of all nodes. -/
  documented : (t.nodes.filterMap FieldTree.data).Perm fields

theorem holds_ofFields {fields : List DataField} (hnames : (fields.map DataField.name).Nodup)
    (hne : fields ≠ []) : (ofFields fields).Holds fields where
  path p := by
    rw [child?, isSome_find?_ofFields, or_iff_right (dotted_ne_nil p)]
  data p u hu f := by
    have hdata : ((ofFields fields).find? (dotted p)).bind FieldTree.data = some f ↔
        f ∈ fields ∧ dotted f.name = dotted p := data_find?_ofFields hnames
    rwa [show (ofFields fields).find? (dotted p) = some u from hu, Option.bind_some,
      dotted_inj] at hdata
  leaf u hu hleaf := isSome_data_of_leaf hnames hne hu hleaf
  documented := documented_ofFields hnames

end FieldTree

end VersionedApi
