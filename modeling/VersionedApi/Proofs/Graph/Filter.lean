import Mathlib.Tactic.Tauto
import VersionedApi.Graph.Compile

/-!
# What passes a filter

* `Filter.Permits`, `Filter.Shows`, `Filter.ShowsField` : the tags, directives and fields that may
  be seen, said without the functions that decide it (`allowsTags_iff`, `allows_iff`,
  `allowsField_iff`);
* `Filter.action?_eq_some_iff`, `Action.at?_eq_some_iff` : when an action passes the filter and when
  it exists in a version, and what is left of it;
* `Filter.Survives` : both conditions on an action in terms of the action itself;
* `Filter.entry?` : the entry of an action in a view; `Graph.view_actions`,
  `Graph.view_representations`.
-/

namespace VersionedApi

/-- A capability that is written into the shorthand of a content. -/
inductive Content.Inline : Content → String → Prop
  | uriSegment {uri : Option String} {field : Field} {tag : String} :
      field.capability = some tag → Inline (.uriSegment uri field) tag
  | param {field : Field} {tag : String} : field.capability = some tag → Inline (.param field) tag
  | data {field : Field} {tag : String} : field.capability = some tag → Inline (.data field) tag
  | returns {response : Response} {tag : String} :
      response.capability = some tag → Inline (.returns response) tag
  | throws {response : Response} {tag : String} :
      response.capability = some tag → Inline (.throws response) tag

theorem Content.capability?_eq_some_iff {c : Content} {tag : String} :
    c.capability? = some tag ↔ c.Inline tag := by
  constructor
  · intro h
    cases c with
    | uriSegment uri field => exact .uriSegment h
    | param field => exact .param h
    | data field => exact .data h
    | returns response => exact .returns h
    | throws response => exact .throws h
    | _ => cases h
  · intro h
    cases h with
    | uriSegment h | param h | data h | returns h | throws h => exact h

theorem Content.Inline.kind_mem {c : Content} {tag : String} (h : c.Inline tag) :
    c.kind ∈ [Kind.uriSegment, .param, .data, .returns, .throws] := by
  cases h <;> simp [Content.kind]

theorem Directive.mem_vendorTags {d : Directive} {tag : String} :
    tag ∈ d.vendorTags ↔ d.content.Inline tag ∨ tag ∈ d.traits.vendorTags := by
  rw [vendorTags, List.mem_append, Option.mem_toList, Content.capability?_eq_some_iff]

theorem DataField.mem_vendorTags {x : DataField} {tag : String} :
    tag ∈ x.vendorTags ↔ x.field.capability = some tag ∨ tag ∈ x.traits.vendorTags := by
  simp only [vendorTags, directive, Directive.vendorTags, Content.capability?, List.mem_append,
    Option.mem_toList]

namespace Filter

variable {f : Filter}

/-! ## Tags and directives -/

/-- The tag is one of those that are allowed, if not all are. -/
def Permits (f : Filter) (tag : String) : Prop :=
  ∀ allowed, f.vendorTags = some allowed → tag ∈ allowed

theorem allowsTags_iff {tags : List String} :
    f.allowsTags tags = true ↔ ∀ tag ∈ tags, f.Permits tag := by
  unfold allowsTags Permits
  cases f.vendorTags with
  | none => simp
  | some allowed => simp

/-- The directive is not private, unless private ones are shown, and all its tags are allowed. -/
structure Shows (f : Filter) (d : Directive) : Prop where
  visible : d.traits.visibility = some .internal → f.includePrivate = true
  inline : ∀ tag, d.content.Inline tag → f.Permits tag
  vendorTags : ∀ tag ∈ d.traits.vendorTags, f.Permits tag

theorem allows_iff {d : Directive} : f.allows d = true ↔ f.Shows d := by
  have hvisible : (f.includePrivate || !d.traits.isPrivate) = true ↔
      (d.traits.visibility = some .internal → f.includePrivate = true) := by
    simp only [Traits.isPrivate, Bool.or_eq_true, Bool.not_eq_true', beq_eq_false_iff_ne]
    tauto
  have htags : f.allowsTags d.vendorTags = true ↔
      (∀ tag, d.content.Inline tag → f.Permits tag) ∧
        ∀ tag ∈ d.traits.vendorTags, f.Permits tag := by
    simp only [allowsTags_iff, Directive.mem_vendorTags]
    constructor
    · intro h
      exact ⟨fun tag ht => h tag (Or.inl ht), fun tag ht => h tag (Or.inr ht)⟩
    · rintro ⟨hinline, hmeta⟩ tag (ht | ht)
      · exact hinline tag ht
      · exact hmeta tag ht
  rw [allows, Bool.and_eq_true, hvisible, htags]
  constructor
  · rintro ⟨hv, hi, hm⟩
    exact ⟨hv, hi, hm⟩
  · rintro ⟨hv, hi, hm⟩
    exact ⟨hv, hi, hm⟩

/-- All tags of a field are allowed, the capability of its shorthand among them. -/
structure ShowsField (f : Filter) (x : DataField) : Prop where
  inline : ∀ tag, x.field.capability = some tag → f.Permits tag
  vendorTags : ∀ tag ∈ x.traits.vendorTags, f.Permits tag

theorem allowsField_iff {x : DataField} :
    f.allowsTags x.vendorTags = true ↔ f.ShowsField x := by
  simp only [allowsTags_iff, DataField.mem_vendorTags]
  constructor
  · intro h
    exact ⟨fun tag ht => h tag (Or.inl ht), fun tag ht => h tag (Or.inr ht)⟩
  · rintro ⟨hinline, htags⟩ tag (ht | ht)
    · exact hinline tag ht
    · exact htags tag ht

/-! ## Actions -/

/-- An action passes if its group is not excluded, its capabilities are allowed and one of its paths
is shown; it keeps what is shown. -/
theorem action?_eq_some_iff {a b : Action} :
    f.action? a = some b ↔ (a.group ∉ f.excludedGroups ∧ (∀ tag ∈ a.capabilities, f.Permits tag) ∧
      ∃ d ∈ a.directives, d.kind = .uri ∧ f.Shows d) ∧
      b = { a with directives := a.directives.filter f.allows } := by
  have hgate : (f.excludedGroups.contains a.group || !f.allowsTags a.capabilities) = true ↔
      ¬ (a.group ∉ f.excludedGroups ∧ ∀ tag ∈ a.capabilities, f.Permits tag) := by
    rw [Bool.or_eq_true, List.contains_iff_mem, Bool.not_eq_true', ← Bool.not_eq_true,
      allowsTags_iff]
    tauto
  have hroute : (a.directives.filter f.allows).any (·.kind == .uri) = true ↔
      ∃ d ∈ a.directives, d.kind = .uri ∧ f.Shows d := by
    simp only [List.any_eq_true, List.mem_filter, beq_iff_eq, allows_iff]
    constructor
    · rintro ⟨d, ⟨hd, hshows⟩, hkind⟩
      exact ⟨d, hd, hkind, hshows⟩
    · rintro ⟨d, hd, hkind, hshows⟩
      exact ⟨d, ⟨hd, hshows⟩, hkind⟩
  unfold action?
  dsimp only
  by_cases hg : a.group ∉ f.excludedGroups ∧ ∀ tag ∈ a.capabilities, f.Permits tag
  · rw [if_neg (fun h => hgate.1 h hg)]
    by_cases hr : ∃ d ∈ a.directives, d.kind = .uri ∧ f.Shows d
    · rw [if_pos (hroute.2 hr), Option.some.injEq, eq_comm]
      exact ⟨fun h => ⟨⟨hg.1, hg.2, hr⟩, h⟩, fun h => h.2⟩
    · rw [if_neg (fun h => hr (hroute.1 h))]
      constructor
      · intro h
        cases h
      · rintro ⟨⟨-, -, h⟩, -⟩
        exact absurd h hr
  · rw [if_pos (hgate.2 hg)]
    constructor
    · intro h
      cases h
    · rintro ⟨⟨h₁, h₂, -⟩, -⟩
      exact absurd ⟨h₁, h₂⟩ hg

theorem shows_of_mem {a b : Action} {d : Directive} (hb : f.action? a = some b)
    (hd : d ∈ b.directives) : d ∈ a.directives ∧ f.Shows d := by
  obtain ⟨-, rfl⟩ := action?_eq_some_iff.1 hb
  rw [List.mem_filter, allows_iff] at hd
  exact hd

end Filter

/-- An action exists in a version that is not below its first one; it keeps what is in force. -/
theorem Action.at?_eq_some_iff {a e : Action} {v : Version.Number} :
    a.at? v = some e ↔ (∀ first, a.minVersion? = some first → first ≤ v) ∧
      e = { a with
        contentTypes :=
          (a.contentTypes.find? fun t => a.contentTypeAt? (some v) == some t.mediaType).toList
        directives := a.directives.filter (·.traits.isAt v) } := by
  have hfirst : a.minVersion?.any (v < ·) = true ↔
      ¬ ∀ first, a.minVersion? = some first → first ≤ v := by
    cases a.minVersion? with
    | none => simp
    | some first =>
      simp only [Option.any_some, decide_eq_true_eq, Option.some.injEq, forall_eq']
      show v.tenths < first.tenths ↔ ¬ first.tenths ≤ v.tenths
      omega
  unfold at?
  by_cases h : ∀ first, a.minVersion? = some first → first ≤ v
  · rw [if_neg (fun hlt => hfirst.1 hlt h), Option.some.injEq, eq_comm]
    exact ⟨fun he => ⟨h, he⟩, fun he => he.2⟩
  · rw [if_pos (hfirst.2 h)]
    constructor
    · intro he
      cases he
    · rintro ⟨he, -⟩
      exact absurd he h

namespace Filter

/-- The action can be seen in a version. -/
structure Survives (f : Filter) (v : Version.Number) (a : Action) : Prop where
  group : a.group ∉ f.excludedGroups
  capabilities : ∀ tag ∈ a.capabilities, f.Permits tag
  since : ∀ first, a.minVersion? = some first → first ≤ v
  routed : ∃ d ∈ a.directives, d.kind = .uri ∧ f.Shows d

/-- The entry of an action in the view of a version, if it has one. -/
def entry? (f : Filter) (v : Version.Number) (a : Action) : Option Action :=
  (f.action? a).bind (·.at? v)

end Filter

namespace Graph

theorem view_actions (g : Graph) (v : Version.Number) (f : Filter) :
    (g.view v f).actions = g.actions.filterMap (f.entry? v) := by
  unfold view
  rw [List.filterMap_filterMap]
  rfl

theorem mem_view_actions {g : Graph} {v : Version.Number} {f : Filter} {a e : Action}
    (ha : a ∈ g.actions) (he : f.entry? v a = some e) : e ∈ (g.view v f).actions := by
  rw [view_actions, List.mem_filterMap]
  exact ⟨a, ha, he⟩

/-- A representation has the same place in all views. -/
theorem view_representations (g : Graph) (v : Version.Number) (f : Filter) (i : Nat) :
    (g.view v f).representations[i]? =
      g.representations[i]?.map fun r => (f.representation r).atVersion v := by
  unfold view
  rw [List.getElem?_map]

end Graph

end VersionedApi
