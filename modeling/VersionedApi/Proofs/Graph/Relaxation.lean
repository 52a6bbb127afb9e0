import Mathlib.Data.List.Basic
import VersionedApi.Proofs.Graph.Compiled

/-!
# Filters that show more

* `Filter.RelaxedBy` : another filter shows private directives if this one does, allows all its
  vendor tags and excludes no other group. So whatever one shows the other one shows, and an action
  that survives the one survives the other (`RelaxedBy.shows`, `RelaxedBy.survives`);
* `Filter.entry?_relaxed` : the entry of an action under the first filter is the entry under the
  second one without the directives that the first one hides;
* `Action.Within`, `Representation.Within` : the same but for missing directives, or fields;
* `Graph.view_relaxed` : a view under the first filter is the view under the second one without some
  actions, directives and fields.
-/

namespace VersionedApi

theorem filter_filter_of_imp {α : Type} {p q : α → Bool} (h : ∀ x, p x = true → q x = true)
    (xs : List α) : (xs.filter q).filter p = xs.filter p := by
  rw [List.filter_filter]
  apply List.filter_congr
  intro x _
  cases hp : p x with
  | false => rfl
  | true => rw [h x hp]; rfl

/-- If whatever one step finds the other one finds too, what the first one finds in a list is
related to a part of what the second one finds, in order. -/
theorem exists_sublist_filterMap {α β : Type} {R : β → β → Prop} {p q : α → Option β} {xs : List α}
    (h : ∀ x ∈ xs, ∀ y, p x = some y → ∃ y', q x = some y' ∧ R y y') :
    ∃ kept, kept.Sublist (xs.filterMap q) ∧ List.Forall₂ R (xs.filterMap p) kept := by
  induction xs with
  | nil => exact ⟨[], List.Sublist.refl _, .nil⟩
  | cons x xs ih =>
    obtain ⟨kept, hkept, hrelated⟩ := ih fun z hz => h z (List.mem_cons_of_mem x hz)
    cases hp : p x with
    | none =>
      rw [List.filterMap_cons_none hp]
      refine ⟨kept, hkept.trans ?_, hrelated⟩
      exact (List.sublist_cons_self x xs).filterMap q
    | some y =>
      obtain ⟨y', hq, hy⟩ := h x List.mem_cons_self y hp
      rw [List.filterMap_cons_some hp, List.filterMap_cons_some hq]
      exact ⟨y' :: kept, hkept.cons_cons y', .cons hy hrelated⟩

/-! ## Filters -/

namespace Filter

variable {f f' : Filter}

/-- The second filter shows whatever the first one shows. -/
structure RelaxedBy (f f' : Filter) : Prop where
  includePrivate : f.includePrivate = true → f'.includePrivate = true
  vendorTags : f'.vendorTags = none ∨ ∃ allowed allowed', f.vendorTags = some allowed ∧
    f'.vendorTags = some allowed' ∧ ∀ tag ∈ allowed, tag ∈ allowed'
  excludedGroups : ∀ group ∈ f'.excludedGroups, group ∈ f.excludedGroups

namespace RelaxedBy

theorem permits (h : f.RelaxedBy f') {tag : String} (htag : f.Permits tag) : f'.Permits tag := by
  intro listed hlisted
  rcases h.vendorTags with hnone | ⟨allowed, allowed', hallowed, hallowed', hsubset⟩
  · rw [hnone] at hlisted
    cases hlisted
  · obtain rfl : allowed' = listed := Option.some.inj (hallowed'.symm.trans hlisted)
    exact hsubset tag (htag allowed hallowed)

theorem shows (h : f.RelaxedBy f') {d : Directive} (hd : f.Shows d) : f'.Shows d where
  visible hprivate := h.includePrivate (hd.visible hprivate)
  inline tag htag := h.permits (hd.inline tag htag)
  vendorTags tag htag := h.permits (hd.vendorTags tag htag)

theorem allows (h : f.RelaxedBy f') {d : Directive} (hd : f.allows d = true) :
    f'.allows d = true := allows_iff.2 (h.shows (allows_iff.1 hd))

theorem allowsTags (h : f.RelaxedBy f') {tags : List String} (htags : f.allowsTags tags = true) :
    f'.allowsTags tags = true :=
  allowsTags_iff.2 fun tag htag => h.permits (allowsTags_iff.1 htags tag htag)

theorem survives (h : f.RelaxedBy f') {v : Version.Number} {a : Action} (ha : f.Survives v a) :
    f'.Survives v a where
  group hgroup := ha.group (h.excludedGroups _ hgroup)
  capabilities tag htag := h.permits (ha.capabilities tag htag)
  since := ha.since
  routed := by
    obtain ⟨d, hd, hkind, hshows⟩ := ha.routed
    exact ⟨d, hd, hkind, h.shows hshows⟩

end RelaxedBy

theorem entry?_relaxed {registry : Registry} {source : ActionSource} {a e : Action}
    {v : Version.Number} (h : Action.read registry source = .ok a) (hf : f.RelaxedBy f')
    (he : f.entry? v a = some e) : ∃ e', f'.entry? v a = some e' ∧
      e = { e' with directives := e'.directives.filter f.allows } := by
  obtain ⟨hsurvives, rfl⟩ := (entry?_eq_some_iff h).1 he
  refine ⟨_, (entry?_eq_some_iff h).2 ⟨hf.survives hsurvives, rfl⟩, ?_⟩
  have hdirectives : ((a.directives.filter f'.allows).filter (·.traits.isAt v)).filter f.allows =
      (a.directives.filter f.allows).filter (·.traits.isAt v) := by
    rw [List.filter_comm, filter_filter_of_imp (q := f'.allows) fun d => hf.allows]
  simp only [hdirectives]

end Filter

/-! ## Views -/

/-- The same action, of which some directives may be missing. -/
structure Action.Within (e e' : Action) : Prop where
  owner : e.owner = e'.owner
  method : e.method = e'.method
  label : e.label = e'.label
  description : e.description = e'.description
  contentTypes : e.contentTypes = e'.contentTypes
  directives : e.directives.Sublist e'.directives

/-- The same representation, of which some fields may be missing. -/
structure Representation.Within (r r' : Representation) : Prop where
  owner : r.owner = r'.owner
  label : r.label = r'.label
  description : r.description = r'.description
  fields : r.fields.Sublist r'.fields

namespace Graph

variable {registry : Registry} {supported : List Version.Number} {sources : Sources} {g : Graph}
variable {f f' : Filter}

theorem entry?_within (h : compile registry supported sources = .ok g) (hf : f.RelaxedBy f')
    {v : Version.Number} {a e : Action} (ha : a ∈ g.actions) (he : f.entry? v a = some e) :
    ∃ e', f'.entry? v a = some e' ∧ e.Within e' := by
  obtain ⟨source, -, hread⟩ := exists_source h ha
  obtain ⟨e', he', rfl⟩ := Filter.entry?_relaxed hread hf he
  exact ⟨e', he', rfl, rfl, rfl, rfl, rfl, List.filter_sublist⟩

theorem representation_within (hf : f.RelaxedBy f') (v : Version.Number) (r : Representation) :
    ((f.representation r).atVersion v).Within ((f'.representation r).atVersion v) := by
  have hfields : (r.fields.filter fun x => f.allowsTags x.vendorTags).Sublist
      (r.fields.filter fun x => f'.allowsTags x.vendorTags) :=
    List.monotone_filter_right r.fields fun x => hf.allowsTags
  exact ⟨rfl, rfl, rfl, hfields.filter _⟩

/-- A view under one filter is the view under a filter that relaxes it, without some actions and, in
the others, some directives; each action goes back to the same one of the graph. Each representation
has its place and misses some fields. -/
theorem view_relaxed (h : compile registry supported sources = .ok g) (hf : f.RelaxedBy f')
    (v : Version.Number) :
    (∀ a ∈ g.actions, ∀ e, f.entry? v a = some e → ∃ e', f'.entry? v a = some e' ∧ e.Within e') ∧
    (∃ kept, kept.Sublist (g.view v f').actions ∧
      List.Forall₂ Action.Within (g.view v f).actions kept) ∧
    List.Forall₂ Representation.Within (g.view v f).representations
      (g.view v f').representations := by
  refine ⟨fun a ha e he => entry?_within h hf ha he, ?_, ?_⟩
  · rw [view_actions, view_actions]
    exact exists_sublist_filterMap fun a ha e he => entry?_within h hf ha he
  · unfold view
    rw [List.forall₂_map_left_iff, List.forall₂_map_right_iff, List.forall₂_same]
    exact fun r _ => representation_within hf v r

end Graph

namespace Formats

/-- What everyone may see who is in the first trial. -/
def narrow : Filter := { vendorTags := some ["TRIAL"], excludedGroups := ["Staff"] }

def wide : Filter := { includePrivate := true, vendorTags := some ["TRIAL", "SECOND_TRIAL"] }

theorem relaxed : narrow.RelaxedBy wide :=
  ⟨fun _ => rfl, Or.inr ⟨_, _, rfl, rfl, by simp⟩, by simp [wide]⟩

end Formats

namespace Graph

/-- The staff sees the movie with one path and one parameter more. -/
theorem view_relaxed_formats :
    Formats.narrow.RelaxedBy Formats.wide ∧
      (∃ kept, kept.Sublist (Formats.graph.view Movies.second Formats.wide).actions ∧
        List.Forall₂ Action.Within (Formats.graph.view Movies.second Formats.narrow).actions kept) ∧
      (Formats.graph.view Movies.second Formats.narrow).actions =
        [{ Formats.shown with contentTypes := [Formats.yaml] }] ∧
      (Formats.graph.view Movies.second Formats.wide).actions =
        [{ Formats.action with contentTypes := [Formats.yaml] }] := by
  obtain ⟨-, hactions, -⟩ := view_relaxed Formats.compiled Formats.relaxed Movies.second
  exact ⟨Formats.relaxed, hactions, by decide +kernel, by decide +kernel⟩

end Graph

end VersionedApi
