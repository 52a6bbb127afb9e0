import VersionedApi.Proofs.Graph.Exclusion

/-!
# Described parts of paths in views

A uri is public or private. The description of a part of a path has no visibility of its own, but it
names the path that it belongs to.

* `Filter.entry?_segments` : a view keeps all descriptions of an action whose capability is allowed,
  whatever becomes of the path;
* `Filter.mem_entry_paths_iff` : unless private directives are shown, it keeps the paths of the
  public uris;
* `Graph.segment_paths_iff` : so a path that is named by a description is a path of the action in
  the view exactly if one of its uris is public. A path of which all are private stays named
  (`Graph.segment_names_hidden_path`).
-/

namespace VersionedApi

variable {registry : Registry} {supported : List Version.Number} {sources : Sources} {g : Graph}
variable {f : Filter} {a e : Action} {v : Version.Number}

namespace Filter

/-- The capability in the shorthand of a described part of a path is allowed, if there is one. -/
def showsSegment (f : Filter) (segment : Option String × Field) : Bool :=
  f.allowsTags segment.2.capability.toList

theorem showsSegment_iff {segment : Option String × Field} : f.showsSegment segment = true ↔
    ∀ tag, segment.2.capability = some tag → f.Permits tag := by
  simp only [showsSegment, allowsTags_iff, Option.mem_toList]

section Compiled
variable (h : compile registry supported sources = .ok g) (ha : a ∈ g.actions)
include h ha

/-- The description of a part of a path has neither a visibility nor vendor tags. -/
theorem allows_uriSegment {d : Directive} (hd : d ∈ a.directives) {uri : Option String}
    {field : Field} (hcontent : d.content = .uriSegment uri field) :
    f.allows d = f.showsSegment (uri, field) := by
  obtain ⟨source, -, hread⟩ := Graph.exists_source h ha
  obtain ⟨kind, version, -, hread⟩ := Action.readAs_of_mem hread hd
  obtain rfl : Kind.uriSegment = kind := by rw [← hread.kind, Directive.kind, hcontent]; rfl
  have hprivate : d.traits.isPrivate = false := by
    have hvisibility : d.traits.visibility = none := Option.isNone_iff_eq_none.1
      (Option.isSome_eq_false_iff.1 hread.visibility)
    rw [Traits.isPrivate, hvisibility]
    rfl
  have htags : d.vendorTags = field.capability.toList := by
    rw [Directive.vendorTags, hcontent, hread.vendorTags, List.append_nil]
    rfl
  rw [allows, hprivate, htags, Bool.not_false, Bool.or_true, Bool.true_and]
  rfl

theorem entry?_segments (he : f.entry? v a = some e) :
    e.segments = a.segments.filter f.showsSegment := by
  obtain ⟨source, -, hread⟩ := Graph.exists_source h ha
  obtain ⟨-, rfl⟩ := (Graph.entry?_eq_some_iff h ha).1 he
  rw [List.filter_filter]
  refine Action.segments_filter (a := a) fun d hd uri field hcontent => ?_
  rw [allows_uriSegment h ha hd hcontent,
    Action.isAt_of_read hread hd (by rw [Directive.kind, hcontent]; rfl) v, Bool.true_and]

theorem visibility_of_mem_routes {route : Route} (hroute : route ∈ a.routes) :
    route.traits.visibility = some .published ∨ route.traits.visibility = some .internal := by
  obtain ⟨source, -, hread⟩ := Graph.exists_source h ha
  obtain ⟨d, hd, hcontent, htraits⟩ := Action.mem_routes.1 hroute
  obtain ⟨kind, version, -, hread⟩ := Action.readAs_of_mem hread hd
  obtain rfl : Kind.uri = kind := by rw [← hread.kind, Directive.kind, hcontent]; rfl
  obtain ⟨visibility, hvisibility⟩ := Option.isSome_iff_exists.1 hread.visibility
  rw [← htraits, hvisibility]
  cases visibility with
  | published => exact Or.inl rfl
  | internal => exact Or.inr rfl

theorem mem_entry_paths_iff (hf : f.includePrivate = false) (he : f.entry? v a = some e)
    {p : String} : (∃ route ∈ e.routes, route.path = p) ↔
      ∃ route ∈ a.routes, route.path = p ∧ route.traits.visibility = some .published := by
  obtain ⟨b, hb, hat⟩ := Option.bind_eq_some_iff.1 he
  rw [entry?_routes h ha hb hat, action?_routes h ha hb]
  constructor
  · rintro ⟨route, hroute, hpath⟩
    obtain ⟨hmem, hshows⟩ := List.mem_filter.1 hroute
    refine ⟨route, hmem, hpath, (visibility_of_mem_routes h ha hmem).resolve_right ?_⟩
    intro hinternal
    rw [showsRoute_eq_false_iff.2 ⟨hf, hinternal⟩] at hshows
    cases hshows
  · rintro ⟨route, hmem, hpath, hpublished⟩
    refine ⟨route, List.mem_filter.2 ⟨hmem, ?_⟩, hpath⟩
    rw [← Bool.not_eq_false, showsRoute_eq_false_iff, hpublished]
    rintro ⟨-, hinternal⟩
    cases hinternal

end Compiled

end Filter

namespace Graph

/-- In a view without private directives an action has all its descriptions of parts of paths whose
capability is allowed. If one of them names a path of the action, that path is still there exactly
if one of its uris is public. -/
theorem segment_paths_iff (h : compile registry supported sources = .ok g) {f : Filter}
    (hf : f.includePrivate = false) (v : Version.Number) :
    (g.view v f).actions = g.actions.filterMap (f.entry? v) ∧
      ∀ a ∈ g.actions, ∀ e, f.entry? v a = some e →
        (∀ s, s ∈ e.segments ↔
          s ∈ a.segments ∧ ∀ tag, s.2.capability = some tag → f.Permits tag) ∧
        ∀ p field, (some p, field) ∈ e.segments → (∃ route ∈ a.routes, route.path = p) →
          ((∃ route ∈ e.routes, route.path = p) ↔
            ∃ route ∈ a.routes, route.path = p ∧ route.traits.visibility = some .published) := by
  refine ⟨view_actions g v f, fun a ha e he => ⟨fun s => ?_, fun p field _ _ => ?_⟩⟩
  · rw [Filter.entry?_segments h ha he, List.mem_filter, Filter.showsSegment_iff]
  · exact Filter.mem_entry_paths_iff h ha hf he

end Graph

namespace Formats

theorem entry_one :
    Filter.entry? {} .one action = some { shown with contentTypes := [json] } := by decide +kernel

theorem inner_mem : inner ∈ action.routes := by decide +kernel

end Formats

namespace Graph

/-- The path of the staff is described, and the view has the description but not the path. -/
theorem segment_paths_formats :
    Filter.entry? {} .one Formats.action =
        some { Formats.shown with contentTypes := [Formats.json] } ∧
      (some Formats.inner.path, Formats.identifier) ∈ Formats.shown.segments ∧
      Formats.inner ∈ Formats.action.routes ∧
      ¬ ∃ route ∈ Formats.shown.routes, route.path = Formats.inner.path := by
  obtain ⟨-, hentries⟩ := segment_paths_iff Formats.compiled (f := {}) rfl .one
  obtain ⟨hsegments, hpaths⟩ := hentries _ List.mem_cons_self _ Formats.entry_one
  have hdescribed : (some Formats.inner.path, Formats.identifier) ∈ Formats.shown.segments :=
    (hsegments _).2 ⟨List.mem_cons_self, by simp [Formats.identifier]⟩
  refine ⟨Formats.entry_one, hdescribed, Formats.inner_mem, fun hshown => ?_⟩
  have hpublic := (hpaths _ _ hdescribed ⟨_, Formats.inner_mem, rfl⟩).1 hshown
  revert hpublic
  decide +kernel

/-- Views without private directives can name a private path: the path of the staff is taken away,
and the description that belongs to it is not. -/
theorem segment_names_hidden_path :
    ¬ ∀ (registry : Registry) (supported : List Version.Number) (sources : Sources) (g : Graph)
      (f : Filter) (v : Version.Number) (a e : Action) (p : String) (field : Field),
      compile registry supported sources = .ok g → f.includePrivate = false → a ∈ g.actions →
      f.entry? v a = some e → e ∈ (g.view v f).actions → (some p, field) ∈ e.segments →
      (∃ route ∈ a.routes, route.path = p) → ∃ route ∈ e.routes, route.path = p := by
  intro hall
  have hview := mem_view_actions (g := Formats.graph) List.mem_cons_self Formats.entry_one
  have hpath := hall {} _ _ _ {} .one _ _ Formats.inner.path Formats.identifier Formats.compiled rfl
    List.mem_cons_self Formats.entry_one hview List.mem_cons_self ⟨_, Formats.inner_mem, rfl⟩
  revert hpath
  decide +kernel

end Graph

end VersionedApi
