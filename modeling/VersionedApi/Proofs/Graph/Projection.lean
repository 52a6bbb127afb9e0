import VersionedApi.Proofs.Action.MediaType
import VersionedApi.Proofs.Action.WellFormed
import VersionedApi.Proofs.Graph.Compiled

/-!
# Versions of actions and filters

Taking an action at a version drops directives of some kinds only: paths, capabilities and the first
version have no version of their own (`Action.at?_routes`, `Action.at?_capabilities`,
`Action.at?_minVersion?`). Filters in turn leave first versions and media types alone. So neither
looks at what the other one takes away.

* `Action.at?_contentTypes` : one media type is left, the one in force; `Action.at?_keeps_first` : it
  stands first among those that are spelled alike;
* `Action.at?_again` : a second time nothing changes;
* `Filter.action?_at?` : an action passes a filter at a version exactly if it passes it as a whole;
* `Action.at?_projects` : the two commute, and the first is a projection.
-/

namespace VersionedApi

variable {registry : Registry} {source : ActionSource} {f : Filter} {a b : Action}
variable {v : Version.Number}

namespace Action

/-! ## What a version leaves -/

theorem at?_routes (h : Action.read registry source = .ok a) (hb : a.at? v = some b) :
    b.routes = a.routes := by
  refine at?_routes_of_isAt (fun d hd group path hcontent => ?_) hb
  exact isAt_of_read h hd (by rw [Directive.kind, hcontent]; rfl) v

theorem at?_capabilities (h : Action.read registry source = .ok a) (hb : a.at? v = some b) :
    b.capabilities = a.capabilities := by
  obtain ⟨-, rfl⟩ := at?_eq_some_iff.1 hb
  have hcapabilities := capabilities_filter (a := a) (p := (·.traits.isAt v)) (q := fun _ => true)
    fun d hd name hcontent => isAt_of_read h hd (by rw [Directive.kind, hcontent]; rfl) v
  rw [List.filter_true] at hcapabilities
  exact hcapabilities

theorem at?_minVersion? (h : Action.read registry source = .ok a) (hb : a.at? v = some b) :
    b.minVersion? = a.minVersion? := by
  obtain ⟨-, rfl⟩ := at?_eq_some_iff.1 hb
  exact minVersion?_filter (a := a) fun d hd hkind => isAt_of_read h hd (by rw [hkind]; rfl) v

theorem at?_group (h : Action.read registry source = .ok a) (hb : a.at? v = some b) :
    b.group = a.group := by
  rw [group, at?_routes h hb, group]

/-- One media type is left: the first that is spelled like the one in force. -/
theorem at?_keeps_first (h : Action.read registry source = .ok a) (hb : a.at? v = some b) :
    ∃ before t behind, a.contentTypes = before ++ t :: behind ∧ b.contentTypes = [t] ∧
      a.contentTypeAt? (some v) = some t.mediaType ∧
      ∀ x ∈ before, x.mediaType ≠ t.mediaType := by
  obtain ⟨x, hx⟩ := List.exists_mem_of_ne_nil _ (wellFormed_of_read h).contentTypes
  obtain ⟨mediaType, hmedia⟩ := contentTypeAt?_isSome hx (some v)
  obtain ⟨y, hy, rfl⟩ := exists_of_contentTypeAt? hmedia
  have hfound : (a.contentTypes.find? fun t =>
      a.contentTypeAt? (some v) == some t.mediaType).isSome = true := by
    rw [List.find?_isSome]
    exact ⟨y, hy, by simp [hmedia]⟩
  obtain ⟨t, ht⟩ := Option.isSome_iff_exists.1 hfound
  obtain ⟨-, rfl⟩ := at?_eq_some_iff.1 hb
  obtain ⟨hforce, before, behind, htypes, hbefore⟩ := List.find?_eq_some_iff_append.1 ht
  have hforce : a.contentTypeAt? (some v) = some t.mediaType := by simpa using hforce
  refine ⟨before, t, behind, htypes, by simp only [ht, Option.toList_some], hforce, ?_⟩
  intro x hx hsame
  have hnot := hbefore x hx
  simp [hforce, hsame] at hnot

theorem at?_contentTypes (h : Action.read registry source = .ok a) (hb : a.at? v = some b) :
    ∃ t, b.contentTypes = [t] ∧ a.contentTypeAt? (some v) = some t.mediaType := by
  obtain ⟨-, t, -, -, hkept, hforce, -⟩ := at?_keeps_first h hb
  exact ⟨t, hkept, hforce⟩

theorem at?_again (h : Action.read registry source = .ok a) (hb : a.at? v = some b) :
    b.at? v = some b := by
  have hfirst := at?_minVersion? h hb
  obtain ⟨t, htypes, -⟩ := at?_contentTypes h hb
  have hmedia := contentTypeAt?_singleton htypes (some v)
  obtain ⟨hsince, hbeq⟩ := at?_eq_some_iff.1 hb
  have hdirectives : b.directives.filter (·.traits.isAt v) = b.directives := by
    rw [hbeq]
    dsimp only
    rw [List.filter_filter]
    simp only [Bool.and_self]
  refine at?_eq_some_iff.2 ⟨by rwa [hfirst], ?_⟩
  rw [hdirectives, hmedia, htypes]
  obtain ⟨owner, method, label, description, types, directives⟩ := b
  obtain rfl : types = [t] := htypes
  simp

end Action

/-! ## Filters -/

namespace Filter

/-- A filter lets an action pass at a version exactly if it lets the whole action pass: it looks at
nothing that has a version. -/
theorem action?_at? (h : Action.read registry source = .ok a) (hb : a.at? v = some b) {e : Action} :
    f.action? b = some e ↔ (a.group ∉ f.excludedGroups ∧ (∀ tag ∈ a.capabilities, f.Permits tag) ∧
      ∃ d ∈ a.directives, d.kind = .uri ∧ f.Shows d) ∧
      e = { b with directives := b.directives.filter f.allows } := by
  have hrouted : (∃ d ∈ b.directives, d.kind = .uri ∧ f.Shows d) ↔
      ∃ d ∈ a.directives, d.kind = .uri ∧ f.Shows d := by
    obtain ⟨-, rfl⟩ := Action.at?_eq_some_iff.1 hb
    constructor
    · rintro ⟨d, hd, hkind, hshows⟩
      exact ⟨d, (List.mem_filter.1 hd).1, hkind, hshows⟩
    · rintro ⟨d, hd, hkind, hshows⟩
      have hat := Action.isAt_of_read h hd (by rw [hkind]; rfl) v
      exact ⟨d, List.mem_filter.2 ⟨hd, hat⟩, hkind, hshows⟩
  rw [action?_eq_some_iff, Action.at?_group h hb, Action.at?_capabilities h hb, hrouted]

theorem entry?_comm (h : Action.read registry source = .ok a) (f : Filter) (v : Version.Number) :
    f.entry? v a = (a.at? v).bind f.action? := by
  apply Option.ext
  intro e
  rw [entry?_eq_some_iff h, Option.bind_eq_some_iff]
  constructor
  · rintro ⟨⟨hgroup, hcapabilities, hsince, hrouted⟩, rfl⟩
    have hb := Action.at?_eq_some_iff.2 ⟨hsince, rfl⟩
    refine ⟨_, hb, (action?_at? h hb).2 ⟨⟨hgroup, hcapabilities, hrouted⟩, ?_⟩⟩
    simp only [List.filter_filter, Bool.and_comm]
  · rintro ⟨b, hb, he⟩
    obtain ⟨⟨hgroup, hcapabilities, hrouted⟩, rfl⟩ := (action?_at? h hb).1 he
    obtain ⟨hsince, rfl⟩ := Action.at?_eq_some_iff.1 hb
    refine ⟨⟨hgroup, hcapabilities, hsince, hrouted⟩, ?_⟩
    simp only [List.filter_filter, Bool.and_comm]

end Filter

namespace Action

/-- Taking an action at a version commutes with every filter, and it is a projection: what is left
has a path and one media type, the one in force, and stays as it is at that version. -/
theorem at?_projects (h : Action.read registry source = .ok a) (f : Filter) (v : Version.Number) :
    (f.action? a).bind (·.at? v) = (a.at? v).bind f.action? ∧
      ∀ b, a.at? v = some b → b.routes ≠ [] ∧ b.contentTypes.length = 1 ∧
        b.contentTypeAt? (some v) = a.contentTypeAt? (some v) ∧ b.at? v = some b := by
  refine ⟨Filter.entry?_comm h f v, fun b hb => ?_⟩
  obtain ⟨t, htypes, hmedia⟩ := at?_contentTypes h hb
  refine ⟨?_, by rw [htypes]; rfl, ?_, at?_again h hb⟩
  · obtain ⟨d, hd, hkind⟩ := (wellFormed_of_read h).path
    obtain ⟨group, path, hcontent⟩ := exists_uri_of_kind hkind
    have hroute : ⟨group, path, d.traits⟩ ∈ a.routes := mem_routes.2 ⟨d, hd, hcontent, rfl⟩
    rw [at?_routes h hb]
    exact List.ne_nil_of_mem hroute
  · rw [contentTypeAt?_singleton htypes, hmedia]

/-- The movie at version 1.1, which has a parameter for the staff there and is in YAML. -/
theorem at?_projects_formats :
    ∃ source ∈ Formats.documentation.actions, Action.read {} source = .ok Formats.action ∧
      ∃ b, Formats.action.at? Movies.second = some b ∧ b.contentTypes = [Formats.yaml] ∧
        b.at? Movies.second = some b ∧
        (Filter.action? {} Formats.action).bind (·.at? Movies.second) = Filter.action? {} b := by
  obtain ⟨source, hsource, hread⟩ := Graph.exists_source Formats.compiled List.mem_cons_self
  obtain ⟨hcomm, hprojects⟩ := at?_projects hread {} Movies.second
  have hat : Formats.action.at? Movies.second =
      some { Formats.action with contentTypes := [Formats.yaml] } := by decide +kernel
  rw [hat] at hcomm
  exact ⟨source, hsource, hread, _, hat, rfl, (hprojects _ hat).2.2.2, hcomm⟩

end Action

end VersionedApi
