import VersionedApi.Proofs.Graph.Compiled

/-!
# What a filter discloses

* `Graph.Derived` : where a change can come from if nothing hidden is disclosed: from an action that
  passes the filter, on a path that is shown, by way of a directive that is shown, a media type or
  the first version; or from a field whose tags are all allowed;
* `Graph.discloses_exactly_shown` : views hold exactly what is shown and in force, in its order, and
  every change of a changelog is derived in that way. If private directives are not shown, all paths
  in a changelog are public.
-/

namespace VersionedApi

instance (f : Filter) (d : Directive) : Decidable (f.Shows d) :=
  decidable_of_iff _ Filter.allows_iff

namespace Filter

instance (f : Filter) (x : DataField) : Decidable (f.ShowsField x) :=
  decidable_of_iff _ allowsField_iff

/-- The action passes the filter, and the path is one of those that are shown. -/
structure ShowsRoute (f : Filter) (a : Action) (route : Route) : Prop where
  group : a.group ∉ f.excludedGroups
  capabilities : ∀ tag ∈ a.capabilities, f.Permits tag
  uri : ∃ d ∈ a.directives, f.Shows d ∧ d.content = .uri route.group route.path ∧
    d.traits = route.traits

end Filter

namespace Graph

variable {registry : Registry} {supported : List Version.Number} {sources : Sources} {g : Graph}
variable {f : Filter} {a b : Action} {c : Change}

/-- The changes that come from what is shown. -/
inductive Derived (g : Graph) (f : Filter) : Change → Prop
  | first {a : Action} {route : Route} {d : Directive} {first w : Version.Number}
      (ha : a ∈ g.actions) (hroute : f.ShowsRoute a route) (hd : d ∈ a.directives)
      (hshows : f.Shows d) (hfirst : d.content = .minVersion first)
      (hw : Version.introduced? ⟨some first, none⟩ g.supported = some w) :
      Derived g f (a.changeOn route w .added .action a.ownPayload)
  | gained {a : Action} {route : Route} {d : Directive} {subject : Subject}
      {payload : Json.Value} {w : Version.Number} (ha : a ∈ g.actions)
      (hroute : f.ShowsRoute a route) (hd : d ∈ a.directives) (hshows : f.Shows d)
      (hpayload : a.payload? d = some (subject, payload))
      (hw : Version.Begins g.supported d.traits.version w) :
      Derived g f (a.changeOn route w .added subject payload)
  | lost {a : Action} {route : Route} {d : Directive} {subject : Subject}
      {payload : Json.Value} {w : Version.Number} (ha : a ∈ g.actions)
      (hroute : f.ShowsRoute a route) (hd : d ∈ a.directives) (hshows : f.Shows d)
      (hpayload : a.payload? d = some (subject, payload))
      (hw : Version.Ends g.supported d.traits.version w) :
      Derived g f (a.changeOn route w .removed subject payload)
  | switched {a : Action} {route : Route} {t : ContentType} {mediaType : String}
      {w : Version.Number} (ha : a ∈ g.actions) (hroute : f.ShowsRoute a route)
      (ht : t ∈ a.contentTypes)
      (hw : Version.Begins g.supported t.version w ∨ Version.Ends g.supported t.version w)
      (hmedia : a.contentTypeAt? (some w) = some mediaType) :
      Derived g f (a.changeOn route w .changed .contentType (a.mediaPayload mediaType))
  | field {r : Representation} {x : DataField} {c : Change} (hr : r ∈ g.representations)
      (hx : x ∈ r.fields) (hshows : f.ShowsField x) (hc : c ∈ r.fieldChanges g.supported x) :
      Derived g f c

theorem derived_of_undergoes (h : compile registry supported sources = .ok g) (ha : a ∈ g.actions)
    (hb : f.action? a = some b) (hc : b.Undergoes g.supported c) : g.Derived f c := by
  have hfirst := action?_minVersion? h ha hb
  obtain ⟨⟨hgroup, hcapabilities, -⟩, rfl⟩ := Filter.action?_eq_some_iff.1 hb
  have hroutes : ∀ {route : Route},
      route ∈ ({ a with directives := a.directives.filter f.allows } : Action).routes →
        f.ShowsRoute a route := by
    intro route hroute
    obtain ⟨d, hd, hcontent, htraits⟩ := Action.mem_routes.1 hroute
    obtain ⟨hmem, hshows⟩ := Filter.shows_of_mem hb hd
    exact ⟨hgroup, hcapabilities, d, hmem, hshows, hcontent, htraits⟩
  -- payloads and media types do not depend on the directives that the filter takes away
  cases hc with
  | comes hroute hmin hw =>
    rw [hfirst] at hmin
    obtain ⟨d, hd, hcontent⟩ := Action.exists_of_minVersion? hmin
    obtain ⟨source, -, hread⟩ := exists_source h ha
    have hshows : f.Shows d :=
      Filter.shows_minVersion hread hd (by rw [Directive.kind, hcontent]; rfl)
    exact (Derived.first ha (hroutes hroute) hd hshows hcontent hw :)
  | gains hroute hd hpayload hw =>
    obtain ⟨hmem, hshows⟩ := Filter.shows_of_mem hb hd
    exact (Derived.gained ha (hroutes hroute) hmem hshows hpayload hw :)
  | loses hroute hd hpayload hw =>
    obtain ⟨hmem, hshows⟩ := Filter.shows_of_mem hb hd
    exact (Derived.lost ha (hroutes hroute) hmem hshows hpayload hw :)
  | switches hroute ht hw hmedia =>
    exact (Derived.switched ha (hroutes hroute) ht hw hmedia :)

theorem derived_of_mem_changes {r : Representation} (hr : r ∈ g.representations)
    (hc : c ∈ (f.representation r).changes g.supported) : g.Derived f c := by
  unfold Representation.changes at hc
  obtain ⟨x, hx, hc⟩ := List.mem_flatMap.1 hc
  rw [Filter.representation, List.mem_filter, Filter.allowsField_iff] at hx
  exact .field hr hx.1 hx.2 hc

theorem Derived.exists_uri (h : g.Derived f c) {p : String} (hp : c.path = some p) :
    ∃ a ∈ g.actions, ∃ d ∈ a.directives, f.Shows d ∧
      ∃ group path, d.content = .uri group path ∧ p = Text.cleanPath path := by
  have hroute : ∀ {a : Action} {route : Route}, a ∈ g.actions → f.ShowsRoute a route →
      some (Text.cleanPath route.path) = some p →
        ∃ a ∈ g.actions, ∃ d ∈ a.directives, f.Shows d ∧
          ∃ group path, d.content = .uri group path ∧ p = Text.cleanPath path := by
    intro a route ha hroute hp
    obtain ⟨d, hd, hshows, hcontent, -⟩ := hroute.uri
    exact ⟨a, ha, d, hd, hshows, route.group, route.path, hcontent, (Option.some.inj hp).symm⟩
  cases h with
  | first ha hr => exact hroute ha hr hp
  | gained ha hr => exact hroute ha hr hp
  | lost ha hr => exact hroute ha hr hp
  | switched ha hr => exact hroute ha hr hp
  | field hr hx hshows hc =>
    obtain ⟨w, ⟨-, rfl⟩ | ⟨-, rfl⟩⟩ := Representation.mem_fieldChanges.1 hc
    · cases hp
    · cases hp

/-- The media types of an action come from directives too, and no filter hides those. -/
theorem exists_shown_of_mem_contentTypes (h : compile registry supported sources = .ok g)
    (ha : a ∈ g.actions) {t : ContentType} (ht : t ∈ a.contentTypes) :
    ∃ source ∈ sources.actions, Action.read registry source = .ok a ∧
      ∃ d, Action.MediaReadFrom registry source t d ∧ f.Shows d := by
  obtain ⟨source, hsource, hread⟩ := exists_source h ha
  obtain ⟨d, tags, htags, tag, htag, hd, hcontent⟩ := Action.exists_of_mem_contentTypes hread ht
  refine ⟨source, hsource, hread, d, ⟨tags, htags, tag, htag, hd, hcontent⟩, ?_⟩
  exact Filter.shows_of_readAs (Directive.readAs hd) rfl (by decide)

theorem entry_directives (h : compile registry supported sources = .ok g) (ha : a ∈ g.actions)
    {v : Version.Number} {e : Action} (he : f.entry? v a = some e) :
    e.directives =
      a.directives.filter fun d => decide (d.traits.isAt v = true ∧ f.Shows d) := by
  obtain ⟨-, rfl⟩ := (entry?_eq_some_iff h ha).1 he
  dsimp only
  rw [List.filter_filter]
  apply List.filter_congr
  intro d _
  rw [Bool.eq_iff_iff, Bool.and_eq_true, Filter.allows_iff, decide_eq_true_eq]

theorem view_fields (g : Graph) (v : Version.Number) (f : Filter) {i : Nat} {r : Representation}
    (hr : g.representations[i]? = some r) :
    (g.view v f).representations[i]? = some { r with
      fields := r.fields.filter fun x => decide (x.traits.isAt v = true ∧ f.ShowsField x) } := by
  rw [view_representations, hr, Option.map_some]
  unfold Representation.atVersion Representation.fieldsAt Filter.representation
  dsimp only
  rw [List.filter_filter]
  congr 2
  apply List.filter_congr
  intro x _
  rw [Bool.eq_iff_iff, Bool.and_eq_true, Filter.allowsField_iff, decide_eq_true_eq]

/-- Views hold exactly what is shown and in force, and changelogs nothing but what comes from it.

In the view of a version the entries of the actions stand in their order. A directive is in the
entry of its action exactly if the action survives and the directive is in force and shown; a field
is there exactly if it is in force and all its tags are allowed. All changes of the changelog are
derived from what is shown, the directives that give the media types included, and unless private
directives are shown, their paths are those of uris that are not private. -/
theorem discloses_exactly_shown (h : compile registry supported sources = .ok g) (f : Filter) :
    (∀ v, (g.view v f).actions = g.actions.filterMap (f.entry? v) ∧
      (∀ a ∈ g.actions,
        (∀ d ∈ a.directives, (∃ e, f.entry? v a = some e ∧ d ∈ e.directives) ↔
          f.Survives v a ∧ d.traits.isAt v = true ∧ f.Shows d) ∧
        ∀ e, f.entry? v a = some e → e.directives =
          a.directives.filter fun d => decide (d.traits.isAt v = true ∧ f.Shows d)) ∧
      (g.view v f).representations.length = g.representations.length ∧
      ∀ (i : Nat) (r : Representation), g.representations[i]? = some r →
        (g.view v f).representations[i]? = some { r with
          fields := r.fields.filter fun x => decide (x.traits.isAt v = true ∧ f.ShowsField x) }) ∧
    (∀ a ∈ g.actions, ∀ t ∈ a.contentTypes,
      ∃ source ∈ sources.actions, Action.read registry source = .ok a ∧
        ∃ d, Action.MediaReadFrom registry source t d ∧ f.Shows d) ∧
    ∃ log, g.changelog f = .ok log ∧ ∀ c ∈ log.changes, g.Derived f c ∧
      (f.includePrivate = false → ∀ p, c.path = some p →
        ∃ a ∈ g.actions, ∃ d ∈ a.directives, ∃ group path, d.content = .uri group path ∧
          d.traits.visibility ≠ some .internal ∧ p = Text.cleanPath path) := by
  refine ⟨fun v => ⟨view_actions g v f, fun a ha => ⟨fun d hd => ?_, fun e he => ?_⟩, ?_, ?_⟩, ?_, ?_⟩
  · rw [mem_entry_iff h ha hd]
    exact and_congr_right fun _ => and_comm
  · exact entry_directives h ha he
  · unfold view
    rw [List.length_map]
  · intro i r hr
    exact view_fields g v f hr
  · intro a ha t ht
    exact exists_shown_of_mem_contentTypes h ha ht
  · obtain ⟨log, hlog, hmem⟩ := changelog_ok h f
    refine ⟨log, hlog, fun c hc => ?_⟩
    have hderived : g.Derived f c := by
      rcases (hmem c).1 hc with ⟨a, ha, b, hb, hc⟩ | ⟨r, hr, hc⟩
      · exact derived_of_undergoes h ha hb hc
      · exact derived_of_mem_changes hr hc
    refine ⟨hderived, fun hpublic p hp => ?_⟩
    obtain ⟨a, ha, d, hd, hshows, group, path, hcontent, hpath⟩ := hderived.exists_uri hp
    refine ⟨a, ha, d, hd, group, path, hcontent, fun hprivate => ?_, hpath⟩
    rw [hshows.visible hprivate] at hpublic
    cases hpublic

/-- The listing of movies has a private path, which is neither in a view nor in the changelog. -/
theorem discloses_exactly_shown_movies :
    (∀ d ∈ Movies.action.directives,
      (∃ e, Filter.entry? {} Movies.third Movies.action = some e ∧ d ∈ e.directives) ↔
        Filter.Survives {} Movies.third Movies.action ∧ d.traits.isAt Movies.third = true ∧
          Filter.Shows {} d) ∧
      ∃ log, Movies.graph.changelog {} = .ok log ∧ ∀ c ∈ log.changes,
        Movies.graph.Derived {} c ∧ c.path ≠ some "/all" := by
  obtain ⟨hviews, -, log, hlog, hchanges⟩ := discloses_exactly_shown Movies.compiled {}
  obtain ⟨-, hactions, -⟩ := hviews Movies.third
  refine ⟨(hactions _ List.mem_cons_self).1, log, hlog, fun c hc => ⟨(hchanges c hc).1, ?_⟩⟩
  intro hp
  obtain ⟨a, ha, d, hd, group, path, hcontent, hvisible, hpath⟩ := (hchanges c hc).2 rfl _ hp
  obtain rfl : a = Movies.action := List.mem_singleton.1 ha
  simp only [Movies.action, List.mem_cons, List.not_mem_nil, or_false] at hd
  rcases hd with rfl | rfl | rfl | rfl
  · cases hcontent
    exact absurd hpath (by decide +kernel)
  · exact hvisible rfl
  · cases hcontent
  · cases hcontent

end Graph

end VersionedApi
