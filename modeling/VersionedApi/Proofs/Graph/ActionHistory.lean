import Mathlib.Tactic.ByContra
import VersionedApi.Proofs.Action.MediaType
import VersionedApi.Proofs.Graph.Compiled

/-!
# Actions in views and in the changelog

* `Graph.changelog_actions_complete` : whatever differs between an action in two neighbouring
  versions is listed for each of its paths: that it exists, its parameters and responses, and its
  media type;
* `Graph.changelog_directives_sound` : what is listed of a parameter or a response is in force where
  it is added, and in the version before where it is removed. It is in the view of that version
  exactly if the action exists there: constraints and first versions are compared with the timeline
  one by one, so a change may be listed below the first version of its action
  (`Graph.changelog_below_first_version`).
-/

namespace VersionedApi

namespace Action

variable {a : Action}

theorem at?_eq_none_iff {v : Version.Number} :
    a.at? v = none ↔ ∃ first, a.minVersion? = some first ∧ ¬ first ≤ v := by
  rw [Option.eq_none_iff_forall_ne_some]
  constructor
  · intro h
    by_contra hfirst
    refine h _ (at?_eq_some_iff.2 ⟨fun first hmin => ?_, rfl⟩)
    by_contra hle
    exact hfirst ⟨first, hmin, hle⟩
  · rintro ⟨first, hmin, hle⟩ e he
    exact hle ((at?_eq_some_iff.1 he).1 first hmin)

theorem payload?_of_kind {d : Directive}
    (h : d.kind = .param ∨ d.kind = .returns ∨ d.kind = .throws) :
    ∃ subject payload, a.payload? d = some (subject, payload) := by
  obtain ⟨content, traits⟩ := d
  rcases h with h | h | h
  · cases content with
    | param field => exact ⟨_, _, rfl⟩
    | _ => cases h
  · cases content with
    | returns response => exact ⟨_, _, rfl⟩
    | _ => cases h
  · cases content with
    | throws response => exact ⟨_, _, rfl⟩
    | _ => cases h

/-! ## Media types -/

theorem exists_switch {timeline : List Version.Number} {u w : Version.Number}
    (hs : timeline.Pairwise (· < ·)) (hn : [u, w] <:+: timeline)
    (h : a.contentTypeAt? (some u) ≠ a.contentTypeAt? (some w)) :
    ∃ t ∈ a.contentTypes,
      Version.Begins timeline t.version w ∨ Version.Ends timeline t.version w := by
  obtain ⟨t, ht, hcovers⟩ := exists_covers_ne h
  exact ⟨t, ht, (ContentType.switches_iff hs).2 ⟨u, hn, hcovers⟩⟩

/-! ## Differences between neighbouring versions -/

variable {timeline : List Version.Number} {u w : Version.Number} {route : Route}

theorem undergoes_of_comes (hs : timeline.Pairwise (· < ·)) (hn : [u, w] <:+: timeline)
    (hroute : route ∈ a.routes) (hu : a.at? u = none) (hw : a.at? w ≠ none) :
    a.Undergoes timeline (a.changeOn route w .added .action a.ownPayload) := by
  obtain ⟨first, hfirst, hbelow⟩ := at?_eq_none_iff.1 hu
  have habove : first ≤ w := by
    by_contra hle
    exact hw (at?_eq_none_iff.2 ⟨first, hfirst, hle⟩)
  refine .comes hroute hfirst ((Version.introduced?_eq_some_iff hs).2 ⟨u, hn, ?_, ?_⟩)
  · rw [Bool.eq_false_iff, ne_eq, Version.Interval.contains_onwards]
    exact hbelow
  · rw [Version.Interval.contains_onwards]
    exact habove

theorem undergoes_of_switch (hs : timeline.Pairwise (· < ·)) (hn : [u, w] <:+: timeline)
    (hroute : route ∈ a.routes) (h : a.contentTypeAt? (some u) ≠ a.contentTypeAt? (some w)) :
    ∃ mediaType, a.contentTypeAt? (some w) = some mediaType ∧
      a.Undergoes timeline
        (a.changeOn route w .changed .contentType (a.mediaPayload mediaType)) := by
  obtain ⟨t, ht, hswitch⟩ := exists_switch hs hn h
  obtain ⟨mediaType, hmedia⟩ := contentTypeAt?_isSome ht (some w)
  exact ⟨mediaType, hmedia, .switches hroute ht hswitch hmedia⟩

end Action

namespace Graph

variable {registry : Registry} {supported : List Version.Number} {sources : Sources} {g : Graph}
variable {f : Filter} {a b : Action}

/-- Whatever differs between an action in two neighbouring versions is listed, on each of its
paths. -/
theorem changelog_actions_complete (h : compile registry supported sources = .ok g)
    (hs : supported.Pairwise (· < ·)) (f : Filter) :
    ∃ log, g.changelog f = .ok log ∧ ∀ u w, [u, w] <:+: supported →
      ∀ a ∈ g.actions, ∀ b, f.action? a = some b → ∀ route ∈ b.routes,
        (b.at? u = none → b.at? w ≠ none →
          b.changeOn route w .added .action b.ownPayload ∈ log.changes) ∧
        (∀ d ∈ b.directives, d.kind = .param ∨ d.kind = .returns ∨ d.kind = .throws →
          ∃ subject payload, b.payload? d = some (subject, payload) ∧
            (d.traits.isAt u = false → d.traits.isAt w = true →
              b.changeOn route w .added subject payload ∈ log.changes) ∧
            (d.traits.isAt u = true → d.traits.isAt w = false →
              b.changeOn route w .removed subject payload ∈ log.changes)) ∧
        (b.contentTypeAt? (some u) ≠ b.contentTypeAt? (some w) →
          ∃ mediaType, b.contentTypeAt? (some w) = some mediaType ∧
            b.changeOn route w .changed .contentType (b.mediaPayload mediaType) ∈
              log.changes) := by
  obtain ⟨log, hlog, hmem⟩ := changelog_ok h f
  obtain ⟨rfl, -⟩ := compile_ok h
  refine ⟨log, hlog, fun u w hn a ha b hb route hroute => ?_⟩
  have hlisted : ∀ c, b.Undergoes g.supported c → c ∈ log.changes := fun c hc =>
    (hmem c).2 (Or.inl ⟨a, ha, b, hb, hc⟩)
  refine ⟨fun hu hw => ?_, fun d hd hkind => ?_, fun hdiffer => ?_⟩
  · exact hlisted _ (Action.undergoes_of_comes hs hn hroute hu hw)
  · obtain ⟨subject, payload, hpayload⟩ := Action.payload?_of_kind hkind
    refine ⟨subject, payload, hpayload, fun hu hw => ?_, fun hu hw => ?_⟩
    · exact hlisted _ (.gains hroute hd hpayload ((Version.begins_iff hs).2 ⟨u, hn, hu, hw⟩))
    · exact hlisted _ (.loses hroute hd hpayload ((Version.ends_iff hs).2 ⟨u, hn, hu, hw⟩))
  · obtain ⟨mediaType, hmedia, hc⟩ := Action.undergoes_of_switch hs hn hroute hdiffer
    exact ⟨mediaType, hmedia, hlisted _ hc⟩

/-- The listing of movies is listed as added at version 1.2, where it exists for the first time. -/
theorem changelog_actions_movies :
    ∃ log, Movies.graph.changelog {} = .ok log ∧ ∀ route ∈ Movies.shown.routes,
      Movies.shown.changeOn route Movies.third .added .action Movies.shown.ownPayload ∈
        log.changes := by
  obtain ⟨log, hlog, hlisted⟩ := changelog_actions_complete Movies.compiled Movies.ascending {}
  refine ⟨log, hlog, fun route hroute => ?_⟩
  have hneighbours : [Movies.second, Movies.third] <:+: Movies.versions := ⟨[.one], [], rfl⟩
  have haction := hlisted _ _ hneighbours _ List.mem_cons_self _ Movies.passes route hroute
  exact haction.1 (by decide +kernel) (by decide +kernel)

/-! ## Parameters and responses -/

theorem mem_view_iff_of_isAt (h : compile registry supported sources = .ok g) (ha : a ∈ g.actions)
    (hb : f.action? a = some b) {d : Directive} (hd : d ∈ b.directives) {v : Version.Number}
    (hat : d.traits.isAt v = true) :
    (∃ e ∈ (g.view v f).actions, f.entry? v a = some e ∧ d ∈ e.directives) ↔
      ∀ first, a.minVersion? = some first → first ≤ v := by
  obtain ⟨hmem, hshows⟩ := Filter.shows_of_mem hb hd
  constructor
  · rintro ⟨e, -, he, hde⟩
    exact ((mem_entry_iff h ha hmem).1 ⟨e, he, hde⟩).1.since
  · intro hsince
    obtain ⟨⟨hgroup, hcapabilities, hrouted⟩, -⟩ := Filter.action?_eq_some_iff.1 hb
    obtain ⟨e, he, hde⟩ := (mem_entry_iff h ha hmem).2
      ⟨⟨hgroup, hcapabilities, hsince, hrouted⟩, hshows, hat⟩
    exact ⟨e, mem_view_actions ha he, he, hde⟩

/-- What is listed as added of a parameter or response is in force there, and what is listed as
removed was in force in the version before. It is in the view of that version, in the entry of its
action, exactly if that version is not below the first version of the action. -/
theorem changelog_directives_sound (h : compile registry supported sources = .ok g)
    (hs : supported.Pairwise (· < ·)) (ha : a ∈ g.actions) (hb : f.action? a = some b)
    {d : Directive} (hd : d ∈ b.directives) {c : Change}
    (hc : c ∈ b.directiveChanges supported d) :
    (∃ log, g.changelog f = .ok log ∧ c ∈ log.changes) ∧
      (c.definition = .added → d.traits.isAt c.version = true ∧
        ((∃ e ∈ (g.view c.version f).actions, f.entry? c.version a = some e ∧ d ∈ e.directives) ↔
          ∀ first, a.minVersion? = some first → first ≤ c.version)) ∧
      (c.definition = .removed → ∃ u, [u, c.version] <:+: supported ∧ d.traits.isAt u = true ∧
        ((∃ e ∈ (g.view u f).actions, f.entry? u a = some e ∧ d ∈ e.directives) ↔
          ∀ first, a.minVersion? = some first → first ≤ u)) := by
  obtain ⟨log, hlog, hmem⟩ := changelog_ok h f
  obtain ⟨rfl, -⟩ := compile_ok h
  obtain ⟨route, hroute, subject, payload, w, hpayload, hcase⟩ := Action.mem_directiveChanges.1 hc
  rcases hcase with ⟨hbegins, rfl⟩ | ⟨hends, rfl⟩
  · have hundergoes := Action.Undergoes.gains hroute hd hpayload hbegins
    obtain ⟨u, -, -, hw⟩ := (Version.begins_iff hs).1 hbegins
    refine ⟨⟨log, hlog, (hmem _).2 (Or.inl ⟨a, ha, b, hb, hundergoes⟩)⟩, fun _ => ?_, fun hno => ?_⟩
    · exact ⟨hw, mem_view_iff_of_isAt h ha hb hd hw⟩
    · cases hno
  · have hundergoes := Action.Undergoes.loses hroute hd hpayload hends
    obtain ⟨u, hn, hu, -⟩ := (Version.ends_iff hs).1 hends
    refine ⟨⟨log, hlog, (hmem _).2 (Or.inl ⟨a, ha, b, hb, hundergoes⟩)⟩, fun hno => ?_, fun _ => ?_⟩
    · cases hno
    · exact ⟨u, hn, hu, mem_view_iff_of_isAt h ha hb hd hu⟩

end Graph

/-- The parameter of the listing of movies, listed as added at version 1.1. -/
def Movies.pageAdded : Change :=
  { version := second
    definition := .added
    subject := .actionParam
    group := "Movies"
    owner := "\\Movies"
    path := some "/movies"
    payload := .object
      [("description", .string "Page"), ("field", .string "page"), ("method", .string "GET")] }

theorem Movies.pageAdded_mem : pageAdded ∈ shown.directiveChanges versions page := by
  decide +kernel

namespace Graph

theorem changelog_directives_movies :
    (∃ log, Movies.graph.changelog {} = .ok log ∧ Movies.pageAdded ∈ log.changes) ∧
      Movies.page.traits.isAt Movies.second = true ∧
      ((∃ e ∈ (Movies.graph.view Movies.second {}).actions,
          Filter.entry? {} Movies.second Movies.action = some e ∧ Movies.page ∈ e.directives) ↔
        ∀ first, Movies.action.minVersion? = some first → first ≤ Movies.second) := by
  have hsound := changelog_directives_sound Movies.compiled Movies.ascending List.mem_cons_self
    Movies.passes Movies.page_mem Movies.pageAdded_mem
  exact ⟨hsound.1, hsound.2.1 rfl⟩

/-- Not all that is listed of parameters and responses is in the views: the listing of movies begins
with version 1.2, and its parameter is listed as added at version 1.1. -/
theorem changelog_below_first_version :
    ¬ ∀ (registry : Registry) (supported : List Version.Number) (sources : Sources) (g : Graph)
      (f : Filter) (a b : Action) (d : Directive) (c : Change),
      compile registry supported sources = .ok g → supported.Pairwise (· < ·) → a ∈ g.actions →
      f.action? a = some b → d ∈ b.directives → c ∈ b.directiveChanges supported d →
        (c.definition = .added → ∃ e ∈ (g.view c.version f).actions,
          f.entry? c.version a = some e ∧ d ∈ e.directives) ∧
        (c.definition = .removed → ∀ u, [u, c.version] <:+: supported →
          ∃ e ∈ (g.view u f).actions, f.entry? u a = some e ∧ d ∈ e.directives) := by
  intro hall
  have hclaim := hall {} _ _ _ {} _ _ _ _ Movies.compiled Movies.ascending List.mem_cons_self
    Movies.passes Movies.page_mem Movies.pageAdded_mem
  obtain ⟨e, -, he, -⟩ := hclaim.1 rfl
  have hnone : Filter.entry? {} Movies.second Movies.action = none := by decide +kernel
  rw [show Movies.pageAdded.version = Movies.second from rfl, hnone] at he
  cases he

end Graph

end VersionedApi
