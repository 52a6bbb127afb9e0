import VersionedApi.Proofs.Action.MediaType
import VersionedApi.Proofs.Graph.Compiled

/-!
# Media types in the changelog

A changelog looks at each media type on its own: it lists the media type in force where a bound one
begins and where it is over. `Graph.changelog_mediaTypes_iff` : these are the media types that cover
one of two neighbouring versions only, and what is in force differs between the two exactly if the
media type turns (`Action.Turns`). So a change is listed where nothing changes if a later media type
is in force at both versions (`Graph.changelog_mediaType_unchanged`), or the same one again.
-/

namespace VersionedApi

namespace Action

variable {timeline : List Version.Number} {a : Action} {c : Change}

theorem undergoes_contentType_iff (hs : timeline.Pairwise (· < ·)) :
    a.Undergoes timeline c ∧ c.subject = .contentType ↔
      ∃ u w, [u, w] <:+: timeline ∧ (∃ t ∈ a.contentTypes, t.covers u ≠ t.covers w) ∧
        ∃ route ∈ a.routes, ∃ mediaType, a.contentTypeAt? (some w) = some mediaType ∧
          c = a.changeOn route w .changed .contentType (a.mediaPayload mediaType) := by
  constructor
  · rintro ⟨hc, hsubject⟩
    cases hc with
    | comes => cases hsubject
    | gains _ _ hpayload | loses _ _ hpayload =>
      rcases subject_of_payload? hpayload with rfl | rfl | rfl
      · cases hsubject
      · cases hsubject
      · cases hsubject
    | @switches route t mediaType w hroute ht hw hmedia =>
      obtain ⟨u, hn, hcovers⟩ := (ContentType.switches_iff hs).1 hw
      exact ⟨u, w, hn, ⟨t, ht, hcovers⟩, route, hroute, mediaType, hmedia, rfl⟩
  · rintro ⟨u, w, hn, ⟨t, ht, hcovers⟩, route, hroute, mediaType, hmedia, rfl⟩
    have hw := (ContentType.switches_iff hs).2 ⟨u, hn, hcovers⟩
    exact ⟨.switches hroute ht hw hmedia, rfl⟩

end Action

namespace Graph

variable {registry : Registry} {supported : List Version.Number} {sources : Sources} {g : Graph}

/-- What a changelog lists of media types comes from the actions that pass the filter: a media type
of theirs covers a version or the one before, but not both, and the one in force is listed for each
path. It differs from the one in force before exactly if the media type turns: the last of those
that cover one of the two versions does not cover the other, where another one is in force. -/
theorem changelog_mediaTypes_iff (h : compile registry supported sources = .ok g)
    (hs : supported.Pairwise (· < ·)) (f : Filter) :
    ∃ log, g.changelog f = .ok log ∧
      (∀ c, c ∈ log.changes ∧ c.subject = .contentType ↔
        ∃ a ∈ g.actions, ∃ b, f.action? a = some b ∧ ∃ u w, [u, w] <:+: supported ∧
          (∃ t ∈ b.contentTypes, t.covers u ≠ t.covers w) ∧
          ∃ route ∈ b.routes, ∃ mediaType, b.contentTypeAt? (some w) = some mediaType ∧
            c = b.changeOn route w .changed .contentType (b.mediaPayload mediaType)) ∧
      ∀ a ∈ g.actions, ∀ b, f.action? a = some b → ∀ u w, [u, w] <:+: supported →
        (b.contentTypeAt? (some u) ≠ b.contentTypeAt? (some w) ↔ b.Turns u w) := by
  obtain ⟨log, hlog, hmem⟩ := changelog_ok h f
  obtain ⟨rfl, -⟩ := compile_ok h
  refine ⟨log, hlog, fun c => ⟨?_, ?_⟩, fun a _ b _ u w _ => Action.contentTypeAt?_ne_iff⟩
  · rintro ⟨hc, hsubject⟩
    rcases (hmem c).1 hc with ⟨a, ha, b, hb, hc⟩ | ⟨r, -, hc⟩
    · exact ⟨a, ha, b, hb, (Action.undergoes_contentType_iff hs).1 ⟨hc, hsubject⟩⟩
    · -- fields have a subject of their own
      rw [(Representation.isRecordable_of_mem_changes hc).2] at hsubject
      cases hsubject
  · rintro ⟨a, ha, b, hb, hswitch⟩
    obtain ⟨hc, hsubject⟩ := (Action.undergoes_contentType_iff hs).2 hswitch
    exact ⟨(hmem c).2 (Or.inl ⟨a, ha, b, hb, hc⟩), hsubject⟩

end Graph

def Formats.toYaml (w : Version.Number) : Change :=
  shown.changeOn outer w .changed .contentType (shown.mediaPayload "application/yaml")

namespace Graph

/-- YAML is listed at version 1.1, where it takes the place of JSON, and again at 1.2, where nothing
but XML is over. -/
theorem changelog_mediaTypes_formats :
    ∃ log, Formats.graph.changelog {} = .ok log ∧
      Formats.toYaml Movies.second ∈ log.changes ∧ Formats.toYaml Movies.third ∈ log.changes ∧
      Formats.shown.Turns .one Movies.second ∧
      ¬ Formats.shown.Turns Movies.second Movies.third := by
  obtain ⟨log, hlog, hlisted, hturns⟩ :=
    changelog_mediaTypes_iff Formats.compiled Movies.ascending {}
  have hfirst : [.one, Movies.second] <:+: Movies.versions := ⟨[], [Movies.third], rfl⟩
  have hlast : [Movies.second, Movies.third] <:+: Movies.versions := ⟨[.one], [], rfl⟩
  have hxml : Formats.xml ∈ Formats.shown.contentTypes := by decide +kernel
  have hroute : Formats.outer ∈ Formats.shown.routes := List.mem_cons_self
  have hturns := hturns _ List.mem_cons_self _ Formats.passes
  refine ⟨log, hlog, ?_, ?_, ?_, ?_⟩
  · exact ((hlisted _).2 ⟨_, List.mem_cons_self, _, Formats.passes, _, _, hfirst,
      ⟨_, hxml, by decide +kernel⟩, _, hroute, _, by decide +kernel, rfl⟩).1
  · exact ((hlisted _).2 ⟨_, List.mem_cons_self, _, Formats.passes, _, _, hlast,
      ⟨_, hxml, by decide +kernel⟩, _, hroute, _, by decide +kernel, rfl⟩).1
  · exact (hturns _ _ hfirst).1 (by decide +kernel)
  · exact fun hturn => (hturns _ _ hlast).2 hturn (by decide +kernel)

/-- Not all that is listed of media types differs from the version before: where XML is over, the
movie has been in YAML already. -/
theorem changelog_mediaType_unchanged :
    ¬ ∀ (registry : Registry) (supported : List Version.Number) (sources : Sources) (g : Graph)
      (f : Filter) (a b : Action) (t : ContentType) (c : Change) (u : Version.Number),
      compile registry supported sources = .ok g → supported.Pairwise (· < ·) → a ∈ g.actions →
      f.action? a = some b → t ∈ b.contentTypes → c ∈ b.contentTypeChanges supported t →
      [u, c.version] <:+: supported →
        b.contentTypeAt? (some c.version) ≠ b.contentTypeAt? (some u) := by
  intro hall
  have hxml : Formats.xml ∈ Formats.shown.contentTypes := by decide +kernel
  have hlisted : Formats.toYaml Movies.third ∈
      Formats.shown.contentTypeChanges Movies.versions Formats.xml := by decide +kernel
  exact hall {} _ _ _ {} _ _ _ _ Movies.second Formats.compiled Movies.ascending List.mem_cons_self
    Formats.passes hxml hlisted ⟨[.one], [], rfl⟩ (by decide +kernel)

end Graph

end VersionedApi
