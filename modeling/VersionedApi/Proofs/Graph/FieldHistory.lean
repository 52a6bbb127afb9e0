import VersionedApi.Proofs.Graph.Compiled

/-!
# Fields in views and in the changelog

A changelog and the views of single versions are computed apart from each other.
`Graph.changelog_fields_iff` : what the changelog lists of fields is exactly the difference between
the views of neighbouring versions, `Graph.FieldDelta`.
-/

namespace VersionedApi

namespace Representation

theorem mem_fields_view {f : Filter} {r : Representation} {v : Version.Number} {x : DataField} :
    x ∈ ((f.representation r).atVersion v).fields ↔
      x ∈ r.fields ∧ f.ShowsField x ∧ x.traits.isAt v = true := by
  simp only [atVersion, fieldsAt, Filter.representation, List.mem_filter, Filter.allowsField_iff]
  exact and_assoc

theorem mem_fields_filtered {f : Filter} {r : Representation} {x : DataField} :
    x ∈ (f.representation r).fields ↔ x ∈ r.fields ∧ f.ShowsField x := by
  simp only [Filter.representation, List.mem_filter, Filter.allowsField_iff]

theorem isAt_eq_false {f : Filter} {r : Representation} {u v : Version.Number} {x : DataField}
    (hx : x ∈ ((f.representation r).atVersion v).fields)
    (hx' : x ∉ ((f.representation r).atVersion u).fields) : x.traits.isAt u = false := by
  obtain ⟨hmem, hshows, -⟩ := mem_fields_view.1 hx
  rw [Bool.eq_false_iff]
  intro hat
  exact hx' (mem_fields_view.2 ⟨hmem, hshows, hat⟩)

theorem not_mem_fields_view {f : Filter} {r : Representation} {v : Version.Number} {x : DataField}
    (h : x.traits.isAt v = false) : x ∉ ((f.representation r).atVersion v).fields := by
  intro hx
  have hat := (mem_fields_view.1 hx).2.2
  rw [h] at hat
  cases hat

end Representation

namespace Graph

variable {registry : Registry} {supported : List Version.Number} {sources : Sources} {g : Graph}
variable {f : Filter} {c : Change}

/-- The differences between the fields of the views of neighbouring versions. `i` is the place of
the representation, the same in all views. -/
inductive FieldDelta (g : Graph) (f : Filter) : Change → Prop
  | appears {u w : Version.Number} {i : Nat} {old new : Representation} {x : DataField}
      (hn : [u, w] <:+: g.supported)
      (hold : (g.view u f).representations[i]? = some old)
      (hnew : (g.view w f).representations[i]? = some new)
      (hx : x ∈ new.fields) (hx' : x ∉ old.fields) :
      FieldDelta g f (new.changeOf x .added w)
  | disappears {u w : Version.Number} {i : Nat} {old new : Representation} {x : DataField}
      (hn : [u, w] <:+: g.supported)
      (hold : (g.view u f).representations[i]? = some old)
      (hnew : (g.view w f).representations[i]? = some new)
      (hx : x ∈ old.fields) (hx' : x ∉ new.fields) :
      FieldDelta g f (new.changeOf x .removed w)

theorem fieldDelta_of_mem_changes {r : Representation} (hs : g.supported.Pairwise (· < ·))
    (hr : r ∈ g.representations) (hc : c ∈ (f.representation r).changes g.supported) :
    g.FieldDelta f c := by
  obtain ⟨x, hx, w, hcase⟩ := Representation.mem_changes.1 hc
  obtain ⟨hmem, hshows⟩ := Representation.mem_fields_filtered.1 hx
  obtain ⟨i, hi⟩ := List.mem_iff_getElem?.1 hr
  -- a filter and a version leave its label and class as they are, so the changes are the same
  have hview : ∀ v, (g.view v f).representations[i]? =
      some ((f.representation r).atVersion v) := fun v => by
    rw [view_representations, hi, Option.map_some]
  rcases hcase with ⟨hbegins, rfl⟩ | ⟨hends, rfl⟩
  · obtain ⟨u, hn, hu, hw⟩ := (Version.begins_iff hs).1 hbegins
    have hnew := Representation.mem_fields_view.2 ⟨hmem, hshows, hw⟩
    exact (FieldDelta.appears hn (hview u) (hview w) hnew
      (Representation.not_mem_fields_view hu) :)
  · obtain ⟨u, hn, hu, hw⟩ := (Version.ends_iff hs).1 hends
    have hold := Representation.mem_fields_view.2 ⟨hmem, hshows, hu⟩
    exact (FieldDelta.disappears hn (hview u) (hview w) hold
      (Representation.not_mem_fields_view hw) :)

theorem exists_of_view_representations {u w : Version.Number} {i : Nat}
    {old new : Representation} (hold : (g.view u f).representations[i]? = some old)
    (hnew : (g.view w f).representations[i]? = some new) :
    ∃ r ∈ g.representations, old = (f.representation r).atVersion u ∧
      new = (f.representation r).atVersion w := by
  rw [view_representations, Option.map_eq_some_iff] at hold hnew
  obtain ⟨r, hi, rfl⟩ := hold
  obtain ⟨r', hi', rfl⟩ := hnew
  obtain rfl : r = r' := Option.some.inj (hi.symm.trans hi')
  exact ⟨r, List.mem_iff_getElem?.2 ⟨i, hi⟩, rfl, rfl⟩

theorem FieldDelta.exists_changes (hs : g.supported.Pairwise (· < ·)) (h : g.FieldDelta f c) :
    ∃ r ∈ g.representations, c ∈ (f.representation r).changes g.supported := by
  cases h with
  | @appears u w i old new x hn hold hnew hx hx' =>
    obtain ⟨r, hr, rfl, rfl⟩ := exists_of_view_representations hold hnew
    obtain ⟨hmem, hshows, hw⟩ := Representation.mem_fields_view.1 hx
    have hbegins : Version.Begins g.supported x.traits.version w :=
      (Version.begins_iff hs).2 ⟨u, hn, Representation.isAt_eq_false hx hx', hw⟩
    refine ⟨r, hr, Representation.mem_changes.2 ⟨x, ?_, w, Or.inl ⟨hbegins, rfl⟩⟩⟩
    exact Representation.mem_fields_filtered.2 ⟨hmem, hshows⟩
  | @disappears u w i old new x hn hold hnew hx hx' =>
    obtain ⟨r, hr, rfl, rfl⟩ := exists_of_view_representations hold hnew
    obtain ⟨hmem, hshows, hu⟩ := Representation.mem_fields_view.1 hx
    have hends : Version.Ends g.supported x.traits.version w :=
      (Version.ends_iff hs).2 ⟨u, hn, hu, Representation.isAt_eq_false hx hx'⟩
    refine ⟨r, hr, Representation.mem_changes.2 ⟨x, ?_, w, Or.inr ⟨hends, rfl⟩⟩⟩
    exact Representation.mem_fields_filtered.2 ⟨hmem, hshows⟩

/-- Nothing is listed for the first version, for a field of all versions or for a hidden one. -/
theorem exists_versioned_field {r : Representation} (hs : g.supported.Pairwise (· < ·))
    (hc : c ∈ (f.representation r).changes g.supported) :
    g.supported.head? ≠ some c.version ∧ ∃ x ∈ r.fields,
      x.traits.version ≠ none ∧ f.ShowsField x ∧ c = r.changeOf x c.definition c.version := by
  obtain ⟨x, hx, w, hcase⟩ := Representation.mem_changes.1 hc
  obtain ⟨hmem, hshows⟩ := Representation.mem_fields_filtered.1 hx
  rcases hcase with ⟨hw, rfl⟩ | ⟨hw, rfl⟩
  · obtain ⟨hhead, hversion⟩ := hw.head?_ne hs
    exact ⟨hhead, x, hmem, hversion, hshows, rfl⟩
  · obtain ⟨hhead, hversion⟩ := hw.head?_ne hs
    exact ⟨hhead, x, hmem, hversion, hshows, rfl⟩

/-- What a changelog lists of fields is exactly the difference between the views of neighbouring
versions; so it lists nothing at the first version, nothing of a field without a version and
nothing of one that the filter hides. -/
theorem changelog_fields_iff (h : compile registry supported sources = .ok g)
    (hs : supported.Pairwise (· < ·)) (f : Filter) :
    ∃ log, g.changelog f = .ok log ∧
      (∀ c, c ∈ log.changes ∧ c.subject = .representationData ↔ g.FieldDelta f c) ∧
      ∀ c ∈ log.changes, c.subject = .representationData →
        supported.head? ≠ some c.version ∧ ∃ r ∈ g.representations, ∃ x ∈ r.fields,
          x.traits.version ≠ none ∧ f.ShowsField x ∧
            c = r.changeOf x c.definition c.version := by
  obtain ⟨log, hlog, hmem⟩ := changelog_ok h f
  obtain ⟨rfl, -⟩ := compile_ok h
  have hfields : ∀ c ∈ log.changes, c.subject = .representationData →
      ∃ r ∈ g.representations, c ∈ (f.representation r).changes g.supported := by
    intro c hc hsubject
    rcases (hmem c).1 hc with ⟨a, -, b, -, hb⟩ | hr
    · exact absurd hsubject hb.isRecordable.2
    · exact hr
  refine ⟨log, hlog, fun c => ⟨?_, fun hdelta => ?_⟩, fun c hc hsubject => ?_⟩
  · rintro ⟨hc, hsubject⟩
    obtain ⟨r, hr, hc⟩ := hfields c hc hsubject
    exact fieldDelta_of_mem_changes hs hr hc
  · obtain ⟨r, hr, hc⟩ := hdelta.exists_changes hs
    exact ⟨(hmem c).2 (Or.inr ⟨r, hr, hc⟩), (Representation.isRecordable_of_mem_changes hc).2⟩
  · obtain ⟨r, hr, hc⟩ := hfields c hc hsubject
    obtain ⟨hhead, x, hx⟩ := exists_versioned_field hs hc
    exact ⟨hhead, r, hr, x, hx⟩

/-- The genre of a movie is listed at version 1.1, where it is in the view for the first time. -/
theorem changelog_fields_movies :
    ∃ log, Movies.graph.changelog {} = .ok log ∧
      Movies.representation.changeOf Movies.genreField .added Movies.second ∈ log.changes := by
  obtain ⟨log, hlog, hiff, -⟩ := changelog_fields_iff Movies.compiled Movies.ascending {}
  have hneighbours : [.one, Movies.second] <:+: Movies.graph.supported := ⟨[], [Movies.third], rfl⟩
  have hview : ∀ v, (Movies.graph.view v {}).representations[0]? =
      some ((Filter.representation {} Movies.representation).atVersion v) := fun _ => rfl
  have hnew : Movies.genreField ∈
      ((Filter.representation {} Movies.representation).atVersion Movies.second).fields := by
    decide +kernel
  have hold : Movies.genreField ∉
      ((Filter.representation {} Movies.representation).atVersion .one).fields := by
    decide +kernel
  have hdelta := FieldDelta.appears hneighbours (hview _) (hview _) hnew hold
  exact ⟨log, hlog, ((hiff _).2 hdelta).1⟩

end Graph

end VersionedApi
