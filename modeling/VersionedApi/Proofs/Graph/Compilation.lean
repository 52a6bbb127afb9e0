import VersionedApi.Proofs.Changelog.Versions
import VersionedApi.Proofs.Config
import VersionedApi.Proofs.Graph.Compiled

/-!
# The compilation of a graph

* `Graph.compilation_of_changelog` : a compilation has a view for each supported version, the newest
  first, and the changelog;
* `Graph.compilation_total` : every compiled graph has a compilation, because every change that it
  lists can be recorded and the first version of every action can be read back;
* `Compilation.NewestFirst` : how the versions of a compilation go with those of a configuration;
* `Graph.newestFirst` : every compilation under a configuration that is read is so.
-/

namespace VersionedApi

variable {registry : Registry} {supported : List Version.Number} {sources : Sources} {g : Graph}
  {f : Filter} {a b : Action} {log : Changelog}

namespace Graph

theorem compilation_of_changelog (hlog : g.changelog f = .ok log) :
    g.compilation f = .ok { views := g.supported.reverse.map (g.view · f), changelog := log } :=
  bind_eq_ok.2 ⟨log, hlog, rfl⟩

/-! ## No compilation fails -/

theorem minVersion_nonneg (h : compile registry supported sources = .ok g) (ha : a ∈ g.actions)
    {first : Version.Number} (hfirst : a.minVersion? = some first) : 0 ≤ first.tenths := by
  obtain ⟨source, -, hread⟩ := exists_source h ha
  exact Action.minVersion_nonneg hread hfirst

theorem exists_changes (h : compile registry supported sources = .ok g) (ha : a ∈ g.actions)
    (hb : f.action? a = some b) :
    ∃ cs, b.changes supported = .ok cs ∧
      ∀ c ∈ cs, isRecordable c.definition c.subject = true := by
  have hfirst : ∀ first, b.minVersion? = some first → 0 ≤ first.tenths := by
    intro first hfirst
    rw [action?_minVersion? h ha hb] at hfirst
    exact minVersion_nonneg h ha hfirst
  obtain ⟨cs, hcs, hmem⟩ := Action.changes_ok supported hfirst
  exact ⟨cs, hcs, fun c hc => ((hmem c).1 hc).isRecordable.1⟩

/-- A compiled graph has a changelog and a compilation under every filter. Each action and each
representation comes with changes that can be recorded, and the constraint that is built from the
first version of an action is read as that version and all behind it. -/
theorem compilation_total (h : compile registry supported sources = .ok g) (f : Filter) :
    (∃ log, g.changelog f = .ok log ∧ g.compilation f =
      .ok { views := supported.reverse.map (g.view · f), changelog := log }) ∧
    (∀ a ∈ g.actions, ∀ b, f.action? a = some b → ∃ cs, b.changes supported = .ok cs ∧
      ∀ c ∈ cs, isRecordable c.definition c.subject = true) ∧
    (∀ r ∈ g.representations, ∀ c ∈ (f.representation r).changes supported,
      isRecordable c.definition c.subject = true) ∧
    ∀ a ∈ g.actions, ∀ first, a.minVersion? = some first →
      Version.Range.read (">=" ++ first.text) =
        .ok { first := some first, last := none, text := ">=" ++ first.text } := by
  refine ⟨?_, fun a ha b hb => exists_changes h ha hb,
    fun r _ c hc => (Representation.isRecordable_of_mem_changes hc).1, fun a ha first hfirst => ?_⟩
  · obtain ⟨log, hlog, -⟩ := changelog_ok h f
    refine ⟨log, hlog, ?_⟩
    rw [compilation_of_changelog hlog, (compile_ok h).1]
  · exact Version.Range.since_eq (minVersion_nonneg h ha hfirst)

/-- The action comes with version 1.2; its parameter comes with version 1.1 and goes with 1.2. -/
theorem compilation_total_movies :
    (∃ log, Movies.graph.changelog {} = .ok log ∧ Movies.graph.compilation {} =
      .ok { views := Movies.versions.reverse.map (Movies.graph.view · {}), changelog := log }) ∧
    (∃ cs, Movies.shown.changes Movies.versions = .ok cs ∧
      cs.map Change.version = [Movies.third, Movies.second, Movies.third] ∧
      ∀ c ∈ cs, isRecordable c.definition c.subject = true) ∧
    Version.Range.read ">=1.2" =
      .ok { first := some Movies.third, last := none, text := ">=1.2" } := by
  have hmem : Movies.action ∈ Movies.graph.actions := List.mem_singleton.2 rfl
  obtain ⟨hlog, hactions, -, hfirst⟩ := compilation_total Movies.compiled {}
  obtain ⟨cs, hcs, hrecordable⟩ := hactions _ hmem _ Movies.passes
  have hversions : (Movies.shown.changes Movies.versions).toOption.map (·.map Change.version) =
      some [Movies.third, Movies.second, Movies.third] := by decide +kernel
  rw [hcs] at hversions
  exact ⟨hlog, ⟨cs, hcs, Option.some.inj hversions, hrecordable⟩,
    hfirst _ hmem Movies.third (by decide +kernel)⟩

end Graph

/-! ## Versions, the newest first -/

/-- The versions of a compilation go with those of a configuration: the views are those of the
supported versions, and the changelog lists later versions than the first one, both from the newest
to the oldest. -/
structure Compilation.NewestFirst (out : Compilation) (c : Config) : Prop where
  views : out.views.map View.version = c.supported.reverse
  viewsDescend : (out.views.map View.version).Pairwise (· > ·)
  versions : ∃ ws : List Version.Number,
    out.changelog.versions.map (·.version) = ws.map Version.Number.text ∧ ws.Pairwise (· > ·) ∧
      ∀ w ∈ ws, w ∈ c.supported ∧ c.firstVersion < w
  texts : (out.changelog.versions.map (·.version)).Nodup
  entries : ∀ v ∈ out.changelog.versions,
    ∃ e ∈ out.changelog.entries, e.version = v.version ∧ e.changes ≠ []
  complete : ∀ change ∈ out.changelog.changes,
    change.version.text ∈ out.changelog.versions.map (·.version)

namespace Graph

theorem neighbours_of_mem_changes (h : compile registry supported sources = .ok g)
    (hascending : supported.Pairwise (· < ·)) (hlog : g.changelog f = .ok log) {change : Change}
    (hchange : change ∈ log.changes) : ∃ u, [u, change.version] <:+: supported := by
  obtain ⟨log', hlog', hmem⟩ := changelog_ok h f
  rw [hlog] at hlog'
  cases hlog'
  rw [(compile_ok h).1] at hmem
  rcases (hmem change).1 hchange with ⟨a, -, b, -, hb⟩ | ⟨r, -, hr⟩
  · exact hb.neighbours hascending
  · exact Representation.neighbours_of_mem_changes hascending hr

/-- Under a configuration that is read, the views of a compilation are those of the supported
versions and its changelog is about later versions than the first, each once and with an entry, both
from the newest to the oldest. The first version is the earliest one, and the default version is
supported. -/
theorem newestFirst {text : String} {c : Config} (hc : Config.read text = .ok c)
    (hg : compile c.registry c.supported sources = .ok g) (f : Filter) :
    (∃ out, g.compilation f = .ok out ∧ out.NewestFirst c) ∧
      (c.firstVersion ∈ c.supported ∧ ∀ v ∈ c.supported, c.firstVersion ≤ v) ∧
      c.defaultVersion ∈ c.supported := by
  have hsound := Config.sound_of_read hc
  obtain ⟨log, hlog, -⟩ := changelog_ok hg f
  have hviews : (g.supported.reverse.map (g.view · f)).map View.version = c.supported.reverse := by
    rw [(compile_ok hg).1, List.map_map]
    exact List.map_id _
  have hlater : ∀ change ∈ log.changes,
      change.version ∈ c.supported ∧ c.firstVersion < change.version := by
    intro change hchange
    obtain ⟨u, hu⟩ := neighbours_of_mem_changes hg hsound.ascending hlog hchange
    have hlt : u < change.version :=
      (List.pairwise_cons.1 (hsound.ascending.sublist hu.sublist)).1 _ (List.mem_singleton.2 rfl)
    have hle : c.firstVersion ≤ u := hsound.firstVersion_le (hu.subset List.mem_cons_self)
    refine ⟨hu.subset (by simp), ?_⟩
    exact lt_of_le_of_lt hle hlt
  obtain ⟨css, -, -, rfl⟩ := Changelog.build_eq_ok_iff.1 hlog
  have hproper := Changelog.Builder.proper_after
    (css.flatten ++ (g.representations.map f.representation).flatMap (·.changes g.supported))
  obtain ⟨ws, htexts, hdescend, hmem⟩ := Changelog.Builder.exists_versions
    fun change hchange => hsound.nonneg _ (hlater change hchange).1
  refine ⟨⟨_, compilation_of_changelog hlog, ?_⟩, ⟨?_, fun v hv => hsound.firstVersion_le hv⟩,
    hsound.defaultVersion_mem⟩
  · exact
      { views := hviews
        viewsDescend := by
          rw [hviews, List.pairwise_reverse]
          exact hsound.ascending
        versions := by
          refine ⟨ws, htexts, hdescend, fun w hw => ?_⟩
          obtain ⟨change, hchange, rfl⟩ := (hmem w).1 hw
          exact hlater change hchange
        texts := by
          rw [htexts]
          have hnodup : ws.Nodup := hdescend.imp fun hgt => ne_of_gt hgt
          exact hnodup.map fun _ _ => Version.Number.text_inj
        entries := fun v hv => by
          obtain ⟨e, he, hversion⟩ := hproper.exists_version_iff.1 ⟨v, hv, rfl⟩
          exact ⟨e, he, hversion, (hproper.mem_entries.1 he).2⟩
        complete := fun change hchange => by
          rw [htexts]
          exact List.mem_map_of_mem ((hmem _).2 ⟨change, hchange, rfl⟩) }
  · exact List.mem_of_head? hsound.head?_supported

/-- The configuration names the three versions of the sample; the default version is the last. -/
theorem newestFirst_movies :
    ∃ c, Config.read "[versions]\nsupported = [\"1.0\", \"1.1\", \"1.2\"]\n" = .ok c ∧
      (∃ out, Movies.graph.compilation {} = .ok out ∧ out.NewestFirst c) ∧
      (c.firstVersion = .one ∧ ∀ v ∈ c.supported, .one ≤ v) ∧ c.defaultVersion ∈ c.supported := by
  have hread : Config.read "[versions]\nsupported = [\"1.0\", \"1.1\", \"1.2\"]\n" =
      .ok { supported := Movies.versions, root := "" } := toOption_eq_some.1 (by decide +kernel)
  obtain ⟨hnewest, hfirst, hdefault⟩ := newestFirst hread Movies.compiled {}
  exact ⟨_, hread, hnewest, ⟨rfl, hfirst.2⟩, hdefault⟩

end Graph

end VersionedApi
