import Mathlib.Data.Set.List
import VersionedApi.Proofs.Changelog.Build

/-!
# The versions of a changelog

* `Action.Undergoes.neighbours`, `Representation.neighbours_of_mem_changes` : on an ascending
  timeline every change is at a version with one before it;
* `Changelog.Builder.exists_versions` : the versions of a changelog are those of its changes, each
  once, the newest first.
-/

namespace VersionedApi

/-! ## Changes come with a version before them -/

section Neighbours
variable {supported : List Version.Number} (hascending : supported.Pairwise (· < ·))
include hascending

theorem Version.Begins.neighbours {version : Option Version.Range} {w : Version.Number}
    (h : Version.Begins supported version w) : ∃ u, [u, w] <:+: supported := by
  obtain ⟨u, hu, -⟩ := (Version.begins_iff hascending).1 h
  exact ⟨u, hu⟩

theorem Version.Ends.neighbours {version : Option Version.Range} {w : Version.Number}
    (h : Version.Ends supported version w) : ∃ u, [u, w] <:+: supported := by
  obtain ⟨u, hu, -⟩ := (Version.ends_iff hascending).1 h
  exact ⟨u, hu⟩

theorem Action.Undergoes.neighbours {a : Action} {c : Change} (h : a.Undergoes supported c) :
    ∃ u, [u, c.version] <:+: supported := by
  cases h with
  | comes _ _ hw =>
    obtain ⟨u, hu, -⟩ := (Version.introduced?_eq_some_iff hascending).1 hw
    exact ⟨u, hu⟩
  | gains _ _ _ hw => exact hw.neighbours hascending
  | loses _ _ _ hw => exact hw.neighbours hascending
  | switches _ _ hw _ =>
    rcases hw with hw | hw
    · exact hw.neighbours hascending
    · exact hw.neighbours hascending

theorem Representation.neighbours_of_mem_changes {r : Representation} {c : Change}
    (h : c ∈ r.changes supported) : ∃ u, [u, c.version] <:+: supported := by
  obtain ⟨f, -, w, ⟨hw, rfl⟩ | ⟨hw, rfl⟩⟩ := mem_changes.1 h
  · exact hw.neighbours hascending
  · exact hw.neighbours hascending

end Neighbours

/-! ## Versions -/

namespace Changelog.Builder

/-- If none is negative, the versions of the changelog are those of its changes, each once, the
newest first. -/
theorem exists_versions {cs : List Change}
    (h : ∀ c ∈ (after cs).build.changes, 0 ≤ c.version.tenths) :
    ∃ ws : List Version.Number,
      (after cs).build.versions.map (·.version) = ws.map Version.Number.text ∧
        ws.Pairwise (· > ·) ∧ ∀ w, w ∈ ws ↔ ∃ c ∈ (after cs).build.changes, c.version = w := by
  have hversion (t : String) : t ∈ (after cs).build.versions.map (·.version) ↔
      ∃ c ∈ (after cs).build.changes, c.version.text = t := by
    rw [List.mem_map, (proper_after cs).exists_version_iff]
    exact exists_entry_iff fun version _ => version = t
  have hrange : (after cs).build.versions.map (·.version) ∈
      Set.range (List.map fun c : { c // c ∈ (after cs).build.changes } => c.1.version.text) := by
    rw [Set.range_list_map]
    intro t ht
    obtain ⟨c, hc, rfl⟩ := (hversion t).1 ht
    exact ⟨⟨c, hc⟩, rfl⟩
  obtain ⟨ds, hds⟩ := hrange
  have htexts : (after cs).build.versions.map (·.version) =
      (ds.map fun d => d.1.version).map Version.Number.text := by
    rw [← hds, List.map_map]
    rfl
  refine ⟨ds.map fun d => d.1.version, htexts, ?_, fun w => ?_⟩
  · have hearlier : ((after cs).build.versions.map (·.version)).Pairwise
        fun t u => Version.Earlier u t :=
      List.pairwise_map.2 (proper_after cs).pairwise_versions
    rw [htexts, List.map_map, List.pairwise_map] at hearlier
    refine List.pairwise_map.2 (hearlier.imp fun {c d} hcd => ?_)
    exact (Version.earlier_text (h d.1 d.2) (h c.1 c.2)).1 hcd
  · constructor
    · intro hw
      obtain ⟨d, -, rfl⟩ := List.mem_map.1 hw
      exact ⟨d.1, d.2, rfl⟩
    · rintro ⟨c, hc, rfl⟩
      have hmem := (hversion c.version.text).2 ⟨c, hc, rfl⟩
      rw [htexts] at hmem
      obtain ⟨w, hw, htext⟩ := List.mem_map.1 hmem
      rwa [← Version.Number.text_inj htext]

end Changelog.Builder

end VersionedApi
