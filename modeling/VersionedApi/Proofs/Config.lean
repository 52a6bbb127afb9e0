import VersionedApi.Config
import VersionedApi.Proofs.Version.Timeline
import VersionedApi.Proofs.Version.Written

/-!
# The versions of a configuration

* `Config.Sound` : the supported versions ascend, none of them is negative, there is one, and the
  default version is one of them;
* `Config.descent?_eq_none_iff` : comparing neighbours is enough to see that versions ascend;
* `Config.sound_of_read` : every configuration that is read is sound;
* `Config.Sound.firstVersion_le`, `Config.Sound.defaultVersion_mem` : so the first version is the
  earliest one, and the version shown by default is supported.
-/

namespace VersionedApi.Config

/-- What holds of the versions of a configuration that is read. -/
structure Sound (c : Config) : Prop where
  nonempty : c.supported ≠ []
  ascending : c.supported.Pairwise (· < ·)
  nonneg : ∀ v ∈ c.supported, 0 ≤ v.tenths
  preferred : ∀ v, c.preferred = some v → v ∈ c.supported

/-! ## The checks -/

/-- No pair of neighbours descends exactly if every version is below all that follow it. -/
theorem descent?_eq_none_iff (vs : List Version.Number) :
    descent? vs = none ↔ vs.Pairwise (· < ·) := by
  induction vs using descent?.induct with
  | case1 => simp [descent?]
  | case2 v => simp [descent?]
  | case3 a b rest hlt ih =>
    rw [descent?, if_pos hlt, ih]
    refine ⟨fun h => List.pairwise_cons.2 ⟨fun x hx => ?_, h⟩, fun h => (List.pairwise_cons.1 h).2⟩
    rcases List.mem_cons.1 hx with rfl | hx
    · exact hlt
    · have hbx := (List.pairwise_cons.1 h).1 x hx
      simp only [Version.Number.lt_iff_tenths] at *
      omega
  | case4 a b rest hlt =>
    rw [descent?, if_neg hlt, List.pairwise_cons]
    simp [hlt]

theorem fault?_eq_none {c : Config} (h : c.fault? = none) :
    c.supported ≠ [] ∧ c.supported.Pairwise (· < ·) ∧
      ∀ v, c.preferred = some v → v ∈ c.supported := by
  unfold fault? at h
  split at h
  · cases h
  · rename_i hne
    split at h
    · cases h
    · rename_i hdescent
      refine ⟨by simpa using hne, (descent?_eq_none_iff _).1 hdescent, fun v hv => ?_⟩
      have hnone := Option.filter_eq_none_iff.1 (Option.map_eq_none_iff.1 h) v hv
      simpa using hnone

/-! ## The reader -/

theorem exists_of_mem_items {α : Type} {read : Toml.Value → Option α} {values : List Toml.Value}
    {items : List α} (h : values.mapM read = some items) {x : α} (hx : x ∈ items) :
    ∃ value ∈ values, read value = some x := by
  induction values generalizing items with
  | nil =>
    cases h
    cases hx
  | cons value values ih =>
    rw [List.mapM_cons] at h
    obtain ⟨y, hy, h⟩ := Option.bind_eq_some_iff.1 h
    obtain ⟨ys, hys, h⟩ := Option.bind_eq_some_iff.1 h
    cases h
    rcases List.mem_cons.1 hx with rfl | hx
    · exact ⟨value, List.mem_cons_self, hy⟩
    · obtain ⟨value', hmem, hvalue'⟩ := ih hys hx
      exact ⟨value', List.mem_cons_of_mem value hmem, hvalue'⟩

theorem nonneg_of_version? {v : Toml.Value} {n : Version.Number} (h : version? v = some n) :
    0 ≤ n.tenths := by
  obtain ⟨s, -, hs⟩ := Option.bind_eq_some_iff.1 h
  exact Version.Number.tenths_nonneg_of_ofText? hs

theorem nonneg_of_versions? {v : Toml.Value} {supported : List Version.Number}
    {preferred : Option Version.Number} (h : versions? v = some (supported, preferred)) :
    ∀ n ∈ supported, 0 ≤ n.tenths := by
  obtain ⟨r, -, h⟩ := Option.bind_eq_some_iff.1 h
  obtain ⟨versions, hversions, h⟩ := Option.bind_eq_some_iff.1 h
  obtain ⟨default, -, h⟩ := Option.bind_eq_some_iff.1 h
  cases h
  obtain ⟨list, -, hlist⟩ := Option.bind_eq_some_iff.1 hversions
  obtain ⟨values, -, hvalues⟩ := Option.bind_eq_some_iff.1 hlist
  intro n hn
  obtain ⟨value, -, hvalue⟩ := exists_of_mem_items hvalues hn
  exact nonneg_of_version? hvalue

theorem nonneg_of_ofToml? {v : Toml.Value} {c : Config} (h : ofToml? v = some c) :
    ∀ n ∈ c.supported, 0 ≤ n.tenths := by
  obtain ⟨r, -, h⟩ := Option.bind_eq_some_iff.1 h
  obtain ⟨name, -, h⟩ := Option.bind_eq_some_iff.1 h
  obtain ⟨⟨supported, preferred⟩, hversions, h⟩ := Option.bind_eq_some_iff.1 h
  obtain ⟨capabilities, -, h⟩ := Option.bind_eq_some_iff.1 h
  obtain ⟨scopes, -, h⟩ := Option.bind_eq_some_iff.1 h
  obtain ⟨⟨controllers, representations⟩, -, h⟩ := Option.bind_eq_some_iff.1 h
  obtain ⟨filter, -, h⟩ := Option.bind_eq_some_iff.1 h
  cases h
  obtain ⟨table, -, htable⟩ := Option.bind_eq_some_iff.1 hversions
  exact nonneg_of_versions? htable

theorem sound_of_read {text : String} {c : Config} (h : Config.read text = .ok c) : c.Sound := by
  unfold Config.read at h
  split at h
  · cases h
  · rename_i c' htoml
    split at h
    · cases h
    · rename_i hfault
      cases h
      obtain ⟨v, -, hv⟩ := Option.bind_eq_some_iff.1 htoml
      obtain ⟨hne, hascending, hpreferred⟩ := fault?_eq_none hfault
      exact ⟨hne, hascending, nonneg_of_ofToml? hv, hpreferred⟩

/-! ## What follows for its use -/

namespace Sound

variable {c : Config}

theorem head?_supported (h : c.Sound) : c.supported.head? = some c.firstVersion := by
  unfold firstVersion
  cases hsupported : c.supported with
  | nil => exact absurd hsupported h.nonempty
  | cons v vs => rfl

theorem firstVersion_le (h : c.Sound) {v : Version.Number} (hv : v ∈ c.supported) :
    c.firstVersion ≤ v := by
  obtain ⟨later, hlater⟩ := List.head?_eq_some_iff.1 h.head?_supported
  have hascending := h.ascending
  rw [hlater] at hv hascending
  rcases List.mem_cons.1 hv with rfl | hv
  · exact Int.le_refl _
  · have hlt := (List.pairwise_cons.1 hascending).1 v hv
    simp only [Version.Number.lt_iff_tenths, Version.Number.le_iff_tenths] at *
    omega

theorem defaultVersion_mem (h : c.Sound) : c.defaultVersion ∈ c.supported := by
  unfold defaultVersion
  cases hpreferred : c.preferred with
  | some v => exact h.preferred v hpreferred
  | none =>
    have hlast := List.getLast?_eq_some_getLast h.nonempty
    rw [Option.none_or, hlast]
    exact List.getLast_mem h.nonempty

end Sound

end VersionedApi.Config
