import Mathlib.Tactic.ByContra
import VersionedApi.Action.Basic
import VersionedApi.Proofs.Version.Timeline

/-!
# The media type in force

* `ContentType.covers` : the media type is bound to versions, and these include the given one;
  `ContentType.switches_iff` : it begins or is over where it covers one of two neighbours only;
* `Action.contentTypeAt?_of_covers` : of those that cover a version, the one that stands last is in
  force there; what is in force depends on nothing but which ones cover the version
  (`Action.contentTypeAt?_congr`), and it is one of those of the action
  (`Action.contentTypeAt?_isSome`, `Action.exists_of_contentTypeAt?`);
* `Action.Turns` : from one version to another the last of those that cover one of them covers only
  that one, and at the other one another media type is in force; `Action.contentTypeAt?_ne_iff` :
  exactly then the media type differs.
-/

namespace VersionedApi

/-- The media type is bound to versions that include this one. -/
def ContentType.covers (t : ContentType) (v : Version.Number) : Bool :=
  t.version.any (·.contains v)

/-- A media type begins or is over at a version exactly if it covers either that version or the one
before, but not both. -/
theorem ContentType.switches_iff {timeline : List Version.Number} {t : ContentType}
    {w : Version.Number} (hs : timeline.Pairwise (· < ·)) :
    Version.Begins timeline t.version w ∨ Version.Ends timeline t.version w ↔
      ∃ u, [u, w] <:+: timeline ∧ t.covers u ≠ t.covers w := by
  unfold covers
  rw [Version.begins_iff hs, Version.ends_iff hs]
  cases t.version with
  | none => simp
  | some range =>
    simp only [Option.all_some, Option.any_some]
    constructor
    · rintro (⟨u, hn, hu, hw⟩ | ⟨u, hn, hu, hw⟩)
      · exact ⟨u, hn, by simp [hu, hw]⟩
      · exact ⟨u, hn, by simp [hu, hw]⟩
    · rintro ⟨u, hn, hne⟩
      cases hu : range.contains u
      · exact Or.inl ⟨u, hn, hu, by simpa [hu] using hne.symm⟩
      · exact Or.inr ⟨u, hn, hu, by simpa [hu] using hne.symm⟩

namespace Action

variable {a : Action} {u v w : Version.Number} {t : ContentType}

/-- The media type in force depends only on which of the bound ones include the version. -/
theorem contentTypeAt?_congr
    (h : ∀ t ∈ a.contentTypes, t.version.any (·.contains u) = t.version.any (·.contains w)) :
    a.contentTypeAt? (some u) = a.contentTypeAt? (some w) := by
  have hforked : (a.contentTypes.filter fun t => t.version.any (·.contains u)) =
      a.contentTypes.filter fun t => t.version.any (·.contains w) := List.filter_congr h
  unfold contentTypeAt?
  simp only [Option.bind_some, hforked]

theorem contentTypeAt?_isSome (ht : t ∈ a.contentTypes) (v : Option Version.Number) :
    ∃ mediaType, a.contentTypeAt? v = some mediaType := by
  have hlast : a.contentTypes.getLast?.isSome = true := by
    rw [List.getLast?_isSome]
    intro hnil
    rw [hnil] at ht
    cases ht
  have hsome : (a.contentTypeAt? v).isSome = true := by
    unfold contentTypeAt?
    rw [Option.isSome_map, Option.isSome_or, hlast, Bool.or_true]
  exact Option.isSome_iff_exists.1 hsome

theorem exists_of_contentTypeAt? {v : Option Version.Number} {mediaType : String}
    (h : a.contentTypeAt? v = some mediaType) : ∃ t ∈ a.contentTypes, t.mediaType = mediaType := by
  unfold contentTypeAt? at h
  obtain ⟨t, ht, hmedia⟩ := Option.map_eq_some_iff.1 h
  refine ⟨t, ?_, hmedia⟩
  rcases Option.or_eq_some_iff.1 ht with ht | ⟨-, ht⟩
  · rcases Option.or_eq_some_iff.1 ht with ht | ⟨-, ht⟩
    · obtain ⟨n, -, ht⟩ := Option.bind_eq_some_iff.1 ht
      exact (List.mem_filter.1 (List.mem_of_getLast? ht)).1
    · exact List.mem_of_find?_eq_some ht
  · exact List.mem_of_getLast? ht

theorem contentTypeAt?_singleton {t : ContentType} (h : a.contentTypes = [t])
    (v : Option Version.Number) : a.contentTypeAt? v = some t.mediaType := by
  have ht : t ∈ a.contentTypes := by simp [h]
  obtain ⟨mediaType, hmedia⟩ := contentTypeAt?_isSome ht v
  obtain ⟨x, hx, rfl⟩ := exists_of_contentTypeAt? hmedia
  rw [h, List.mem_singleton] at hx
  rw [hmedia, hx]

/-- Of the media types that cover a version, the one that stands last is in force. -/
theorem contentTypeAt?_of_covers {before behind : List ContentType}
    (h : a.contentTypes = before ++ t :: behind) (ht : t.covers v = true)
    (hbehind : ∀ x ∈ behind, x.covers v = false) :
    a.contentTypeAt? (some v) = some t.mediaType := by
  have hnil : behind.filter (·.covers v) = [] := by
    rw [List.filter_eq_nil_iff]
    intro x hx
    simp [hbehind x hx]
  have hlast : (a.contentTypes.filter (·.covers v)).getLast? = some t := by
    rw [h, List.filter_append, List.filter_cons, if_pos ht, hnil, List.getLast?_concat]
  unfold contentTypeAt?
  change (((a.contentTypes.filter (·.covers v)).getLast?.or _).or _).map _ = _
  rw [hlast]
  rfl

/-! ## From one version to another -/

/-- Of the media types that cover one of two versions, the one that stands last. -/
def Leads (a : Action) (u w : Version.Number) (t : ContentType) : Prop :=
  ∃ before behind, a.contentTypes = before ++ t :: behind ∧
    (t.covers u = true ∨ t.covers w = true) ∧
      ∀ x ∈ behind, x.covers u = false ∧ x.covers w = false

/-- The last of the media types that cover one of two versions does not cover both, and at the one
that it does not cover another media type is in force. -/
def Turns (a : Action) (u w : Version.Number) : Prop :=
  ∃ t, a.Leads u w t ∧
    (t.covers u = false ∧ a.contentTypeAt? (some u) ≠ some t.mediaType ∨
      t.covers w = false ∧ a.contentTypeAt? (some w) ≠ some t.mediaType)

theorem exists_leads (ht : t ∈ a.contentTypes) (hcovers : t.covers u = true ∨ t.covers w = true) :
    ∃ t, a.Leads u w t := by
  -- the last one is the first one from behind
  have hfound : (a.contentTypes.reverse.find? fun t => t.covers u || t.covers w).isSome = true := by
    rw [List.find?_isSome]
    exact ⟨t, List.mem_reverse.2 ht, by simpa using hcovers⟩
  obtain ⟨last, hlast⟩ := Option.isSome_iff_exists.1 hfound
  obtain ⟨hcovers, behind, before, hreverse, hbehind⟩ := List.find?_eq_some_iff_append.1 hlast
  refine ⟨last, before.reverse, behind.reverse, ?_, by simpa using hcovers, fun x hx => ?_⟩
  · rw [← List.reverse_reverse a.contentTypes, hreverse]
    simp
  · simpa using hbehind x (List.mem_reverse.1 hx)

theorem Leads.contentTypeAt? (h : a.Leads u w t) :
    (t.covers u = true → a.contentTypeAt? (some u) = some t.mediaType) ∧
      (t.covers w = true → a.contentTypeAt? (some w) = some t.mediaType) := by
  obtain ⟨before, behind, htypes, -, hbehind⟩ := h
  exact ⟨fun hu => contentTypeAt?_of_covers htypes hu fun x hx => (hbehind x hx).1,
    fun hw => contentTypeAt?_of_covers htypes hw fun x hx => (hbehind x hx).2⟩

theorem exists_covers_ne (h : a.contentTypeAt? (some u) ≠ a.contentTypeAt? (some w)) :
    ∃ t ∈ a.contentTypes, t.covers u ≠ t.covers w := by
  by_contra hnone
  refine h (contentTypeAt?_congr fun t ht => ?_)
  by_contra hne
  exact hnone ⟨t, ht, hne⟩

/-- The media type differs between two versions exactly if it turns. -/
theorem contentTypeAt?_ne_iff :
    a.contentTypeAt? (some u) ≠ a.contentTypeAt? (some w) ↔ a.Turns u w := by
  constructor
  · intro hne
    obtain ⟨x, hx, hcovers⟩ := exists_covers_ne hne
    have hone : x.covers u = true ∨ x.covers w = true := by
      cases hu : x.covers u
      · exact Or.inr (by simpa [hu] using hcovers.symm)
      · exact Or.inl rfl
    obtain ⟨t, hleads⟩ := exists_leads hx hone
    obtain ⟨hu, hw⟩ := hleads.contentTypeAt?
    refine ⟨t, hleads, ?_⟩
    obtain ⟨-, -, -, hone, -⟩ := hleads
    by_cases hboth : t.covers u = true
    · refine Or.inr ⟨?_, fun heq => hne ((hu hboth).trans heq.symm)⟩
      rw [← Bool.not_eq_true]
      exact fun hw' => hne ((hu hboth).trans (hw hw').symm)
    · have hw' := hone.resolve_left hboth
      exact Or.inl ⟨by simpa using hboth, fun heq => hne (heq.trans (hw hw').symm)⟩
  · rintro ⟨t, hleads, hside⟩ heq
    obtain ⟨hu, hw⟩ := hleads.contentTypeAt?
    obtain ⟨-, -, -, hone, -⟩ := hleads
    rcases hside with ⟨hnot, hother⟩ | ⟨hnot, hother⟩
    · have hcovered : t.covers w = true := hone.resolve_left (by simp [hnot])
      exact hother (heq.trans (hw hcovered))
    · have hcovered : t.covers u = true := hone.resolve_right (by simp [hnot])
      exact hother (heq.symm.trans (hu hcovered))

end Action

end VersionedApi
