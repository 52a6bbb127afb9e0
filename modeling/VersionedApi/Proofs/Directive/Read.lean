import VersionedApi.Directive.Read
import VersionedApi.Proofs.Outcome
import VersionedApi.Proofs.Version.Written

/-!
# What a directive can carry when it is read

* `Decorated` : traits that decorators alone can give to a kind; `decorate_ok` from one decorator
  (`Decorated.step`) to all of them (`Decorated.run`);
* `Content.kind_of_read`, `Content.minVersion_nonneg` : the content has the kind that was asked
  for, and a first version is not negative;
* `Directive.ReadAs` : what is known of a directive that was read; `Directive.readAs`.
-/

namespace VersionedApi

open VersionedApi.Text VersionedApi.Docblock

/-! ## Decorators -/

/-- Traits with a visibility and a deprecation at most, as far as the kind has them. -/
structure Decorated (kind : Kind) (t : Traits) : Prop where
  version : t.version = none
  scopes : t.scopes = []
  vendorTags : t.vendorTags = []
  visibility : t.visibility.isSome = true → kind.needsVisibility = true
  deprecated : t.deprecated = true → kind.allowsDeprecation = true

namespace Decorated

theorem default (kind : Kind) : Decorated kind {} := by
  refine ⟨rfl, rfl, rfl, ?_, ?_⟩
  · intro h
    cases h
  · intro h
    cases h

theorem step {kind : Kind} {t t' : Traits} {decorator : String} (ht : Decorated kind t)
    (h : decorateOne kind t decorator = .ok t') : Decorated kind t' := by
  unfold decorateOne at h
  dsimp only at h
  split at h
  · split at h
    · rename_i hkind
      cases h
      exact { ht with visibility := fun _ => hkind }
    · cases h
  · split at h
    · rename_i hkind
      cases h
      exact { ht with visibility := fun _ => hkind }
    · cases h
  · split at h
    · rename_i hkind
      cases h
      exact { ht with deprecated := fun _ => hkind }
    · cases h
  · cases h

theorem run {kind : Kind} {decorators : List String} {t t' : Traits} (ht : Decorated kind t)
    (h : decorators.foldlM (decorateOne kind) t = .ok t') : Decorated kind t' := by
  induction decorators generalizing t with
  | nil =>
    cases h
    exact ht
  | cons decorator decorators ih =>
    rw [List.foldlM_cons] at h
    obtain ⟨next, hstep, hrun⟩ := bind_eq_ok.1 h
    exact ih (ht.step hstep) hrun

end Decorated

theorem decorate_ok {kind : Kind} {decorators : List String} {t : Traits}
    (h : decorate kind decorators = .ok t) :
    Decorated kind t ∧ (kind.needsVisibility = true → t.visibility.isSome = true) := by
  unfold decorate at h
  obtain ⟨traits, hrun, h⟩ := bind_eq_ok.1 h
  split at h
  · cases h
  · rename_i hvisible
    cases h
    refine ⟨(Decorated.default kind).run hrun, fun hkind => ?_⟩
    rw [hkind, Bool.true_and, Bool.not_eq_true, Option.isNone_eq_false_iff] at hvisible
    exact hvisible

/-! ## Contents -/

namespace Content

theorem kind_readUri {body : List Char} {c : Content} (h : readUri body = .ok c) :
    c.kind = .uri := by
  unfold readUri at h
  obtain ⟨⟨inner, rest⟩, -, h⟩ := bind_eq_ok.1 h
  obtain ⟨group, -, h⟩ := bind_eq_ok.1 h
  obtain ⟨path, -, h⟩ := bind_eq_ok.1 h
  cases h
  rfl

theorem kind_readUriSegment {tag : Tag} {c : Content} (h : readUriSegment tag = .ok c) :
    c.kind = .uriSegment := by
  unfold readUriSegment at h
  split at h
  · obtain ⟨⟨inner, rest⟩, -, h⟩ := bind_eq_ok.1 h
    obtain ⟨uri, -, h⟩ := bind_eq_ok.1 h
    obtain ⟨field, -, h⟩ := bind_eq_ok.1 h
    cases h
    rfl
  · obtain ⟨field, -, h⟩ := bind_eq_ok.1 h
    cases h
    rfl

theorem kind_readScope {registry : Registry} {body : List Char} {c : Content}
    (h : readScope registry body = .ok c) : c.kind = .scope := by
  unfold readScope at h
  obtain ⟨scope, -, h⟩ := bind_eq_ok.1 h
  split at h
  · cases h
    rfl
  · cases h

theorem kind_of_read {registry : Registry} {kind : Kind} {tag : Tag} {c : Content}
    (h : Content.read registry kind tag = .ok c) : c.kind = kind := by
  cases kind with
  | uri => exact kind_readUri h
  | uriSegment => exact kind_readUriSegment h
  | scope => exact kind_readScope h
  | label | description | param | data | see =>
    obtain ⟨x, -, rfl⟩ := map_eq_ok.1 h
    rfl
  | minVersion =>
    simp only [Content.read] at h
    split at h
    · cases h
    · obtain ⟨x, -, rfl⟩ := map_eq_ok.1 h
      rfl
  | returns | throws =>
    obtain ⟨response, -, h⟩ := bind_eq_ok.1 h
    split at h
    · cases h
    · cases h
      rfl
  | contentType | vendorTag =>
    obtain ⟨word, -, h⟩ := bind_eq_ok.1 h
    cases h
    rfl

theorem minVersion_nonneg {registry : Registry} {kind : Kind} {tag : Tag} {n : Version.Number}
    (h : Content.read registry kind tag = .ok (.minVersion n)) : 0 ≤ n.tenths := by
  obtain rfl : Kind.minVersion = kind := kind_of_read h
  simp only [Content.read] at h
  split at h
  · cases h
  · obtain ⟨m, hread, hm⟩ := map_eq_ok.1 h
    cases hm
    unfold Version.Number.read at hread
    split at hread
    · rename_i hm
      cases hread
      exact Version.Number.tenths_nonneg_of_ofText? hm
    · cases hread

end Content

/-! ## Directives -/

/-- What is known of a directive of a kind that was read where `version` is in force. -/
structure Directive.ReadAs (kind : Kind) (version : Option Version.Range) (d : Directive) :
    Prop where
  version : d.traits.version = if kind.isVersioned then version else none
  scopes : d.traits.scopes = []
  vendorTags : d.traits.vendorTags = []
  visibility : d.traits.visibility.isSome = kind.needsVisibility
  deprecated : d.traits.deprecated = true → kind.allowsDeprecation = true
  minVersion : ∀ n, d.content = .minVersion n → 0 ≤ n.tenths
  kind : d.kind = kind

theorem Directive.readAs {registry : Registry} {context : Context} {kind : Kind} {tag : Tag}
    {version : Option Version.Range} {d : Directive}
    (h : Directive.read registry context kind tag version = .ok d) : d.ReadAs kind version := by
  obtain ⟨traits, htraits, h⟩ := bind_eq_ok.1 (located_eq_ok.1 h)
  obtain ⟨content, hcontent, h⟩ := bind_eq_ok.1 h
  cases h
  obtain ⟨hd, hvisible⟩ := decorate_ok htraits
  refine ⟨rfl, hd.scopes, hd.vendorTags, ?_, hd.deprecated, ?_, Content.kind_of_read hcontent⟩
  · rw [Bool.eq_iff_iff]
    exact ⟨hd.visibility, hvisible⟩
  · intro n hn
    rw [show content = .minVersion n from hn] at hcontent
    exact Content.minVersion_nonneg hcontent

theorem Directive.context_of_read {registry : Registry} {context : Context} {kind : Kind}
    {tag : Tag} {version : Option Version.Range} {d : Directive}
    (h : Directive.read registry context kind tag version = .ok d) :
    d.traits.context = context := by
  obtain ⟨traits, -, h⟩ := bind_eq_ok.1 (located_eq_ok.1 h)
  obtain ⟨content, -, h⟩ := bind_eq_ok.1 h
  cases h
  rfl

/-- Where a kind allows no decorator, a directive carries nothing but its version and its place. -/
theorem Directive.eq_of_read {registry : Registry} {context : Context} {kind : Kind} {tag : Tag}
    {version : Option Version.Range} {d : Directive}
    (h : Directive.read registry context kind tag version = .ok d)
    (hvisibility : kind.needsVisibility = false) (hdeprecated : kind.allowsDeprecation = false) :
    d = ⟨d.content, { version := if kind.isVersioned then version else none, context }⟩ := by
  have hread := readAs h
  have hnone : d.traits.visibility = none := by
    rw [← Option.isSome_eq_false_iff.trans Option.isNone_iff_eq_none, hread.visibility, hvisibility]
  have hfalse : d.traits.deprecated = false := by
    rw [← Bool.not_eq_true]
    intro htrue
    rw [hread.deprecated htrue] at hdeprecated
    cases hdeprecated
  have hcontext := context_of_read h
  have hversion := hread.version
  have hscopes := hread.scopes
  have htags := hread.vendorTags
  obtain ⟨content, traits⟩ := d
  cases traits
  simp_all

end VersionedApi
