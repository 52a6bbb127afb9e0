import VersionedApi.Proofs.Directive.Read
import VersionedApi.Proofs.Response

/-!
# What the contents of directives promise

`Content.Proper` says for every kind what holds of a content that was read: a text is there, a
described field has its description, a response has a status code and what its kind demands, a
scope is declared, a first version is not negative. `Content.proper_of_read` is the one place where
the readers of the kinds are opened.
-/

namespace VersionedApi

open VersionedApi.Text VersionedApi.Docblock

theorem orMissing_eq_ok {α : Type} {kind : Kind} {field : String} {o : Option α} {a : α} :
    orMissing kind field o = .ok a ↔ o = some a := by
  cases o <;> simp [orMissing]

theorem description_of_readDescribed {kind : Kind} {body : String} {f : Field}
    (h : readDescribed kind body = .ok f) : f.description.isSome = true := by
  unfold readDescribed at h
  obtain ⟨field, -, h⟩ := bind_eq_ok.1 h
  split at h
  · cases h
  · rename_i hdescription
    cases h
    exact Option.isSome_iff_ne_none.2 (by simpa using hdescription)

namespace Content

/-- What holds of a content that was read, by kind. -/
def Proper (registry : Registry) : Content → Prop
  | label text => text ≠ ""
  | uriSegment _ field => field.description.isSome = true
  | param field => field.description.isSome = true
  | data field => field.description.isSome = true
  | returns response => response.code ≤ 599 ∧ response.errorCode = none
  | throws response => response.code ≤ 599 ∧ response.representation.isSome = true
  | scope name _ => registry.hasScope name = true
  | minVersion version => 0 ≤ version.tenths
  | _ => True

theorem proper_readUriSegment {registry : Registry} {tag : Tag} {c : Content}
    (h : readUriSegment tag = .ok c) : c.Proper registry := by
  unfold readUriSegment at h
  split at h
  · obtain ⟨⟨inner, rest⟩, -, h⟩ := bind_eq_ok.1 h
    obtain ⟨uri, -, h⟩ := bind_eq_ok.1 h
    obtain ⟨field, hfield, h⟩ := bind_eq_ok.1 h
    cases h
    exact description_of_readDescribed hfield
  · obtain ⟨field, hfield, h⟩ := bind_eq_ok.1 h
    cases h
    exact description_of_readDescribed hfield

theorem proper_readScope {registry : Registry} {body : List Char} {c : Content}
    (h : readScope registry body = .ok c) : c.Proper registry := by
  unfold readScope at h
  obtain ⟨scope, -, h⟩ := bind_eq_ok.1 h
  split at h
  · rename_i hscope
    cases h
    exact hscope
  · cases h

theorem proper_of_read {registry : Registry} {kind : Kind} {tag : Tag} {c : Content}
    (h : Content.read registry kind tag = .ok c) : c.Proper registry := by
  cases kind with
  | label =>
    obtain ⟨text, htext, rfl⟩ := map_eq_ok.1 h
    exact (isLine_of_collapsed? (orMissing_eq_ok.1 htext)).ne_empty
  | uriSegment => exact proper_readUriSegment h
  | param =>
    obtain ⟨field, hfield, rfl⟩ := map_eq_ok.1 h
    exact description_of_readDescribed hfield
  | data =>
    obtain ⟨field, hfield, rfl⟩ := map_eq_ok.1 h
    exact description_of_readDescribed hfield
  | returns =>
    obtain ⟨response, hresponse, h⟩ := bind_eq_ok.1 h
    split at h
    · cases h
    · rename_i hcode
      cases h
      exact ⟨(Response.valid_of_read hresponse).code_le, by simpa using hcode⟩
  | throws =>
    obtain ⟨response, hresponse, h⟩ := bind_eq_ok.1 h
    split at h
    · cases h
    · rename_i hrepresentation
      cases h
      exact ⟨(Response.valid_of_read hresponse).code_le,
        Option.isSome_iff_ne_none.2 (by simpa using hrepresentation)⟩
  | scope => exact proper_readScope h
  | minVersion =>
    have hkind := kind_of_read h
    cases c <;> cases hkind
    exact minVersion_nonneg h
  | description | uri | contentType | vendorTag | see =>
    have hkind := kind_of_read h
    cases c <;> cases hkind
    trivial

end Content

theorem Directive.proper_of_read {registry : Registry} {context : Context} {kind : Kind} {tag : Tag}
    {version : Option Version.Range} {d : Directive}
    (h : Directive.read registry context kind tag version = .ok d) :
    d.content.Proper registry := by
  obtain ⟨traits, -, h⟩ := bind_eq_ok.1 (located_eq_ok.1 h)
  obtain ⟨content, hcontent, h⟩ := bind_eq_ok.1 h
  cases h
  exact Content.proper_of_read hcontent

end VersionedApi
