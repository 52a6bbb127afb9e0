import VersionedApi.Proofs.Directive.Content
import VersionedApi.Proofs.Directive.Serialized
import VersionedApi.Proofs.Version.Grammar

/-!
# Hydration undoes serialization

* `Content.ofJson?_of_entries` : an object that holds the entries of a content is read as this
  content, if its numbers survive (`Content.Faithful`);
* `Directive.hydrate_toJson` : so what is serialized is read back, under another version and at
  another place;
* `Directive.hydrate_of_read` : in particular every directive that was read from a docblock, whatever
  scopes and vendor tags it was then bound to.
-/

namespace VersionedApi

open VersionedApi.Json VersionedApi.Json.Value

/-! ## Contents -/

theorem Response.ofJson?_of_entries {r : Response} {v : Value} (hcode : r.code ≤ 65535)
    (h : ∀ e ∈ r.entries, v.get? e.1 = some e.2) : ofJson? v = some r := by
  simp only [entries, List.forall_mem_cons] at h
  obtain ⟨hnumber, hrepresentation, herror, hcapability, hdescription, -⟩ := h
  have hnat : asNat? (ofNat r.code) = some r.code := by simp [asNat?, ofNat, ofInt]
  simp only [ofJson?, textOrNull?, optional?, hnumber, hrepresentation, herror, hcapability,
    hdescription, orNull?_ofString?, Option.bind_some, hnat]
  rw [Option.filter_some, if_pos (by simpa using hcode)]
  rfl

namespace Content

/-- A content whose numbers survive serialization. -/
def Faithful : Content → Prop
  | returns response => response.code ≤ 65535
  | throws response => response.code ≤ 65535
  | minVersion version => 0 ≤ version.tenths
  | _ => True

theorem Proper.faithful {registry : Registry} {c : Content} (h : c.Proper registry) :
    c.Faithful := by
  cases c with
  | returns response => exact Nat.le_trans h.1 (by decide)
  | throws response => exact Nat.le_trans h.1 (by decide)
  | minVersion version => exact h
  | _ => trivial

theorem ofJson?_of_entries {c : Content} {v : Value} (hc : c.Faithful)
    (h : ∀ e ∈ c.entries, v.get? e.1 = some e.2) : ofJson? c.kind v = some c := by
  cases c with
  | param field => simp [ofJson?, kind, Field.ofJson?_of_entries h]
  | data field => simp [ofJson?, kind, Field.ofJson?_of_entries h]
  | returns response => simp [ofJson?, kind, Response.ofJson?_of_entries hc h]
  | throws response => simp [ofJson?, kind, Response.ofJson?_of_entries hc h]
  | uriSegment path field =>
    obtain ⟨hpath, hfield⟩ := List.forall_mem_cons.1 h
    simp [ofJson?, kind, Field.ofJson?_of_entries hfield, textOrNull?, optional?, hpath,
      orNull?_ofString?]
  | minVersion version =>
    have hversion := h _ List.mem_cons_self
    have hread : Version.Number.ofText? version.text.toList = some version :=
      Version.Number.ofText?_text hc
    simp [ofJson?, kind, hversion, numberOfJson?, asText?, hread]
  | label | description | uri | contentType | scope | vendorTag | see =>
    simp only [entries, List.forall_mem_cons] at h
    simp [ofJson?, kind, text?, textOrNull?, optional?, h, asText?, orNull?_ofString?]

end Content

/-! ## Directives -/

namespace Directive

/-- What is serialized is read back, under the given version as far as the kind has versions, and at
the given place. -/
theorem hydrate_toJson {d : Directive} (hcontent : d.content.Faithful) (htraits : d.traits.Faithful)
    (version : Option Version.Range) (context : Context) :
    hydrate d.kind d.toJson version context = .ok { d with traits := { d.traits with
      version := if d.kind.isVersioned then version else none
      context } } := by
  have hc : Content.ofJson? d.kind d.toJson = some d.content :=
    Content.ofJson?_of_entries hcontent d.get?_content
  have ht : Traits.ofJson? d.toJson = some { d.traits with context := {} } :=
    Traits.ofJson?_of_entries htraits d.get?_traits
  simp only [hydrate, hc, ht]
  rfl

/-- A directive bound to scopes and vendor tags. -/
def boundTo (d : Directive) (scopes vendorTags : List String) : Directive :=
  { d with traits := { d.traits with scopes, vendorTags } }

theorem faithful_of_read {registry : Registry} {context : Context} {kind : Kind} {tag : Docblock.Tag}
    {version : Option Version.Range} {d : Directive}
    (h : Directive.read registry context kind tag version = .ok d)
    (hversion : ∀ r, version = some r → Version.Range.read r.text = .ok r) :
    d.traits.Faithful := by
  intro r hr
  rw [(readAs h).version] at hr
  split at hr
  · exact hversion r hr
  · cases hr

/-- A directive that was read from a tag, and then bound to any scopes and vendor tags, is hydrated
from its serialized form: with its own version it comes back at the new place and else unchanged, and
another version replaces its own if the kind has versions, and is dropped if not. -/
theorem hydrate_of_read {registry : Registry} {context : Context} {kind : Kind} {tag : Docblock.Tag}
    {version : Option Version.Range} {d : Directive}
    (h : Directive.read registry context kind tag version = .ok d)
    (hversion : ∀ r, version = some r → ∃ s, Version.Range.read s = .ok r)
    (scopes vendorTags : List String) (place : Context) :
    let a := d.boundTo scopes vendorTags
    hydrate a.kind a.toJson a.traits.version place =
        .ok { a with traits := { a.traits with context := place } } ∧
      ∀ w, hydrate a.kind a.toJson w place = .ok { a with traits := { a.traits with
        version := if a.kind.isVersioned then w else none
        context := place } } := by
  intro a
  have hcontent : a.content.Faithful := (proper_of_read h).faithful
  have htext : ∀ r, version = some r → Version.Range.read r.text = .ok r := by
    intro r hr
    obtain ⟨s, hs⟩ := hversion r hr
    exact Version.Range.read_text hs
  have htraits : a.traits.Faithful := fun r hr => faithful_of_read h htext r hr
  have hown : (if a.kind.isVersioned then a.traits.version else none) = a.traits.version := by
    have hread := readAs h
    show (if d.kind.isVersioned then d.traits.version else none) = d.traits.version
    rw [hread.version, hread.kind]
    cases kind.isVersioned <;> rfl
  refine ⟨?_, fun w => hydrate_toJson hcontent htraits w place⟩
  rw [hydrate_toJson hcontent htraits a.traits.version place, hown]

namespace Movies

def sinceOneThree : Version.Range := ⟨⟨some ⟨13, by decide, by decide⟩, none⟩, ">=1.3"⟩

/-- A public and deprecated parameter with a sample, a vendor tag and members. -/
def orderTag : Docblock.Tag :=
  { name := "param", decorators := ["public", "deprecated"]
    body := "order \x60asc\x60 (enum, nullable, BETA) - Order of the list\n+ Members\n- \x60asc\x60 - Up"
    line := 4 }

def order : Directive :=
  { content := .param
      { name := "order", sample := some "asc", typeName := "enum", nullable := true
        capability := some "BETA", description := some "Order of the list"
        values := some [("asc", "Up")] }
    traits := { version := some sinceOneThree, visibility := some .published, deprecated := true } }

end Movies

/-- The parameter, bound to a scope and a vendor tag, comes back from its serialized form. -/
theorem hydrate_of_read_order :
    let a := Movies.order.boundTo ["edit"] ["PRO"]
    let place := Context.ofClass "Movies" "/** */"
    Directive.read {} {} .param Movies.orderTag (some Movies.sinceOneThree) = .ok Movies.order ∧
      hydrate .param a.toJson (some Movies.sinceOneThree) place =
        .ok { a with traits := { a.traits with context := place } } ∧
      ∀ w, hydrate .param a.toJson w place =
        .ok { a with traits := { a.traits with version := w, context := place } } := by
  intro a place
  have hread : Directive.read {} {} .param Movies.orderTag (some Movies.sinceOneThree) =
      .ok Movies.order := toOption_eq_some.1 (by decide +kernel)
  have hversion : Version.Range.read ">=1.3" = .ok Movies.sinceOneThree :=
    toOption_eq_some.1 (by decide +kernel)
  refine ⟨hread, ?_⟩
  exact hydrate_of_read hread (fun r hr => ⟨">=1.3", Option.some.inj hr ▸ hversion⟩)
    ["edit"] ["PRO"] place

end Directive

end VersionedApi
