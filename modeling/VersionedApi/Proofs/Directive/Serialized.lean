import Mathlib.Data.List.Induction
import Mathlib.Data.List.Nodup
import VersionedApi.Directive.Serialized

/-!
# Directives read back from their serialized form

* `get?_append`, `get?_set_self`, `get?_set_of_ne` : the entries of objects put together or changed;
* `Field.ofJson?_of_entries` : an object that holds the entries of a field is read as that field;
* `Traits.Faithful` : the version constraint is what its text says;
  `Traits.ofJson?_of_entries` : such traits are read back, without their place;
* `Kind.entryKeys` : the keys that the content of a kind has; with those of the traits they never
  clash (`Kind.nodup_keys`), so every entry of a directive is found under its key
  (`Directive.get?_content`, `Directive.get?_traits`);
* `DataField.hydrate_renamed` : so a field can be read back under another name.
-/

namespace VersionedApi.Json.Value

/-! ## Entries of objects -/

theorem get?_append (as bs : List (String × Value)) (key : String) :
    (object (as ++ bs)).get? key = ((object bs).get? key).or ((object as).get? key) := by
  simp only [get?, List.reverse_append, List.lookup_append]

theorem get?_singleton (key other : String) (w : Value) :
    (object [(key, w)]).get? other = if other = key then some w else none := by
  by_cases h : other = key
  · simp [get?, h]
  · have hne : (other == key) = false := beq_eq_false_iff_ne.2 h
    simp [get?, List.lookup_cons, hne, h]

theorem get?_nil (key : String) : (object []).get? key = none := rfl

theorem lookup_filter_of_ne {key other : String} (h : other ≠ key)
    (entries : List (String × Value)) :
    (entries.filter (·.1 != key)).lookup other = entries.lookup other := by
  induction entries with
  | nil => rfl
  | cons e entries ih =>
    obtain ⟨k, w⟩ := e
    by_cases hk : k = key
    · have hne : (other == k) = false := by simpa [hk] using h
      rw [List.filter_cons_of_neg (by simp [hk]), ih, List.lookup_cons, hne]
    · rw [List.filter_cons_of_pos (by simpa using hk), List.lookup_cons, List.lookup_cons, ih]

theorem get?_set_self (entries : List (String × Value)) (key : String) (w : Value) :
    ((object entries).set key w).get? key = some w := by
  simp [set, get?_append, get?_singleton]

theorem get?_set_of_ne {key other : String} (h : other ≠ key) (entries : List (String × Value))
    (w : Value) : ((object entries).set key w).get? other = (object entries).get? other := by
  simp only [set, get?_append, get?_singleton, if_neg h, Option.none_or]
  rw [get?, get?, ← List.filter_reverse, lookup_filter_of_ne h]

theorem get?_eq_none {entries : List (String × Value)} {key : String}
    (h : key ∉ entries.map (·.1)) : (object entries).get? key = none := by
  induction entries using List.reverseRecOn with
  | nil => rfl
  | append_singleton entries d ih =>
    rw [List.map_append, List.map_singleton, List.mem_append, List.mem_singleton, not_or] at h
    rw [get?_append, ih h.1, get?_singleton, if_neg h.2]
    rfl

theorem get?_of_nodup {entries : List (String × Value)} (h : (entries.map (·.1)).Nodup)
    {e : String × Value} (he : e ∈ entries) : (object entries).get? e.1 = some e.2 := by
  induction entries using List.reverseRecOn with
  | nil => cases he
  | append_singleton entries d ih =>
    rw [List.map_append, List.map_singleton, ← List.concat_eq_append, List.nodup_concat] at h
    rw [get?_append, get?_singleton]
    rcases List.mem_append.1 he with hmem | hlast
    · have hne : ¬ e.1 = d.1 := fun heq => h.1 (heq ▸ List.mem_map_of_mem hmem)
      rw [if_neg hne, Option.none_or, ih h.2 hmem]
    · rw [List.mem_singleton.1 hlast, if_pos rfl, Option.some_or]

/-! ## Values that are read back -/

theorem orNull?_ofString? (s : Option String) : orNull? asText? (ofString? s) = some s := by
  cases s <;> rfl

theorem asTexts?_ofStrings (ss : List String) : asTexts? (ofStrings ss) = some ss := by
  simp only [asTexts?, ofStrings, asArray?, Option.bind_some]
  induction ss with
  | nil => rfl
  | cons s ss ih => rw [List.map_cons, List.mapM_cons, ih]; rfl

end VersionedApi.Json.Value

namespace VersionedApi

open VersionedApi.Json VersionedApi.Json.Value

/-! ## Fields -/

namespace Field

theorem values?_valuesJson (values : List (String × String)) :
    values? (valuesJson values) = some values := by
  simp only [values?, valuesJson, Value.entries?, Option.bind_some]
  induction values with
  | nil => rfl
  | cons v values ih => rw [List.map_cons, List.mapM_cons, ih]; rfl

theorem orNull?_values (values : Option (List (String × String))) :
    orNull? values? (ofOption valuesJson values) = some values := by
  cases values with
  | none => rfl
  | some vs =>
    have h := values?_valuesJson vs
    simp only [valuesJson] at h
    simp only [ofOption, valuesJson, orNull?, h, Option.map_some]

theorem ofJson?_of_entries {f : Field} {v : Value}
    (h : ∀ e ∈ f.entries, v.get? e.1 = some e.2) : ofJson? v = some f := by
  simp only [entries, List.forall_mem_cons] at h
  obtain ⟨hname, hsample, htype, hsubtype, hrequired, hnullable, hcapability, hdescription,
    hvalues, -⟩ := h
  simp only [ofJson?, text?, textOrNull?, flag?, optional?, orDefault?, hname, hsample, htype,
    hsubtype, hrequired, hnullable, hcapability, hdescription, hvalues, orNull?_ofString?,
    orNull?_values]
  rfl

end Field

/-! ## Traits -/

namespace Traits

/-- The version constraint is what its text says. -/
def Faithful (t : Traits) : Prop :=
  ∀ r, t.version = some r → Version.Range.read r.text = .ok r

theorem get?_toList {α : Type} (o : Option α) (key other : String) (f : α → Value) :
    (object ((o.map fun a => (key, f a)).toList)).get? other =
      if other = key then o.map f else none := by
  cases o with
  | none => simp [get?_nil]
  | some a => simp [get?_singleton]

theorem get?_ite (b : Bool) (key other : String) (w : Value) :
    (object (if b then [(key, w)] else [])).get? other =
      if other = key ∧ b = true then some w else none := by
  cases b with
  | false => simp [get?_nil]
  | true => simp [get?_singleton]

theorem get?_ite_isEmpty (ss : List String) (key other : String) :
    (object (if ss.isEmpty then [] else [(key, ofStrings ss)])).get? other =
      if other = key ∧ ss ≠ [] then some (ofStrings ss) else none := by
  cases ss with
  | nil => simp [get?_nil]
  | cons s ss => simp [get?_singleton]

theorem get?_entries (t : Traits) (key : String) :
    (object t.entries).get? key =
      if key = "vendor_tags" ∧ t.vendorTags ≠ [] then some (ofStrings t.vendorTags)
      else if key = "scopes" ∧ t.scopes ≠ [] then some (ofStrings t.scopes)
      else if key = "deprecated" ∧ t.deprecated = true then some (bool true)
      else if key = "visibility" then t.visibility.map fun v => string v.word
      else if key = "version" then t.version.map fun r => string r.text
      else none := by
  simp only [entries, get?_append, get?_toList, get?_ite, get?_ite_isEmpty]
  split
  · simp
  · split
    · simp
    · split
      · simp
      · split
        · simp_all
        · simp

def keys : List String := ["version", "visibility", "deprecated", "scopes", "vendor_tags"]

theorem get?_entries_of_not_mem (t : Traits) {key : String} (h : key ∉ keys) :
    (object t.entries).get? key = none := by
  simp only [keys, List.mem_cons, List.not_mem_nil, or_false, not_or] at h
  simp [get?_entries, h]

theorem texts?_of_get? {v : Value} {key : String} {ss : List String}
    (h : v.get? key = if ss ≠ [] then some (ofStrings ss) else none) : v.texts? key = some ss := by
  unfold texts? orDefault?
  rw [h]
  cases ss with
  | nil => rfl
  | cons s ss => simp [asTexts?_ofStrings]

theorem ofJson?_of_entries {t : Traits} {v : Value} (ht : t.Faithful)
    (h : ∀ key ∈ keys, v.get? key = (object t.entries).get? key) :
    ofJson? v = some { t with context := {} } := by
  simp only [keys, List.forall_mem_cons, get?_entries] at h
  obtain ⟨hversion, hvisibility, hdeprecated, hscopes, htags, -⟩ := h
  have eversion : v.optional? rangeOfJson? "version" = some t.version := by
    unfold optional?
    rw [hversion]
    cases hr : t.version with
    | none => simp
    | some r => simp [orNull?, rangeOfJson?, asText?, ht r hr, Except.toOption]
  have evisibility : v.optional? Visibility.ofJson? "visibility" = some t.visibility := by
    unfold optional?
    rw [hvisibility]
    cases t.visibility with
    | none => simp
    | some w => cases w <;> simp [orNull?, Visibility.ofJson?, word?, Visibility.word]
  have edeprecated : v.flag? "deprecated" = some t.deprecated := by
    unfold flag? orDefault?
    rw [hdeprecated]
    cases t.deprecated <;> simp [asBool?]
  have escopes : v.texts? "scopes" = some t.scopes := texts?_of_get? (by rw [hscopes]; simp)
  have etags : v.texts? "vendor_tags" = some t.vendorTags := texts?_of_get? (by rw [htags]; simp)
  simp only [ofJson?, eversion, evisibility, edeprecated, escopes, etags]
  rfl

end Traits

/-! ## Keys of directives -/

def Field.keys : List String :=
  ["field", "sample_data", "type", "subtype", "required", "nullable", "capability", "description",
    "values"]

def Response.keys : List String :=
  ["http_code", "representation", "error_code", "capability", "description"]

/-- The keys of a serialized content, by kind. -/
def Kind.entryKeys : Kind → List String
  | label => ["label"]
  | description => ["description"]
  | uri => ["group", "path"]
  | uriSegment => "uri" :: Field.keys
  | param => Field.keys
  | returns => Response.keys
  | throws => Response.keys
  | contentType => ["content_type"]
  | scope => ["scope", "description"]
  | vendorTag => ["vendor_tag"]
  | minVersion => ["minimum_version"]
  | data => Field.keys
  | see => ["class", "method", "prefix"]

theorem Content.keys_entries (c : Content) : c.entries.map (·.1) = c.kind.entryKeys := by
  cases c <;> rfl

/-- No key is used twice, neither in a content nor in a content and its traits. -/
theorem Kind.nodup_keys (k : Kind) : (k.entryKeys ++ Traits.keys).Nodup := by
  cases k <;> decide

namespace Directive

theorem get?_content (d : Directive) : ∀ e ∈ d.content.entries, d.toJson.get? e.1 = some e.2 := by
  intro e he
  have hkeys := List.nodup_append.1 d.kind.nodup_keys
  have hmem : e.1 ∈ d.kind.entryKeys := by
    rw [kind, ← Content.keys_entries]
    exact List.mem_map_of_mem he
  have hnot : e.1 ∉ Traits.keys := fun h => hkeys.2.2 _ hmem _ h rfl
  have hnodup : (d.content.entries.map (·.1)).Nodup := by
    rw [Content.keys_entries]
    exact hkeys.1
  rw [toJson, get?_append, d.traits.get?_entries_of_not_mem hnot, Option.none_or,
    get?_of_nodup hnodup he]

theorem get?_traits (d : Directive) :
    ∀ key ∈ Traits.keys, d.toJson.get? key = (object d.traits.entries).get? key := by
  intro key hkey
  have hkeys := List.nodup_append.1 d.kind.nodup_keys
  have hnot : key ∉ d.content.entries.map (·.1) := by
    rw [Content.keys_entries]
    exact fun h => hkeys.2.2 _ h _ hkey rfl
  rw [toJson, get?_append, get?_eq_none hnot, Option.or_none]

end Directive

/-! ## Fields under another name -/

namespace Field

/-- Under another name only the first entry of a field is another one. -/
theorem mem_entries_renamed {f : Field} {name : String} {e : String × Value}
    (h : e ∈ ({ f with name } : Field).entries) :
    e = ("field", .string name) ∨ e ∈ f.entries ∧ e.1 ≠ "field" := by
  have hkeys : ∀ e ∈ f.entries.tail, e.1 ≠ "field" := by simp [entries]
  rcases List.mem_cons.1 h with h | h
  · exact Or.inl h
  · exact Or.inr ⟨List.mem_cons_of_mem _ h, hkeys e h⟩

end Field

namespace DataField

theorem field_ofJson?_renamed (f : DataField) (name : String) :
    Field.ofJson? (f.toJson.set "field" (.string name)) = some { f.field with name } := by
  apply Field.ofJson?_of_entries
  intro e he
  rcases Field.mem_entries_renamed he with rfl | ⟨hmem, hkey⟩
  · exact get?_set_self _ _ _
  · have hentry : f.toJson.get? e.1 = some e.2 := f.directive.get?_content e hmem
    exact (get?_set_of_ne hkey _ _).trans hentry

theorem traits_ofJson?_renamed (f : DataField) (hf : f.traits.Faithful) (name : String) :
    Traits.ofJson? (f.toJson.set "field" (.string name)) =
      some { f.traits with context := {} } := by
  apply Traits.ofJson?_of_entries hf
  intro key hkey
  have hne : key ≠ "field" := by
    rintro rfl
    exact absurd hkey (by decide)
  exact (get?_set_of_ne hne _ _).trans (f.directive.get?_traits key hkey)

theorem hydrate_renamed (f : DataField) (hf : f.traits.Faithful) (name : String)
    (version : Option Version.Range) (context : Context) :
    Directive.hydrate .data (f.toJson.set "field" (.string name)) version context =
      .ok ⟨.data { f.field with name }, { f.traits with version, context }⟩ := by
  simp only [Directive.hydrate, Content.ofJson?, f.field_ofJson?_renamed name,
    f.traits_ofJson?_renamed hf name]
  rfl

end DataField

end VersionedApi
