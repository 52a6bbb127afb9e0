import Mathlib.Data.List.Nodup
import VersionedApi.Proofs.Outcome
import VersionedApi.Proofs.Text.Cut
import VersionedApi.Representation.Read

/-!
# The names of a representation's fields

* `Representation.read_ok` : the fields of a representation are those of its members, there are
  some, and none is misplaced;
* `Representation.nodup_names` : no two of them have the same name;
* `Representation.parent?_eq_some_iff` : the parent of a name is the name without its last part;
* `Field.Nestable` : the types under which fields may be nested;
  `Representation.nestable_of_next` : a field has such a type if another name extends its name by
  one part.
-/

namespace VersionedApi

open VersionedApi.Text VersionedApi.Docblock

/-- An object, or an array whose elements are objects or not told. -/
def Field.Nestable (f : Field) : Prop :=
  f.typeName = "object" ∨ f.typeName = "array" ∧
    ∀ sub, f.subtype = some sub → sub = "object" ∨ sub.toList.head? = some '\\'

theorem Field.isNestable_iff {f : Field} : f.isNestable = true ↔ f.Nestable := by
  unfold isNestable Nestable
  split
  · rename_i htype
    simp [htype]
  · rename_i htype
    rw [htype]
    cases f.subtype <;> simp
  · rename_i hobject harray
    simp only [Bool.false_eq_true, false_iff, not_or, not_and]
    exact ⟨hobject, fun h => absurd h harray⟩

namespace Representation

variable {registry : Registry} {docblockOf : String → String → Option String}
  {source : RepresentationSource} {r : Representation}

/-! ## Unique names -/

theorem duplicate?_eq_none_iff {seen : List String} {fields : List DataField} :
    duplicate? seen fields = none ↔
      (fields.map DataField.name).Nodup ∧ ∀ f ∈ fields, f.name ∉ seen := by
  induction fields generalizing seen with
  | nil => simp [duplicate?]
  | cons f fields ih =>
    rw [duplicate?]
    by_cases hseen : f.name ∈ seen
    · simp [hseen]
    · rw [if_neg (by simpa using hseen), ih, List.map_cons, List.nodup_cons, List.mem_map,
        List.forall_mem_cons]
      simp only [List.mem_cons, not_or]
      constructor
      · rintro ⟨hnodup, hnew⟩
        refine ⟨⟨?_, hnodup⟩, hseen, fun g hg => (hnew g hg).2⟩
        rintro ⟨g, hg, hname⟩
        exact (hnew g hg).1 hname
      · rintro ⟨⟨hfresh, hnodup⟩, -, hnew⟩
        exact ⟨hnodup, fun g hg => ⟨fun hname => hfresh ⟨g, hg, hname⟩, hnew g hg⟩⟩

theorem nodup_of_readMembers {owner : String} {seen : List String} {members : List MemberSource}
    {fields : List DataField}
    (h : readMembers registry docblockOf owner seen members = .ok fields) :
    (fields.map DataField.name).Nodup ∧ ∀ f ∈ fields, f.name ∉ seen := by
  induction members generalizing seen fields with
  | nil =>
    cases h
    simp
  | cons m members ih =>
    unfold readMembers at h
    obtain ⟨own, -, h⟩ := bind_eq_ok.1 h
    split at h
    · cases h
    · rename_i hown
      obtain ⟨rest, hrest, h⟩ := bind_eq_ok.1 h
      cases h
      obtain ⟨hnodup, hnew⟩ := duplicate?_eq_none_iff.1 hown
      obtain ⟨hnodup', hnew'⟩ := ih hrest
      rw [List.map_append, List.nodup_append]
      refine ⟨⟨hnodup, hnodup', ?_⟩, ?_⟩
      · -- the names of the members read so far are among those not to be used again
        rintro name hname _ hname' rfl
        obtain ⟨f, hf, hfname⟩ := List.mem_map.1 hname'
        exact hnew' f hf (List.mem_append_left seen (by rwa [hfname]))
      · intro f hf
        rcases List.mem_append.1 hf with hf | hf
        · exact hnew f hf
        · exact fun hmem => hnew' f hf (List.mem_append_right _ hmem)

theorem read_ok (h : Representation.read registry docblockOf source = .ok r) :
    readMembers registry docblockOf source.owner [] source.members = .ok r.fields ∧
      r.fields ≠ [] ∧ (∀ f ∈ r.fields, misplaced? r.fields f = none) ∧
      r.owner = source.owner := by
  unfold Representation.read at h
  dsimp only at h
  split at h
  · cases h
  · obtain ⟨directives, -, h⟩ := bind_eq_ok.1 h
    obtain ⟨heading, -, h⟩ := bind_eq_ok.1 h
    split at h
    · cases h
    · obtain ⟨fields, hfields, h⟩ := bind_eq_ok.1 h
      split at h
      · cases h
      · rename_i hne
        split at h
        · cases h
        · rename_i hplaced
          cases h
          exact ⟨hfields, by simpa using hne, List.findSome?_eq_none_iff.1 hplaced, rfl⟩

theorem nodup_names (h : Representation.read registry docblockOf source = .ok r) :
    (r.fields.map DataField.name).Nodup := (nodup_of_readMembers (read_ok h).1).1

/-! ## Nested names -/

theorem parent?_eq_some_iff {name parent : String} :
    parent? name = some parent ↔ ∃ part, dotted name = dotted parent ++ [part] := by
  obtain ⟨init, last, hsplit⟩ : ∃ init last, pieces (· == '.') name.toList = init ++ [last] :=
    ⟨_, _, (List.dropLast_append_getLast (pieces_ne_nil _ _)).symm⟩
  have hname : dotted name = init.map String.ofList ++ [String.ofList last] := by
    rw [dotted, hsplit, List.map_append]
    rfl
  have hiff : (∃ part, dotted name = dotted parent ++ [part]) ↔
      dotted parent = init.map String.ofList := by
    rw [hname]
    constructor
    · rintro ⟨part, heq⟩
      exact (List.append_inj_left' heq rfl).symm
    · intro heq
      exact ⟨_, by rw [heq]⟩
  rw [hiff]
  unfold parent?
  rw [hsplit, List.dropLast_concat]
  cases init with
  | nil => simp [dotted_ne_nil]
  | cons first rest =>
    have hdots : ∀ piece ∈ first :: rest, ∀ c ∈ piece, (c == '.') = false := by
      intro piece hpiece
      have hmem : piece ∈ pieces (· == '.') name.toList := by
        rw [hsplit]
        exact List.mem_append_left _ hpiece
      exact not_of_mem_pieces hmem
    rw [← dotted_joinWith (List.cons_ne_nil first rest) hdots, dotted_inj, Option.some.injEq,
      eq_comm]

theorem find?_name (h : (r.fields.map DataField.name).Nodup) {f : DataField} (hf : f ∈ r.fields) :
    r.fields.find? (·.name == f.name) = some f := by
  cases hfind : r.fields.find? (·.name == f.name) with
  | none => simpa using List.find?_eq_none.1 hfind f hf
  | some g =>
    have hname : g.name = f.name := by simpa using List.find?_some hfind
    rw [List.inj_on_of_nodup_map h (List.mem_of_find?_eq_some hfind) hf hname]

/-- A field can hold others if the name of one extends its name by one part. -/
theorem nestable_of_next (h : Representation.read registry docblockOf source = .ok r)
    {f g : DataField} (hf : f ∈ r.fields) (hg : g ∈ r.fields) {part : String}
    (hnext : dotted g.name = dotted f.name ++ [part]) : f.field.Nestable := by
  have hplaced := (read_ok h).2.2.1 g hg
  unfold misplaced? at hplaced
  rw [parent?_eq_some_iff.2 ⟨part, hnext⟩, Option.bind_eq_bind, Option.bind_some,
    find?_name (nodup_names h) hf, Option.bind_eq_bind, Option.bind_some] at hplaced
  split at hplaced
  · rename_i hnestable
    exact Field.isNestable_iff.1 hnestable
  · cases hplaced

end Representation

end VersionedApi
