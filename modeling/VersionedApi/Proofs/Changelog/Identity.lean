import VersionedApi.Proofs.Changelog.Order
import VersionedApi.Proofs.Json.Compact

/-!
# The same change

A change is hashed by the canonical text of what is changed (`Change.hashedText`).

* `Change.canonical_matter_eq_iff` : what is changed has one canonical form exactly if definition and
  subject are the same and the payloads are alike;
* `Change.hashedText_eq_iff` : the canonical text tells the same, if no payload has a double in it;
* `Change.hash_eq_iff_same` : so do the hashes, unless the digests of two different texts collide.
-/

namespace VersionedApi

open VersionedApi.Json

/-- Two different texts have the same digest. -/
def Digest.Collide (s t : String) : Prop := s ≠ t ∧ sha256 s = sha256 t

namespace Change

def hashedText (c : Change) : String := c.matter.canonical.compact

theorem exact_matter {c : Change} (h : c.payload.Exact) : c.matter.Exact := by
  refine .object fun e he => ?_
  simp only [List.mem_cons, List.not_mem_nil, or_false] at he
  rcases he with rfl | rfl | rfl
  · exact .string _
  · exact .string _
  · exact h

theorem canonical_matter_eq_iff {c d : Change} :
    c.matter.canonical = d.matter.canonical ↔
      c.definition = d.definition ∧ c.subject = d.subject ∧ c.payload.Alike d.payload := by
  constructor
  · intro h
    have hkeys := Value.canonical_object_eq_iff.1 h
    have hsubject : c.subject.key = d.subject.key :=
      Value.string.inj (Option.some.inj (hkeys "change_type"))
    have hdefinition : c.definition.key = d.definition.key :=
      Value.string.inj (Option.some.inj (hkeys "definition"))
    have hpayload : c.payload.canonical = d.payload.canonical :=
      Option.some.inj (hkeys "payload")
    exact ⟨Definition.key_inj hdefinition, Subject.key_inj hsubject,
      Value.canonical_eq_iff.1 hpayload⟩
  · rintro ⟨hdefinition, hsubject, hpayload⟩
    simp only [matter, Value.canonical, Value.canonicalEntries, hdefinition, hsubject,
      hpayload.canonical_eq]

theorem hashedText_eq_iff {c d : Change} (hc : c.payload.Exact) (hd : d.payload.Exact) :
    c.hashedText = d.hashedText ↔
      c.definition = d.definition ∧ c.subject = d.subject ∧ c.payload.Alike d.payload := by
  rw [← canonical_matter_eq_iff]
  constructor
  · exact Value.compact_inj (exact_matter hc).canonical (exact_matter hd).canonical
  · intro h
    rw [hashedText, h, hashedText]

/-- Two changes without doubles in their payloads hash alike exactly if they are the same change: of
the same definition and subject, with payloads that are equal up to the order of entries. Version,
group, class and path do not count. The digest must not collide on the texts of the two. -/
theorem hash_eq_iff_same {c d : Change} (hc : c.payload.Exact) (hd : d.payload.Exact)
    (hdigest : ¬ Digest.Collide c.hashedText d.hashedText) :
    c.hash = d.hash ↔
      c.definition = d.definition ∧ c.subject = d.subject ∧ c.payload.Alike d.payload := by
  rw [← hashedText_eq_iff hc hd]
  constructor
  · intro hhash
    by_contra hne
    exact hdigest ⟨hne, hhash⟩
  · intro htext
    exact congrArg Digest.sha256 htext

namespace Screening

def entries (label : String) : List (String × Value) :=
  [("label", .string label), ("at", .array [.ofInt (-1), .object []])]

def added : Change :=
  { version := .one
    definition := .added
    subject := .action
    group := "Movies"
    owner := "\\Movies"
    path := some "/movies"
    payload := .object (entries "\"10\"\n") }

/-- The same for films in version 2.1, with its entries in another order. -/
def addedToFilms : Change :=
  { added with
    version := ⟨21, by decide, by decide⟩
    group := "Films"
    owner := "\\Films"
    path := some "/films"
    payload := .object (entries "\"10\"\n").reverse }

/-- An action with a backslash and a letter where the first one has a line feed. -/
def reworded : Change := { added with payload := .object (entries "\"10\"\\n") }

theorem exact_of_mem {label : String} {e : String × Value} (he : e ∈ entries label) :
    e.2.Exact := by
  simp only [entries, List.mem_cons, List.not_mem_nil, or_false] at he
  rcases he with rfl | rfl
  · exact .string _
  · refine .array fun v hv => ?_
    simp only [List.mem_cons, List.not_mem_nil, or_false] at hv
    rcases hv with rfl | rfl
    · exact .integer (-1)
    · exact .object (by simp)

end Screening

/-- The action of movies and that of films hash alike, the reworded one does not. -/
theorem hash_eq_iff_same_screening :
    ¬ Digest.Collide Screening.added.hashedText Screening.addedToFilms.hashedText ∧
      Screening.added.hash = Screening.addedToFilms.hash ∧
      ¬ Digest.Collide Screening.added.hashedText Screening.reworded.hashedText ∧
      Screening.added.hash ≠ Screening.reworded.hash := by
  have hadded : Screening.added.payload.Exact := .object fun _ => Screening.exact_of_mem
  have hfilms : Screening.addedToFilms.payload.Exact :=
    .object fun _ he => Screening.exact_of_mem (List.mem_reverse.1 he)
  have hreworded : Screening.reworded.payload.Exact := .object fun _ => Screening.exact_of_mem
  have halike : Screening.added.payload.Alike Screening.addedToFilms.payload :=
    Value.canonical_eq_iff.1 (by decide +kernel)
  have hdiffer : ¬ Screening.added.payload.Alike Screening.reworded.payload := by
    rw [← Value.canonical_eq_iff]
    decide +kernel
  have hsame : ¬ Digest.Collide Screening.added.hashedText Screening.addedToFilms.hashedText :=
    fun h => h.1 ((hashedText_eq_iff hadded hfilms).2 ⟨rfl, rfl, halike⟩)
  have hdigest : Digest.sha256 Screening.added.hashedText ≠
      Digest.sha256 Screening.reworded.hashedText := by
    decide +kernel
  have hapart : ¬ Digest.Collide Screening.added.hashedText Screening.reworded.hashedText :=
    fun h => hdigest h.2
  refine ⟨hsame, (hash_eq_iff_same hadded hfilms hsame).2 ⟨rfl, rfl, halike⟩, hapart, fun h => ?_⟩
  exact hdiffer ((hash_eq_iff_same hadded hreworded hapart).1 h).2.2

end Change

end VersionedApi
