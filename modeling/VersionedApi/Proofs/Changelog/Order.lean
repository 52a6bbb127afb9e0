import Mathlib.Data.List.Lex
import VersionedApi.Changelog.Index
import VersionedApi.Proofs.Version.Dotted

/-!
# The order of a changelog

* `Definition.compares`, `Part.compares`, `Subject.compares` : these are in the alphabetical order of
  their names;
* `Entry.Precedes` : the text of its version comes later, or it is the same and the other keys are
  earlier in alphabetical order, from the outermost to the innermost;
* `Key` : where a change is listed; `Key.Before` : the newer version first, and within a version the
  names in alphabetical order. It is a strict total order, and entries of versions that are not
  negative are in it (`Key.Before.precedes`).
-/

namespace VersionedApi

/-! ## Names -/

instance {o : Ordering} {lt eq gt : Prop} [Decidable lt] [Decidable eq] [Decidable gt] :
    Decidable (Says o lt eq gt) :=
  match o with
  | .lt => inferInstanceAs (Decidable lt)
  | .eq => inferInstanceAs (Decidable eq)
  | .gt => inferInstanceAs (Decidable gt)

theorem Definition.key_inj {d e : Definition} (h : d.key = e.key) : d = e := by
  revert h
  cases d <;> cases e <;> decide

theorem Part.key_inj {p q : Part} (h : p.key = q.key) : p = q := by
  revert h
  cases p <;> cases q <;> decide

theorem Subject.key_inj {s t : Subject} (h : s.key = t.key) : s = t := by
  revert h
  cases s <;> cases t <;> decide

theorem Definition.compares : Compares (fun d e : Definition => d.key < e.key) compare := by
  refine ⟨fun d e => ?_, fun d => lt_irrefl d.key, fun hde hef => lt_trans hde hef⟩
  unfold Agrees
  cases d <;> cases e <;> decide

theorem Part.compares : Compares (fun p q : Part => p.key < q.key) compare := by
  refine ⟨fun p q => ?_, fun p => lt_irrefl p.key, fun hpq hqr => lt_trans hpq hqr⟩
  unfold Agrees
  cases p <;> cases q <;> decide

theorem Subject.compares : Compares (fun s t : Subject => s.key < t.key) compare := by
  refine ⟨fun s t => ?_, fun s => lt_irrefl s.key, fun hst htu => lt_trans hst htu⟩
  unfold Agrees
  cases s <;> cases t <;> decide

/-! ## Entries -/

namespace Entry

/-- The keys behind the version, from the outermost to the innermost. -/
def path (e : Entry) : List String :=
  [e.definition.key, e.part.key, e.group, e.owner, e.subject.key, e.hash]

/-- The entry is listed earlier. -/
def Precedes (d e : Entry) : Prop :=
  Version.Earlier e.version d.version ∨ d.version = e.version ∧ d.path < e.path

theorem Precedes.irrefl (e : Entry) : ¬ e.Precedes e := by
  rintro (h | ⟨-, h⟩)
  · exact Version.Earlier.irrefl _ h
  · exact lt_irrefl _ h

theorem Precedes.trans {c d e : Entry} (hcd : c.Precedes d) (hde : d.Precedes e) :
    c.Precedes e := by
  rcases hcd with hcd | ⟨ecd, hcd⟩
  · rcases hde with hde | ⟨ede, -⟩
    · exact Or.inl (hde.trans hcd)
    · exact Or.inl (ede ▸ hcd)
  · rcases hde with hde | ⟨ede, hde⟩
    · exact Or.inl (ecd ▸ hde)
    · exact Or.inr ⟨ecd.trans ede, lt_trans hcd hde⟩

end Entry

instance : Std.Irrefl Entry.Precedes := ⟨Entry.Precedes.irrefl⟩

instance : Std.Antisymm Entry.Precedes :=
  ⟨fun d _ hde hed => absurd (hde.trans hed) (Entry.Precedes.irrefl d)⟩

/-! ## Keys -/

structure Key where
  version : Version.Number
  definition : Definition
  part : Part
  group : String
  owner : String
  subject : Subject
  hash : String
deriving DecidableEq

def Change.key (c : Change) : Key :=
  { version := c.version
    definition := c.definition
    part := c.subject.part
    group := c.group
    owner := c.owner
    subject := c.subject
    hash := c.hash }

theorem Change.Same.key_eq {c d : Change} (h : c.Same d) (hhash : c.hash = d.hash) :
    c.key = d.key := by
  simp only [Same, plain, mk.injEq] at h
  obtain ⟨hversion, hdefinition, hsubject, hgroup, howner, -, -⟩ := h
  simp only [key, Key.mk.injEq]
  exact ⟨hversion, hdefinition, congrArg Subject.part hsubject, hgroup, howner, hsubject, hhash⟩

namespace Key

/-- The entry with some changes at this place. -/
def entry (k : Key) (changes : List Change) : Entry :=
  { version := k.version.text
    definition := k.definition
    part := k.part
    group := k.group
    owner := k.owner
    subject := k.subject
    hash := k.hash
    changes }

def path (k : Key) : List String :=
  [k.definition.key, k.part.key, k.group, k.owner, k.subject.key, k.hash]

/-- The key is listed earlier: its version is newer, or it is the same and the names are earlier in
alphabetical order. -/
def Before (k l : Key) : Prop :=
  l.version < k.version ∨ k.version = l.version ∧ k.path < l.path

instance (k l : Key) : Decidable (k.Before l) :=
  inferInstanceAs (Decidable (l.version < k.version ∨ k.version = l.version ∧ k.path < l.path))

theorem eq_of_path {k l : Key} (hversion : k.version = l.version) (hpath : k.path = l.path) :
    k = l := by
  simp only [path, List.cons.injEq, and_true] at hpath
  obtain ⟨hdefinition, hpart, hgroup, howner, hsubject, hhash⟩ := hpath
  cases k
  cases l
  simp only [Key.mk.injEq]
  exact ⟨hversion, Definition.key_inj hdefinition, Part.key_inj hpart, hgroup, howner,
    Subject.key_inj hsubject, hhash⟩

theorem Before.irrefl (k : Key) : ¬ k.Before k := by
  rintro (h | ⟨-, h⟩)
  · exact lt_irrefl _ h
  · exact lt_irrefl _ h

theorem Before.trans {k l m : Key} (hkl : k.Before l) (hlm : l.Before m) : k.Before m := by
  rcases hkl with hkl | ⟨ekl, hkl⟩
  · rcases hlm with hlm | ⟨elm, -⟩
    · exact Or.inl (lt_trans hlm hkl)
    · exact Or.inl (elm ▸ hkl)
  · rcases hlm with hlm | ⟨elm, hlm⟩
    · exact Or.inl (ekl ▸ hlm)
    · exact Or.inr ⟨ekl.trans elm, lt_trans hkl hlm⟩

theorem Before.asymm {k l : Key} (h : k.Before l) : ¬ l.Before k :=
  fun h' => Before.irrefl k (h.trans h')

theorem Before.trichotomy (k l : Key) : k.Before l ∨ k = l ∨ l.Before k := by
  rcases lt_trichotomy l.version k.version with hlt | hversion | hgt
  · exact Or.inl (Or.inl hlt)
  · rcases lt_trichotomy k.path l.path with hlt | hpath | hgt
    · exact Or.inl (Or.inr ⟨hversion.symm, hlt⟩)
    · exact Or.inr (Or.inl (eq_of_path hversion.symm hpath))
    · exact Or.inr (Or.inr (Or.inr ⟨hversion, hgt⟩))
  · exact Or.inr (Or.inr (Or.inl hgt))

theorem not_before_trans {k l m : Key} (hkl : ¬ l.Before k) (hlm : ¬ m.Before l) :
    ¬ m.Before k := by
  intro hmk
  rcases Before.trichotomy k l with h | rfl | h
  · exact hlm (hmk.trans h)
  · exact hlm hmk
  · exact hkl h

/-- Entries of versions that are not negative are in the order of their keys. -/
theorem Before.precedes {k l : Key} (h : k.Before l) (hk : 0 ≤ k.version.tenths)
    (hl : 0 ≤ l.version.tenths) (cs ds : List Change) : (k.entry cs).Precedes (l.entry ds) := by
  rcases h with hlt | ⟨heq, hpath⟩
  · exact Or.inl ((Version.earlier_text hl hk).2 hlt)
  · exact Or.inr ⟨congrArg Version.Number.text heq, hpath⟩

end Key

end VersionedApi
