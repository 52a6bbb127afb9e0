import VersionedApi.Proofs.Representation.Reuse

/-!
# Chains of references

* `Hop` : a reference in one docblock leads to another; `Chain` : so many hops, one after the other;
* `Site.Readable`, `Site.Resolved` : the docblock can be read, and its references lead somewhere;
* `exists_fieldsOf_iff` : the fields of a docblock are found over a number of hops exactly if every
  docblock that is reached is readable and resolved, and no chain is longer than that;
* `fieldsOf_bounded` : so it is with the eight hops that are allowed, and a cycle of references is
  always an error.
-/

namespace VersionedApi

section Chains
variable (registry : Registry) (docblockOf : String → String → Option String)

/-- One of the references in the docblock at `s` leads to `t`. -/
def Hop (s t : Site) : Prop :=
  ∃ ds, s.directives registry = .ok ds ∧
    ∃ d ∈ ds, ∃ r, d.content = .see r ∧ r.site? docblockOf = some t

/-- So many references, one after the other, lead from one docblock to another. -/
inductive Chain : Nat → Site → Site → Prop
  | nil (s : Site) : Chain 0 s s
  | cons {n : Nat} {s t u : Site} (hop : Hop registry docblockOf s t) (chain : Chain n t u) :
      Chain (n + 1) s u

def Site.Readable (s : Site) : Prop := ∃ ds, s.directives registry = .ok ds

/-- Every reference in the docblock leads to another one. -/
def Site.Resolved (s : Site) : Prop :=
  ∀ ds, s.directives registry = .ok ds →
    ∀ d ∈ ds, ∀ r, d.content = .see r → ∃ t, r.site? docblockOf = some t

end Chains

section Resolution
variable {registry : Registry} {docblockOf : String → String → Option String} {hops : Nat}
variable {s t u : Site}

theorem Chain.trans {n m : Nat} (h : Chain registry docblockOf n s t)
    (h' : Chain registry docblockOf m t u) : Chain registry docblockOf (n + m) s u := by
  induction h with
  | nil => rwa [Nat.zero_add]
  | cons hop _ ih =>
    rw [Nat.add_right_comm]
    exact .cons hop (ih h')

theorem forall_chain_iff {P : Nat → Site → Prop} :
    (∀ n t, Chain registry docblockOf n s t → P n t) ↔
      P 0 s ∧ ∀ t, Hop registry docblockOf s t →
        ∀ n u, Chain registry docblockOf n t u → P (n + 1) u := by
  constructor
  · intro h
    exact ⟨h 0 s (.nil s), fun t hop n u chain => h (n + 1) u (.cons hop chain)⟩
  · rintro ⟨hstart, hbehind⟩ n t chain
    cases chain with
    | nil => exact hstart
    | cons hop chain => exact hbehind _ hop _ _ chain

/-- A cycle can be gone round any number of times. -/
theorem Chain.repeat {m : Nat} (h : Chain registry docblockOf m t t) (k : Nat) :
    Chain registry docblockOf (k * m) t t := by
  induction k with
  | zero =>
    rw [Nat.zero_mul]
    exact .nil t
  | succ k ih =>
    rw [Nat.succ_mul]
    exact ih.trans h

theorem exists_documents_iff {d : Directive} :
    (∃ part, Documents registry docblockOf hops d part) ↔
      ∀ r, d.content = .see r → ∃ n t nested, hops = n + 1 ∧ r.site? docblockOf = some t ∧
        fieldsOf registry docblockOf n t.context t.docblock = .ok nested := by
  constructor
  · rintro ⟨part, h⟩ r hr
    cases h with
    | field h => rw [hr] at h; cases h
    | reference h ht hnested =>
      rw [hr] at h
      cases h
      exact ⟨_, _, _, rfl, ht, hnested⟩
    | other _ hsee => exact absurd hr (hsee r)
  · intro h
    cases hd : d.content with
    | data field => exact ⟨_, .field hd⟩
    | see r =>
      obtain ⟨n, t, nested, rfl, ht, hnested⟩ := h r hd
      exact ⟨_, .reference hd ht hnested⟩
    | label | description | uri | uriSegment | param | returns | throws | contentType | scope
    | vendorTag | minVersion =>
      exact ⟨[], .other (by rw [hd]; rintro _ ⟨⟩) (by rw [hd]; rintro _ ⟨⟩)⟩

theorem exists_fieldsOf_iff_documents :
    (∃ fields, fieldsOf registry docblockOf hops s.context s.docblock = .ok fields) ↔
      ∃ ds, s.directives registry = .ok ds ∧
        ∀ d ∈ ds, ∃ part, Documents registry docblockOf hops d part := by
  constructor
  · rintro ⟨fields, h⟩
    obtain ⟨ds, parts, hds, hparts, -⟩ := fieldsOf_eq_ok_iff.1 h
    exact ⟨ds, hds, exists_forall₂_iff.1 ⟨parts, hparts⟩⟩
  · rintro ⟨ds, hds, h⟩
    obtain ⟨parts, hparts⟩ := exists_forall₂_iff.2 h
    exact ⟨_, fieldsOf_eq_ok_iff.2 ⟨ds, parts, hds, hparts, rfl⟩⟩

theorem exists_fieldsOf_iff_hop :
    (∃ fields, fieldsOf registry docblockOf hops s.context s.docblock = .ok fields) ↔
      (s.Readable registry ∧ s.Resolved registry docblockOf) ∧
        ∀ t, Hop registry docblockOf s t → ∃ n fields, hops = n + 1 ∧
          fieldsOf registry docblockOf n t.context t.docblock = .ok fields := by
  simp only [exists_fieldsOf_iff_documents, exists_documents_iff]
  constructor
  · rintro ⟨ds, hds, h⟩
    refine ⟨⟨⟨ds, hds⟩, fun ds' hds' d hd r hr => ?_⟩, ?_⟩
    · rw [hds] at hds'
      cases hds'
      obtain ⟨n, t, nested, -, ht, -⟩ := h d hd r hr
      exact ⟨t, ht⟩
    · rintro t ⟨ds', hds', d, hd, r, hr, ht⟩
      rw [hds] at hds'
      cases hds'
      obtain ⟨n, t', nested, hn, ht', hnested⟩ := h d hd r hr
      rw [ht] at ht'
      cases ht'
      exact ⟨n, nested, hn, hnested⟩
  · rintro ⟨⟨⟨ds, hds⟩, hresolved⟩, h⟩
    refine ⟨ds, hds, fun d hd r hr => ?_⟩
    obtain ⟨t, ht⟩ := hresolved ds hds d hd r hr
    obtain ⟨n, nested, hn, hnested⟩ := h t ⟨ds, hds, d, hd, r, hr, ht⟩
    exact ⟨n, t, nested, hn, ht, hnested⟩

/-- The fields of a docblock are found over `hops` hops exactly if all that is reached is in order
and no chain is longer. -/
theorem exists_fieldsOf_iff :
    (∃ fields, fieldsOf registry docblockOf hops s.context s.docblock = .ok fields) ↔
      (∀ n t, Chain registry docblockOf n s t →
        t.Readable registry ∧ t.Resolved registry docblockOf) ∧
      ∀ n t, Chain registry docblockOf n s t → n ≤ hops := by
  induction hops generalizing s with
  | zero =>
    rw [exists_fieldsOf_iff_hop, forall_chain_iff, @forall_chain_iff _ _ _ fun n _ => n ≤ 0]
    constructor
    · rintro ⟨hs, hnone⟩
      have hno : ∀ t, ¬ Hop registry docblockOf s t := by
        intro t hop
        obtain ⟨n, -, hn, -⟩ := hnone t hop
        cases hn
      exact ⟨⟨hs, fun t hop => absurd hop (hno t)⟩, Nat.le_refl 0, fun t hop => absurd hop (hno t)⟩
    · rintro ⟨⟨hs, -⟩, -, hbound⟩
      refine ⟨hs, fun t hop => ?_⟩
      exact absurd (hbound t hop 0 t (.nil t)) (Nat.not_succ_le_zero 0)
  | succ hops ih =>
    rw [exists_fieldsOf_iff_hop, forall_chain_iff, @forall_chain_iff _ _ _ fun n _ => n ≤ hops + 1]
    constructor
    · rintro ⟨hs, hnext⟩
      have hbehind : ∀ t, Hop registry docblockOf s t → ∃ fields,
          fieldsOf registry docblockOf hops t.context t.docblock = .ok fields := by
        intro t hop
        obtain ⟨n, fields, hn, hfields⟩ := hnext t hop
        cases hn
        exact ⟨fields, hfields⟩
      exact ⟨⟨hs, fun t hop => (ih.1 (hbehind t hop)).1⟩, Nat.zero_le _, fun t hop n u chain =>
        Nat.succ_le_succ ((ih.1 (hbehind t hop)).2 n u chain)⟩
    · rintro ⟨⟨hs, hall⟩, -, hbound⟩
      refine ⟨hs, fun t hop => ?_⟩
      obtain ⟨fields, hfields⟩ := ih.2 ⟨hall t hop, fun n u chain =>
        Nat.le_of_succ_le_succ (hbound t hop n u chain)⟩
      exact ⟨hops, fields, rfl, hfields⟩

/-- Behind a cycle there is no end of the hops, so that the fields are never found. -/
theorem fieldsOf_cycle {n m : Nat} (hs : Chain registry docblockOf n s t) (hm : 0 < m)
    (ht : Chain registry docblockOf m t t) :
    ∃ e, fieldsOf registry docblockOf hops s.context s.docblock = .error e := by
  cases h : fieldsOf registry docblockOf hops s.context s.docblock with
  | error e => exact ⟨e, rfl⟩
  | ok fields =>
    have hbound := (exists_fieldsOf_iff.1 ⟨fields, h⟩).2 _ t (hs.trans (ht.repeat (hops + 1)))
    have hlong : hops + 1 ≤ (hops + 1) * m := Nat.le_mul_of_pos_right _ hm
    omega

end Resolution

/-- The fields of a docblock are found exactly if every docblock that its references reach can be
read, every reference that is met leads to a docblock, and no chain of references has more than
eight hops. If a cycle of references is reached, there is an error. -/
theorem fieldsOf_bounded (registry : Registry) (docblockOf : String → String → Option String)
    (context : Context) (docblock : String) :
    ((∃ fields, fieldsOf registry docblockOf maxHops context docblock = .ok fields) ↔
      (∀ n t, Chain registry docblockOf n ⟨context, docblock⟩ t →
        t.Readable registry ∧ t.Resolved registry docblockOf) ∧
      ∀ n t, Chain registry docblockOf n ⟨context, docblock⟩ t → n ≤ 8) ∧
    ∀ n m t, Chain registry docblockOf n ⟨context, docblock⟩ t → 0 < m →
      Chain registry docblockOf m t t →
        ∃ e, fieldsOf registry docblockOf maxHops context docblock = .error e :=
  ⟨@exists_fieldsOf_iff registry docblockOf maxHops ⟨context, docblock⟩,
    fun _ _ _ hs hm ht => fieldsOf_cycle hs hm ht⟩

/-! ## A small documentation

A film refers to its credits and these to a person; a sequel refers to itself. -/

namespace Films

def credits : String :=
  "/**\n * @api-vendortag beta\n * @api-version >=1.1\n * @api-see Credit::getPerson person\n */"

def person : String :=
  "/**\n * @api-vendortag staff\n * @api-data role (string) - Role\n" ++
  " * @api-see Person::getName who\n */"

def sequel : String := "/** @api-see Film::getSequel */"

def docblockOf : String → String → Option String
  | "Film", "getSequel" => some sequel
  | "Credit", "getPerson" => some person
  | "Person", "getName" => some "/** @api-data name (string, required) - Name */"
  | _, _ => none

def loop : Site := ⟨.ofMethod "\\Film" "getSequel" sequel, sequel⟩

theorem directives_loop :
    loop.directives {} = .ok [⟨.see ⟨"Film", "getSequel", none⟩, { context := loop.context }⟩] :=
  toOption_eq_some.1 (by decide +kernel)

theorem hop_loop : Hop {} docblockOf loop loop :=
  ⟨_, directives_loop, _, List.mem_singleton_self _, _, rfl, by decide +kernel⟩

end Films

/-- The sequel of a sequel is itself, over one hop, and this is an error. -/
theorem fieldsOf_bounded_films :
    Chain {} Films.docblockOf 1 Films.loop Films.loop ∧
      ∃ e, fieldsOf {} Films.docblockOf maxHops Films.loop.context Films.sequel = .error e := by
  have hcycle := Chain.cons Films.hop_loop (.nil Films.loop)
  exact ⟨hcycle, (fieldsOf_bounded {} Films.docblockOf Films.loop.context Films.sequel).2 0 1
    Films.loop (.nil Films.loop) Nat.one_pos hcycle⟩

end VersionedApi
