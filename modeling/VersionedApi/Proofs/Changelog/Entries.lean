import VersionedApi.Proofs.Changelog.Record

/-!
# The entries of a changelog

* `mem_entriesOf`, `pairwise_entriesOf` : the entries of one version are what its index lists, in
  alphabetical order of their keys;
* `Builder.Proper.pairwise_versions` : the versions of a changelog that is built have the later text
  first;
* `Builder.Proper.mem_entries`, `Builder.Proper.pairwise_entries` : so its entries are what the index
  of the builder lists, in order;
* `Builder.mem_entries_after` : after a sequence of calls these are the groups of the accepted changes.
-/

namespace VersionedApi.Changelog

open SortedMap

/-! ## One version -/

/-- The entries of one definition in a version. -/
def entriesUnder (version : String) (definition : Definition) (parts : ByPart) : List Entry :=
  flatMap parts fun part groups =>
    flatMap groups fun group owners =>
      flatMap owners fun owner subjects =>
        flatMap subjects fun subject hashes =>
          flatMap hashes fun hash changes =>
            [{ version, definition, part, group, owner, subject, hash, changes }]

def entriesOf (version : String) (changes : ByDefinition) : List Entry :=
  flatMap changes (entriesUnder version)

theorem entries_eq (log : Changelog) :
    log.entries = log.versions.flatMap fun v => entriesOf v.version v.changes := rfl

theorem mem_entriesOf {version : String} {changes : ByDefinition} (h : DefinitionsProper changes)
    {e : Entry} :
    e ∈ entriesOf version changes ↔ e.version = version ∧
      under (under (under (under (under (under changes e.definition) e.part) e.group) e.owner)
        e.subject) e.hash = e.changes ∧ e.changes ≠ [] := by
  have hparts (d : Definition) := h.inner_under .nil d
  have hgroups (d : Definition) (p : Part) := (hparts d).inner_under .nil p
  have howners (d : Definition) (p : Part) (g : String) := (hgroups d p).inner_under .nil g
  have hsubjects (d : Definition) (p : Part) (g o : String) := (howners d p g).inner_under .nil o
  have hhashes (d : Definition) (p : Part) (g o : String) (s : Subject) :=
    (hsubjects d p g o).inner_under .nil s
  constructor
  · intro he
    obtain ⟨d, he⟩ := (h.mem_flatMap Definition.compares fun _ => rfl).1 he
    obtain ⟨p, he⟩ := ((hparts d).mem_flatMap Part.compares fun _ => rfl).1 he
    obtain ⟨g, he⟩ := ((hgroups d p).mem_flatMap compares_lt fun _ => rfl).1 he
    obtain ⟨o, he⟩ := ((howners d p g).mem_flatMap compares_lt fun _ => rfl).1 he
    obtain ⟨s, he⟩ := ((hsubjects d p g o).mem_flatMap Subject.compares fun _ => rfl).1 he
    obtain ⟨x, hx, he⟩ := List.mem_flatMap.1 he
    rw [List.mem_singleton.1 he]
    exact ⟨rfl, (hhashes d p g o s).under_eq compares_lt hx, (hhashes d p g o s).full x hx⟩
  · rintro ⟨rfl, hlisted, hne⟩
    refine (h.mem_flatMap Definition.compares fun _ => rfl).2 ⟨e.definition, ?_⟩
    refine ((hparts _).mem_flatMap Part.compares fun _ => rfl).2 ⟨e.part, ?_⟩
    refine ((hgroups _ _).mem_flatMap compares_lt fun _ => rfl).2 ⟨e.group, ?_⟩
    refine ((howners _ _ _).mem_flatMap compares_lt fun _ => rfl).2 ⟨e.owner, ?_⟩
    refine ((hsubjects _ _ _ _).mem_flatMap Subject.compares fun _ => rfl).2 ⟨e.subject, ?_⟩
    refine List.mem_flatMap.2 ⟨(e.hash, e.changes), ?_, List.mem_singleton.2 rfl⟩
    exact ((hhashes _ _ _ _ _).mem_iff compares_lt).2 ⟨hlisted, hne⟩

theorem version_definition_of_mem {version : String} {definition : Definition} {parts : ByPart}
    {e : Entry} (he : e ∈ entriesUnder version definition parts) :
    e.version = version ∧ e.definition = definition := by
  simp only [entriesUnder, SortedMap.flatMap, List.mem_flatMap, List.mem_singleton] at he
  obtain ⟨_, _, _, _, _, _, _, _, _, _, rfl⟩ := he
  exact ⟨rfl, rfl⟩

theorem flatMap_ne_nil {κ β γ : Type} {before : κ → κ → Prop} {inner : List β → Prop}
    {m : List (κ × List β)} {f : κ → List β → List γ} (h : SortedMap.Proper before inner m)
    (hne : m ≠ []) (hf : ∀ k l, inner l → l ≠ [] → f k l ≠ []) : flatMap m f ≠ [] := by
  obtain ⟨e, he⟩ := List.exists_mem_of_ne_nil _ hne
  obtain ⟨x, hx⟩ := List.exists_mem_of_ne_nil _ (hf e.1 e.2 (h.inner e he) (h.full e he))
  exact List.ne_nil_of_mem (List.mem_flatMap.2 ⟨e, he, hx⟩)

theorem entriesUnder_ne_nil {version : String} {definition : Definition} {parts : ByPart}
    (h : PartsProper parts) (hne : parts ≠ []) : entriesUnder version definition parts ≠ [] := by
  refine flatMap_ne_nil h hne fun p groups hgroups hne => ?_
  refine flatMap_ne_nil hgroups hne fun g owners howners hne => ?_
  refine flatMap_ne_nil howners hne fun o subjects hsubjects hne => ?_
  refine flatMap_ne_nil hsubjects hne fun s hashes hhashes hne => ?_
  exact flatMap_ne_nil hhashes hne fun _ _ _ _ => List.cons_ne_nil _ _

theorem entriesOf_ne_nil {version : String} {changes : ByDefinition} (h : DefinitionsProper changes)
    (hne : changes ≠ []) : entriesOf version changes ≠ [] :=
  flatMap_ne_nil h hne fun _ _ hparts hne => entriesUnder_ne_nil hparts hne

/-- If what is made of each key has the name of the key and is in order behind it, the whole is in
order. -/
theorem pairwise_flatMap {κ β : Type} {name : κ → String} {inner : List β → Prop}
    {m : List (κ × List β)} {f : κ → List β → List Entry} {first : Entry → String}
    {rest : Entry → List String} (h : SortedMap.Proper (fun k l => name k < name l) inner m)
    (hfirst : ∀ k l, ∀ x ∈ f k l, first x = name k)
    (hrest : ∀ k l, inner l → (f k l).Pairwise fun x y => rest x < rest y) :
    (flatMap m f).Pairwise fun x y => first x :: rest x < first y :: rest y := by
  refine List.pairwise_flatMap.2 ⟨fun e he => ?_, h.sorted.imp fun {d e} hlt x hx y hy => ?_⟩
  · refine (hrest e.1 e.2 (h.inner e he)).imp_of_mem fun {x y} hx hy hlt => ?_
    rw [hfirst _ _ x hx, hfirst _ _ y hy]
    exact List.cons_lt_cons_iff.2 (Or.inr ⟨rfl, hlt⟩)
  · rw [hfirst _ _ x hx, hfirst _ _ y hy]
    exact List.cons_lt_cons_iff.2 (Or.inl hlt)

theorem pairwise_entriesOf {version : String} {changes : ByDefinition}
    (h : DefinitionsProper changes) :
    (entriesOf version changes).Pairwise fun x y => x.path < y.path := by
  unfold Entry.path entriesOf
  refine pairwise_flatMap h ?_ fun d parts hparts => ?_
  · intro d parts e he
    rw [(version_definition_of_mem he).2]
  refine pairwise_flatMap hparts ?_ fun p groups hgroups => ?_
  · simp only [SortedMap.flatMap, List.mem_flatMap, List.mem_singleton]
    rintro _ _ _ ⟨_, _, _, _, _, _, _, _, rfl⟩
    rfl
  refine pairwise_flatMap hgroups ?_ fun g owners howners => ?_
  · simp only [SortedMap.flatMap, List.mem_flatMap, List.mem_singleton]
    rintro _ _ _ ⟨_, _, _, _, _, _, rfl⟩
    rfl
  refine pairwise_flatMap howners ?_ fun o subjects hsubjects => ?_
  · simp only [SortedMap.flatMap, List.mem_flatMap, List.mem_singleton]
    rintro _ _ _ ⟨_, _, _, _, rfl⟩
    rfl
  refine pairwise_flatMap hsubjects ?_ fun s hashes hhashes => ?_
  · simp only [SortedMap.flatMap, List.mem_flatMap, List.mem_singleton]
    rintro _ _ _ ⟨_, _, rfl⟩
    rfl
  refine pairwise_flatMap hhashes ?_ fun hash changes _ => ?_
  · simp
  · exact List.pairwise_singleton _ _

/-! ## All versions -/

/-- All changes that are listed. -/
def changes (log : Changelog) : List Change := log.entries.flatMap Entry.changes

namespace Builder

variable {b : Builder}

theorem mem_versions {v : VersionChanges} :
    v ∈ b.build.versions ↔ (v.version, v.changes) ∈ b.index := by
  rw [build, List.mem_mergeSort, List.mem_map]
  constructor
  · rintro ⟨x, hx, rfl⟩
    exact hx
  · exact fun hv => ⟨_, hv, rfl⟩

theorem Proper.pairwise_versions (h : b.Proper) :
    b.build.versions.Pairwise fun v w => Version.Earlier w.version v.version := by
  have hne : b.build.versions.Pairwise fun v w => v.version ≠ w.version := by
    rw [build, (List.mergeSort_perm _ _).pairwise_iff Ne.symm, List.pairwise_map]
    exact h.sorted.imp fun hlt => ne_of_lt hlt
  have hsorted : b.build.versions.Pairwise
      fun v w => (Version.compareDotted w.version v.version).isLE = true := by
    unfold build
    refine List.pairwise_mergeSort (fun u v w huv hvw => ?_) (fun v w => ?_) _
    · exact Version.compares_earlier.isLE_trans hvw huv
    · exact Version.compares_earlier.isLE_total
  refine (hne.and hsorted).imp fun {v w} hvw => ?_
  exact (Version.compares_earlier.isLE_iff.1 hvw.2).resolve_right (Ne.symm hvw.1)

theorem Proper.exists_version_iff (h : b.Proper) {t : String} :
    (∃ v ∈ b.build.versions, v.version = t) ↔ ∃ e ∈ b.build.entries, e.version = t := by
  rw [entries_eq]
  constructor
  · rintro ⟨v, hv, rfl⟩
    have hindex := mem_versions.1 hv
    have hne : entriesOf v.version v.changes ≠ [] :=
      entriesOf_ne_nil (h.inner _ hindex) (h.full _ hindex)
    obtain ⟨e, he⟩ := List.exists_mem_of_ne_nil _ hne
    exact ⟨e, List.mem_flatMap.2 ⟨v, hv, he⟩, ((mem_entriesOf (h.inner _ hindex)).1 he).1⟩
  · rintro ⟨e, he, rfl⟩
    obtain ⟨v, hv, he⟩ := List.mem_flatMap.1 he
    exact ⟨v, hv, ((mem_entriesOf (h.inner _ (mem_versions.1 hv))).1 he).1.symm⟩

theorem Proper.mem_entries (h : b.Proper) {e : Entry} :
    e ∈ b.build.entries ↔ b.listedAt e = e.changes ∧ e.changes ≠ [] := by
  rw [entries_eq, List.mem_flatMap]
  constructor
  · rintro ⟨v, hv, he⟩
    have hindex := mem_versions.1 hv
    obtain ⟨hversion, hlisted, hne⟩ := (mem_entriesOf (h.inner _ hindex)).1 he
    rw [listedAt, hversion, SortedMap.Proper.under_eq compares_lt h hindex]
    exact ⟨hlisted, hne⟩
  · rintro ⟨hlisted, hne⟩
    have hmem : (e.version, SortedMap.under b.index e.version) ∈ b.index := by
      refine SortedMap.mem_of_under fun hnil => hne ?_
      rw [← hlisted, listedAt, hnil]
      rfl
    exact ⟨⟨e.version, _⟩, mem_versions.2 hmem,
      (mem_entriesOf (h.inner _ hmem)).2 ⟨rfl, hlisted, hne⟩⟩

/-- The entries are in the order of their paths, the later version first. -/
theorem Proper.pairwise_entries (h : b.Proper) : b.build.entries.Pairwise Entry.Precedes := by
  rw [entries_eq, List.pairwise_flatMap]
  have hversion : ∀ v ∈ b.build.versions, ∀ e ∈ entriesOf v.version v.changes,
      e.version = v.version :=
    fun v hv e he => ((mem_entriesOf (h.inner _ (mem_versions.1 hv))).1 he).1
  constructor
  · intro v hv
    refine (pairwise_entriesOf (h.inner _ (mem_versions.1 hv))).imp_of_mem fun hx hy hlt => ?_
    exact Or.inr ⟨(hversion v hv _ hx).trans (hversion v hv _ hy).symm, hlt⟩
  · refine h.pairwise_versions.imp_of_mem fun hv hw hearlier x hx y hy => Or.inl ?_
    rwa [hversion _ hv x hx, hversion _ hw y hy]

/-! ## Changes after a sequence of calls -/

variable {cs : List Change} {c : Change}

theorem mem_entries_after {e : Entry} : e ∈ (after cs).build.entries ↔
    ∃ k : Key, e = k.entry (group (accepted cs) k) ∧ group (accepted cs) k ≠ [] := by
  rw [(proper_after cs).mem_entries]
  constructor
  · rintro ⟨hlisted, hne⟩
    obtain ⟨c, hc⟩ := List.exists_mem_of_ne_nil _ hne
    rw [← hlisted] at hc
    have heq := (isAt_of_mem_listedAt hc).eq_entry
    rw [heq, listedAt_after_entry] at hlisted
    refine ⟨c.key, ?_, ?_⟩
    · rw [hlisted]
      exact heq
    · rw [hlisted]
      exact hne
  · rintro ⟨k, rfl, hne⟩
    exact ⟨listedAt_after_entry cs k _, hne⟩

theorem mem_changes_after : c ∈ (after cs).build.changes ↔ c ∈ group (accepted cs) c.key := by
  rw [changes, List.mem_flatMap]
  constructor
  · rintro ⟨e, he, hc⟩
    obtain ⟨k, rfl, -⟩ := mem_entries_after.1 he
    have hc : c ∈ group (accepted cs) k := hc
    rwa [(mem_of_mem_group hc).2]
  · intro hc
    exact ⟨_, mem_entries_after.2 ⟨c.key, rfl, List.ne_nil_of_mem hc⟩, hc⟩

theorem mem_accepted_of_mem_changes (hc : c ∈ (after cs).build.changes) : c ∈ accepted cs :=
  (mem_of_mem_group (mem_changes_after.1 hc)).1

/-- No accepted change is lost: it is listed, or one that is equal to it and has its key. -/
theorem exists_mem_changes (hc : c ∈ accepted cs) :
    ∃ d ∈ (after cs).build.changes, d.key = c.key ∧ d.Same c := by
  obtain ⟨d, hd, hsame⟩ := exists_same_mem_group hc
  have hkey := (mem_of_mem_group hd).2
  exact ⟨d, mem_changes_after.2 (hkey ▸ hd), hkey, hsame⟩

theorem exists_entry_iff (P : String → Definition → Prop) :
    (∃ e ∈ (after cs).build.entries, P e.version e.definition) ↔
      ∃ c ∈ (after cs).build.changes, P c.version.text c.definition := by
  constructor
  · rintro ⟨e, he, hP⟩
    obtain ⟨k, rfl, hne⟩ := mem_entries_after.1 he
    obtain ⟨c, hc⟩ := List.exists_mem_of_ne_nil _ hne
    obtain ⟨-, rfl⟩ := mem_of_mem_group hc
    exact ⟨c, mem_changes_after.2 hc, hP⟩
  · rintro ⟨c, hc, hP⟩
    have hgroup := mem_changes_after.1 hc
    exact ⟨_, mem_entries_after.2 ⟨c.key, rfl, List.ne_nil_of_mem hgroup⟩, hP⟩

theorem exists_entry_of_recordable (h : ∀ c ∈ cs, isRecordable c.definition c.subject = true)
    (P : String → Definition → Prop) :
    (∃ e ∈ (after cs).build.entries, P e.version e.definition) ↔
      ∃ c ∈ cs, P c.version.text c.definition := by
  have haccepted := accepted_eq_self h
  rw [exists_entry_iff]
  constructor
  · rintro ⟨c, hc, hP⟩
    exact ⟨c, haccepted ▸ mem_accepted_of_mem_changes hc, hP⟩
  · rintro ⟨c, hc, hP⟩
    rw [← haccepted] at hc
    obtain ⟨d, hd, hkey, -⟩ := exists_mem_changes hc
    refine ⟨d, hd, ?_⟩
    have hversion : d.version = c.version := congrArg Key.version hkey
    have hdefinition : d.definition = c.definition := congrArg Key.definition hkey
    rwa [hversion, hdefinition]

end Builder

end VersionedApi.Changelog
