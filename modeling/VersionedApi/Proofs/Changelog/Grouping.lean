import Mathlib.Data.List.Sort
import VersionedApi.Proofs.Changelog.Entries

/-!
# A changelog is a sorted list of groups

* `Builder.grouped` : some changes by sorting their keys and filtering;
* `Builder.entries_after` : after any sequence of calls the entries are these groups of the accepted
  changes, since both are in strict order and have the same members;
* `Builder.build_grouped` : so no change is lost, equal ones are listed twice only if their hashes
  differ, and the order of the calls shows only inside the entries.
-/

namespace VersionedApi.Changelog

namespace Builder

/-! ## Sorted groups -/

/-- The keys of some changes, each once, in the order of a changelog. -/
def sortedKeys (cs : List Change) : List Key :=
  (cs.map Change.key).eraseDups.mergeSort fun k l => !decide (l.Before k)

/-- The groups of some changes in the order of a changelog. -/
def grouped (cs : List Change) : List Entry := (sortedKeys cs).map fun k => k.entry (group cs k)

variable {cs ds : List Change} {c d : Change} {k : Key}

theorem mem_sortedKeys : k ∈ sortedKeys cs ↔ ∃ c ∈ cs, c.key = k := by
  rw [sortedKeys, List.mem_mergeSort, List.mem_eraseDups, List.mem_map]

theorem group_ne_nil_iff : group cs k ≠ [] ↔ k ∈ sortedKeys cs := by
  rw [mem_sortedKeys]
  constructor
  · intro hne
    obtain ⟨c, hc⟩ := List.exists_mem_of_ne_nil _ hne
    exact ⟨c, mem_of_mem_group hc⟩
  · rintro ⟨c, hc, rfl⟩
    obtain ⟨d, hd, -⟩ := exists_same_mem_group hc
    exact List.ne_nil_of_mem hd

theorem pairwise_sortedKeys (cs : List Change) : (sortedKeys cs).Pairwise Key.Before := by
  have hsorted := @List.pairwise_mergeSort Key (fun k l => !decide (l.Before k))
    (fun k l m hkl hlm => by
      rw [Bool.not_eq_true', decide_eq_false_iff_not] at hkl hlm ⊢
      exact Key.not_before_trans hkl hlm)
    (fun k l => by
      by_cases h : l.Before k
      · simp [h.asymm]
      · simp [h])
    (cs.map Change.key).eraseDups
  have hnodup : (sortedKeys cs).Nodup :=
    (List.mergeSort_perm _ _).nodup_iff.2 (nodup_eraseDups _)
  refine (hsorted.and hnodup).imp ?_
  rintro k l ⟨hle, hne⟩
  simp only [Bool.not_eq_true', decide_eq_false_iff_not] at hle
  rcases Key.Before.trichotomy k l with h | h | h
  · exact h
  · exact absurd h hne
  · exact absurd h hle

instance : Std.Irrefl Key.Before := ⟨Key.Before.irrefl⟩

instance : Std.Antisymm Key.Before :=
  ⟨fun _ _ hkl hlk => absurd hlk hkl.asymm⟩

theorem sortedKeys_congr (h : ∀ k, (∃ c ∈ cs, c.key = k) ↔ ∃ d ∈ ds, d.key = k) :
    sortedKeys cs = sortedKeys ds := by
  apply List.Pairwise.eq_of_mem_iff (pairwise_sortedKeys cs) (pairwise_sortedKeys ds)
  intro k
  rw [mem_sortedKeys, mem_sortedKeys, h]

/-! ## Entries after a sequence of calls -/

variable (h : ∀ c ∈ cs, 0 ≤ c.version.tenths)
include h

theorem pairwise_grouped : (grouped cs).Pairwise Entry.Precedes := by
  have hversion : ∀ k ∈ sortedKeys cs, 0 ≤ k.version.tenths := by
    intro k hk
    obtain ⟨c, hc, rfl⟩ := mem_sortedKeys.1 hk
    exact h c hc
  rw [grouped, List.pairwise_map]
  exact (pairwise_sortedKeys cs).imp_of_mem fun hk hl hbefore =>
    hbefore.precedes (hversion _ hk) (hversion _ hl) _ _

omit h in
theorem mem_grouped {e : Entry} :
    e ∈ grouped cs ↔ ∃ k, e = k.entry (group cs k) ∧ group cs k ≠ [] := by
  simp only [grouped, List.mem_map, group_ne_nil_iff]
  constructor
  · rintro ⟨k, hk, rfl⟩
    exact ⟨k, rfl, hk⟩
  · rintro ⟨k, rfl, hk⟩
    exact ⟨k, hk, rfl⟩

theorem nonneg_accepted : ∀ c ∈ accepted cs, 0 ≤ c.version.tenths :=
  fun c hc => h c (List.mem_filter.1 hc).1

/-- After any sequence of calls the entries are the groups of the accepted changes. -/
theorem entries_after : (after cs).build.entries = grouped (accepted cs) := by
  refine List.Pairwise.eq_of_mem_iff (proper_after cs).pairwise_entries
    (pairwise_grouped (nonneg_accepted h)) fun e => ?_
  rw [mem_entries_after, mem_grouped]

theorem entries_after_of_perm (hperm : cs.Perm ds)
    (hsorted : ds.Pairwise fun c d => c.key.Before d.key)
    (hrecordable : ∀ c ∈ cs, isRecordable c.definition c.subject = true) :
    (after cs).build.entries = ds.map fun c => c.key.entry [c] := by
  have hkeys : sortedKeys cs = ds.map Change.key := by
    refine List.Pairwise.eq_of_mem_iff (pairwise_sortedKeys cs) (List.pairwise_map.2 hsorted)
      fun k => ?_
    simp only [mem_sortedKeys, List.mem_map, hperm.mem_iff]
  have hnodup : (ds.map Change.key).Nodup := by
    rw [← hkeys]
    refine (pairwise_sortedKeys cs).imp fun {k l} hbefore heq => ?_
    exact Key.Before.irrefl l (heq ▸ hbefore)
  rw [entries_after h, accepted_eq_self hrecordable, grouped, hkeys, List.map_map]
  refine List.map_congr_left fun c hc => congrArg c.key.entry ?_
  have hfilter : ds.filter (·.key = c.key) = [c] := by
    refine List.perm_singleton.1 ((List.perm_ext_iff_of_nodup ((hnodup.of_map _).filter _)
      (List.nodup_singleton c)).2 fun d => ?_)
    rw [List.mem_filter, List.mem_singleton, decide_eq_true_iff]
    constructor
    · rintro ⟨hd, hkey⟩
      exact List.inj_on_of_nodup_map hnodup hd hc hkey
    · rintro rfl
      exact ⟨hc, rfl⟩
  have hcs : cs.filter (·.key = c.key) = [c] := by
    rw [← List.perm_singleton, ← hfilter]
    exact hperm.filter _
  rw [group, hcs]
  rfl

/-! ## What is listed -/

theorem changes_after :
    (after cs).build.changes = (sortedKeys (accepted cs)).flatMap (group (accepted cs)) := by
  rw [changes, entries_after h, grouped, List.flatMap_map]
  rfl

theorem pairwise_changes :
    (after cs).build.changes.Pairwise fun c d => c.Same d → c.hash ≠ d.hash := by
  rw [changes_after h, List.pairwise_flatMap]
  constructor
  · intro k _
    exact (pairwise_group _ k).imp fun hne hsame => absurd hsame hne
  · refine (pairwise_sortedKeys _).imp fun {k l} hbefore c hc d hd hsame hhash => ?_
    have hkey : c.key = d.key := hsame.key_eq hhash
    rw [(mem_of_mem_group hc).2, (mem_of_mem_group hd).2] at hkey
    exact Key.Before.irrefl _ (hkey ▸ hbefore)

/-- The same calls in another order make the same entries, each with its changes in another
order. -/
theorem forall₂_entries (hperm : cs.Perm ds) :
    List.Forall₂ (fun d e => d.version = e.version ∧ d.path = e.path ∧
        (d.changes.map Change.plain).Perm (e.changes.map Change.plain))
      (after cs).build.entries (after ds).build.entries := by
  have haccepted : (accepted cs).Perm (accepted ds) := hperm.filter _
  have hkeys : sortedKeys (accepted cs) = sortedKeys (accepted ds) :=
    sortedKeys_congr fun k => by simp only [haccepted.mem_iff]
  rw [entries_after h, entries_after fun c hc => h c (hperm.mem_iff.2 hc), grouped, grouped, hkeys,
    List.forall₂_map_left_iff, List.forall₂_map_right_iff, List.forall₂_same]
  intro k _
  refine ⟨rfl, rfl, ?_⟩
  show ((group (accepted cs) k).map Change.plain).Perm ((group (accepted ds) k).map Change.plain)
  rw [group, group, map_plain_eraseDupsBy, map_plain_eraseDupsBy,
    List.perm_ext_iff_of_nodup (nodup_eraseDups _) (nodup_eraseDups _)]
  intro c
  simp only [List.mem_eraseDups, List.mem_map, List.mem_filter, haccepted.mem_iff]

/-! ## Repetitions -/

/-- The accepted changes, the first of equal ones. -/
def firsts (cs : List Change) : List Change := (accepted cs).eraseDupsBy (·.Same ·)

variable (hhash : ∀ c ∈ accepted cs, ∀ d ∈ accepted cs, c.Same d → c.hash = d.hash)
include hhash

omit h in
theorem group_accepted (k : Key) : group (accepted cs) k = (firsts cs).filter (·.key = k) := by
  refine (filter_eraseDupsBy fun c hc d hd hsame => ?_).symm
  have hsame : c.Same d := of_decide_eq_true hsame
  rw [hsame.key_eq (hhash c hc d hd hsame)]

omit h in
theorem sortedKeys_accepted : sortedKeys (accepted cs) = sortedKeys (firsts cs) := by
  refine sortedKeys_congr fun k => ?_
  rw [← mem_sortedKeys, ← group_ne_nil_iff, group_accepted hhash]
  constructor
  · intro hne
    obtain ⟨c, hc⟩ := List.exists_mem_of_ne_nil _ hne
    exact ⟨c, by simpa using hc⟩
  · rintro ⟨c, hc, rfl⟩
    exact List.ne_nil_of_mem (List.mem_filter.2 ⟨hc, decide_eq_true rfl⟩)

/-- If equal changes have equal hashes, repetitions can be dropped first. -/
theorem entries_firsts :
    (after cs).build.entries =
        (sortedKeys (firsts cs)).map (fun k => k.entry ((firsts cs).filter (·.key = k))) ∧
      (after cs).build.changes.Perm (firsts cs) := by
  have hentries : (after cs).build.entries =
      (sortedKeys (firsts cs)).map (fun k => k.entry ((firsts cs).filter (·.key = k))) := by
    rw [entries_after h, grouped, sortedKeys_accepted hhash]
    simp only [group_accepted hhash]
  have hnodup : (after cs).build.changes.Nodup := by
    refine (pairwise_changes h).imp_of_mem fun {c d} hc hd hne heq => ?_
    rw [heq] at hne
    exact hne rfl rfl
  have hfirsts : (firsts cs).Nodup := by
    have hplain := nodup_eraseDups ((accepted cs).map Change.plain)
    rw [← map_plain_eraseDupsBy] at hplain
    exact hplain.of_map _
  refine ⟨hentries, (List.perm_ext_iff_of_nodup hnodup hfirsts).2 fun c => ?_⟩
  simp only [changes, hentries, List.flatMap_map, List.mem_flatMap, mem_sortedKeys]
  constructor
  · rintro ⟨k, -, hc⟩
    exact (List.mem_filter.1 hc).1
  · intro hc
    exact ⟨c.key, ⟨c, hc, rfl⟩, List.mem_filter.2 ⟨hc, decide_eq_true rfl⟩⟩

omit hhash in
/-- A sequence of calls with versions that are not negative. A change is refused exactly if its pair
of definition and subject cannot be recorded, and then the builder stays as it is. The entries are
the groups of the accepted changes, in strict order of their keys, and none is empty. Every accepted
change is listed, or an equal one with its key; equal ones are both listed only if their hashes
differ. The order of the calls shows only inside the entries. If equal changes have equal hashes,
the groups are those of the changes that come first. -/
theorem build_grouped :
    (∀ (b : Builder) (c : Change),
      ((b.record c).1 = .ok () ↔ isRecordable c.definition c.subject = true) ∧
        ∀ e, (b.record c).1 = .error e → (b.record c).2 = b) ∧
      (after cs).build.entries = grouped (accepted cs) ∧
      (sortedKeys (accepted cs)).Pairwise Key.Before ∧
      (∀ e ∈ (after cs).build.entries, e.changes ≠ []) ∧
      (∀ c ∈ accepted cs, ∃ d ∈ (after cs).build.changes, d.key = c.key ∧ d.Same c) ∧
      (∀ c ∈ (after cs).build.changes, c ∈ accepted cs) ∧
      (after cs).build.changes.Pairwise (fun c d => c.Same d → c.hash ≠ d.hash) ∧
      (∀ ds, cs.Perm ds →
        List.Forall₂ (fun d e => d.version = e.version ∧ d.path = e.path ∧
            (d.changes.map Change.plain).Perm (e.changes.map Change.plain))
          (after cs).build.entries (after ds).build.entries) ∧
      ((∀ c ∈ accepted cs, ∀ d ∈ accepted cs, c.Same d → c.hash = d.hash) →
        (after cs).build.entries =
            (sortedKeys (firsts cs)).map (fun k => k.entry ((firsts cs).filter (·.key = k))) ∧
          (after cs).build.changes.Perm (firsts cs)) := by
  refine ⟨fun b c => ⟨record_eq_ok_iff, fun e => record_of_error⟩, entries_after h,
    pairwise_sortedKeys _, ?_, fun c => exists_mem_changes,
    fun c => mem_accepted_of_mem_changes, pairwise_changes h, fun ds => forall₂_entries h,
    entries_firsts h⟩
  intro e he
  exact ((proper_after cs).mem_entries.1 he).2

end Builder

namespace Movies

/-- A parameter that the list of movies gets in version 9.9. -/
def pageAdded : Change :=
  { version := ⟨99, by decide, by decide⟩
    definition := .added
    subject := .actionParam
    group := "Movies"
    owner := "\\Movies"
    path := some "/movies"
    payload := .object [("param", .string "page")] }

def pageAddedLater : Change := { pageAdded with version := ⟨100, by decide, by decide⟩ }

def pageChanged : Change := { pageAdded with definition := .changed }

/-- The parameter with the number zero, or minus zero. -/
def zeroAdded (negative : Bool) : Change :=
  { pageAdded with
    payload := .object [("page", .number (.double ⟨negative, 0, 0⟩))] }

end Movies

namespace Builder

/-- Of these four changes one is refused and one is there already; version 10.0 comes before 9.9. -/
theorem build_grouped_movies :
    (∀ c ∈ [Movies.pageAdded, Movies.pageChanged, Movies.pageAddedLater, Movies.pageAdded],
      0 ≤ c.version.tenths) ∧
      (after [Movies.pageAdded, Movies.pageChanged, Movies.pageAddedLater,
          Movies.pageAdded]).build.entries =
        [Movies.pageAddedLater.key.entry [Movies.pageAddedLater],
          Movies.pageAdded.key.entry [Movies.pageAdded]] := by
  have hnonneg : ∀ c ∈ [Movies.pageAdded, Movies.pageChanged, Movies.pageAddedLater,
      Movies.pageAdded], 0 ≤ c.version.tenths := by decide
  have haccepted : accepted [Movies.pageAdded, Movies.pageChanged, Movies.pageAddedLater,
      Movies.pageAdded] = [Movies.pageAdded, Movies.pageAddedLater, Movies.pageAdded] := by decide
  have hbefore : Movies.pageAddedLater.key.Before Movies.pageAdded.key := Or.inl (by decide)
  have hne : Movies.pageAddedLater.key ≠ Movies.pageAdded.key := by
    intro heq
    rw [heq] at hbefore
    exact Key.Before.irrefl _ hbefore
  have hkeys : sortedKeys [Movies.pageAdded, Movies.pageAddedLater, Movies.pageAdded] =
      [Movies.pageAddedLater.key, Movies.pageAdded.key] := by
    apply List.Pairwise.eq_of_mem_iff (pairwise_sortedKeys _)
    · exact List.pairwise_pair.2 hbefore
    · intro k
      simp only [mem_sortedKeys, List.mem_cons, List.not_mem_nil, or_false]
      grind
  refine ⟨hnonneg, ?_⟩
  rw [(build_grouped hnonneg).2.1, haccepted, grouped, hkeys]
  simp only [List.map_cons, List.map_nil, group, List.filter_cons, List.filter_nil, hne, hne.symm,
    decide_true, decide_false, if_true]
  rfl

/-- Zero and minus zero are equal and have different texts: both are listed. -/
theorem entries_minus_zero :
    firsts [Movies.zeroAdded false, Movies.zeroAdded true] = [Movies.zeroAdded false] ∧
      (after [Movies.zeroAdded false, Movies.zeroAdded true]).build.entries.length = 2 := by
  have hnonneg : ∀ c ∈ [Movies.zeroAdded false, Movies.zeroAdded true], 0 ≤ c.version.tenths := by
    decide
  have haccepted : accepted [Movies.zeroAdded false, Movies.zeroAdded true] =
      [Movies.zeroAdded false, Movies.zeroAdded true] := rfl
  have hhash : (Movies.zeroAdded false).hash ≠ (Movies.zeroAdded true).hash := by
    decide +kernel
  have hkeys : [(Movies.zeroAdded false).key, (Movies.zeroAdded true).key].Nodup := by
    rw [List.nodup_cons, List.mem_singleton]
    exact ⟨fun hkey => hhash (congrArg Key.hash hkey), List.nodup_singleton _⟩
  constructor
  · decide
  · rw [entries_after hnonneg, haccepted, grouped, List.length_map, sortedKeys,
      List.length_mergeSort, List.map_cons, List.map_cons, List.map_nil, eraseDups_eq_self hkeys]
    rfl

end Builder

end VersionedApi.Changelog
