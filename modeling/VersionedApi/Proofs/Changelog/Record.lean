import VersionedApi.Proofs.Changelog.Order
import VersionedApi.Proofs.Occurrence

/-!
# Recording changes in the index

* `Builder.Proper` : the index is in order on all levels and lists nothing empty; a recorded change
  keeps that (`Proper.record`), so any sequence does (`proper_after`);
* `Builder.listedAt` : what the index lists under the seven keys of an entry. A recorded change is
  enlisted under its own keys and changes nothing elsewhere (`Proper.listedAt_enter`), so after any
  sequence the changes with these keys are listed, without repetitions (`listedAt_after`);
* `Builder.record_of_error` : a call that fails leaves the builder as it is.
-/

namespace VersionedApi

open SortedMap

/-- The change belongs under the keys of an entry. -/
def Change.IsAt (c : Change) (e : Entry) : Prop :=
  e.version = c.version.text ∧ e.definition = c.definition ∧ e.part = c.subject.part ∧
    e.group = c.group ∧ e.owner = c.owner ∧ e.subject = c.subject ∧ e.hash = c.hash

instance (c : Change) (e : Entry) : Decidable (c.IsAt e) := inferInstanceAs (Decidable (_ ∧ _))

theorem Change.isAt_entry {c : Change} {k : Key} {changes : List Change} :
    c.IsAt (k.entry changes) ↔ c.key = k := by
  cases k
  simp only [IsAt, Key.entry, key, Key.mk.injEq]
  constructor
  · rintro ⟨hversion, rfl, rfl, rfl, rfl, rfl, rfl⟩
    exact ⟨Version.Number.text_inj hversion.symm, rfl, rfl, rfl, rfl, rfl, rfl⟩
  · rintro ⟨rfl, rfl, rfl, rfl, rfl, rfl, rfl⟩
    exact ⟨rfl, rfl, rfl, rfl, rfl, rfl, rfl⟩

theorem Change.IsAt.eq_entry {c : Change} {e : Entry} (h : c.IsAt e) :
    e = c.key.entry e.changes := by
  obtain ⟨hversion, hdefinition, hpart, hgroup, howner, hsubject, hhash⟩ := h
  cases e
  simp only [Key.entry, key, Entry.mk.injEq]
  exact ⟨hversion, hdefinition, hpart, hgroup, howner, hsubject, hhash, trivial⟩

namespace Changelog

/-! ## Levels of the index -/

abbrev HashesProper : ByHash → Prop := SortedMap.Proper (· < ·) fun _ => True
abbrev SubjectsProper : BySubject → Prop := SortedMap.Proper (·.key < ·.key) HashesProper
abbrev OwnersProper : ByOwner → Prop := SortedMap.Proper (· < ·) SubjectsProper
abbrev GroupsProper : ByGroup → Prop := SortedMap.Proper (· < ·) OwnersProper
abbrev PartsProper : ByPart → Prop := SortedMap.Proper (·.key < ·.key) GroupsProper
abbrev DefinitionsProper : ByDefinition → Prop := SortedMap.Proper (·.key < ·.key) PartsProper

namespace Builder

variable {b : Builder} {c : Change} {e : Entry}

/-- The index is in order on all levels and lists nothing empty. -/
def Proper (b : Builder) : Prop := SortedMap.Proper (· < ·) DefinitionsProper b.index

theorem keeps_enlist (c : Change) : Keeps (fun _ => True) (enlist c) := by
  intro changes _
  refine ⟨?_, trivial⟩
  unfold enlist
  split
  · rename_i hany
    rintro rfl
    cases hany
  · simp

theorem keeps_enter (c : Change) :
    Keeps (SortedMap.Proper (· < ·) DefinitionsProper) (enter c) := by
  have hhashes := keeps_modify compares_lt trivial (keeps_enlist c) c.hash
  have hsubjects := keeps_modify Subject.compares .nil hhashes c.subject
  have howners := keeps_modify compares_lt .nil hsubjects c.owner
  have hgroups := keeps_modify compares_lt .nil howners c.group
  have hparts := keeps_modify Part.compares .nil hgroups c.subject.part
  have hdefinitions := keeps_modify Definition.compares .nil hparts c.definition
  exact keeps_modify compares_lt .nil hdefinitions c.version.text

/-! ## What is listed -/

/-- What the index lists under the keys of an entry. -/
def listedAt (b : Builder) (e : Entry) : List Change :=
  under (under (under (under (under (under (under b.index e.version) e.definition) e.part) e.group)
    e.owner) e.subject) e.hash

/-- The change joins what is listed under its own keys, and nothing else changes. -/
theorem Proper.listedAt_enter (h : b.Proper) (c : Change) (e : Entry) :
    listedAt ⟨enter c b.index⟩ e = if c.IsAt e then enlist c (b.listedAt e) else b.listedAt e := by
  have hhashes : Sees HashesProper (modify compare c.hash (enlist c)) (under · e.hash)
      (e.hash = c.hash) (enlist c) := by
    intro m hm
    dsimp only
    rw [under_modify compares_lt hm.sorted]
    split
    · rename_i hhash
      rw [hhash]
    · rfl
  have hsubjects := sees_modify Subject.compares .nil hhashes c.subject e.subject
  have howners := sees_modify compares_lt .nil hsubjects c.owner e.owner
  have hgroups := sees_modify compares_lt .nil howners c.group e.group
  have hparts := sees_modify Part.compares .nil hgroups c.subject.part e.part
  have hdefinitions := sees_modify Definition.compares .nil hparts c.definition e.definition
  exact sees_modify compares_lt .nil hdefinitions c.version.text e.version _ h

/-! ## Calls -/

theorem record_of_recordable (h : isRecordable c.definition c.subject = true) :
    b.record c = (.ok (), ⟨enter c b.index⟩) := if_pos h

theorem record_of_not_recordable (h : ¬ isRecordable c.definition c.subject = true) :
    b.record c = (.error (.unsupportedChange c.definition.key c.subject.key), b) := if_neg h

theorem record_eq_ok_iff :
    (b.record c).1 = .ok () ↔ isRecordable c.definition c.subject = true := by
  by_cases h : isRecordable c.definition c.subject = true
  · simp [record_of_recordable h, h]
  · simp [record_of_not_recordable h, h]

/-- A call that fails leaves the builder as it is. -/
theorem record_of_error {err : Error} (h : (b.record c).1 = .error err) : (b.record c).2 = b := by
  by_cases hc : isRecordable c.definition c.subject = true
  · rw [record_of_recordable hc] at h
    cases h
  · rw [record_of_not_recordable hc]

theorem Proper.record (h : b.Proper) (c : Change) : (b.record c).2.Proper := by
  by_cases hc : isRecordable c.definition c.subject = true
  · rw [record_of_recordable hc]
    exact (keeps_enter c b.index h).2
  · rwa [record_of_not_recordable hc]

/-- The builder after a sequence of calls, whatever their answers are. -/
def after (cs : List Change) : Builder := cs.foldl (fun b c => (b.record c).2) {}

theorem after_concat (cs : List Change) (c : Change) :
    after (cs ++ [c]) = ((after cs).record c).2 := by
  rw [after, List.foldl_append]
  rfl

theorem proper_after (cs : List Change) : (after cs).Proper := by
  induction cs using List.reverseRecOn with
  | nil => exact SortedMap.Proper.nil
  | append_singleton cs c ih =>
    rw [after_concat]
    exact ih.record c

/-- The changes of a sequence that a changelog can hold. -/
def accepted (cs : List Change) : List Change :=
  cs.filter fun c => isRecordable c.definition c.subject

theorem accepted_eq_self {cs : List Change}
    (h : ∀ c ∈ cs, isRecordable c.definition c.subject = true) : accepted cs = cs :=
  List.filter_eq_self.2 h

/-- After any sequence the accepted changes are listed under their keys, the first of equal ones. -/
theorem listedAt_after (cs : List Change) (e : Entry) :
    (after cs).listedAt e = ((accepted cs).filter (·.IsAt e)).eraseDupsBy (·.Same ·) := by
  induction cs using List.reverseRecOn with
  | nil => rfl
  | append_singleton cs c ih =>
    rw [after_concat, accepted, List.filter_append]
    by_cases hc : isRecordable c.definition c.subject = true
    · rw [record_of_recordable hc, (proper_after cs).listedAt_enter, ih,
        List.filter_cons_of_pos (by simpa using hc), List.filter_nil, List.filter_append]
      by_cases hat : c.IsAt e
      · rw [if_pos hat, List.filter_cons_of_pos (by simpa using hat), List.filter_nil,
          eraseDupsBy_concat]
        rfl
      · rw [if_neg hat, List.filter_cons_of_neg (by simpa using hat), List.filter_nil,
          List.append_nil]
        rfl
    · rw [record_of_not_recordable hc, ih, List.filter_cons_of_neg (by simpa using hc),
        List.filter_nil, List.append_nil]
      rfl

theorem isAt_of_mem_listedAt {cs : List Change} (hc : c ∈ (after cs).listedAt e) : c.IsAt e := by
  rw [listedAt_after] at hc
  simpa using (List.mem_filter.1 (mem_of_mem_eraseDupsBy hc)).2

/-! ## Groups -/

/-- The changes with a key, in order, the first of equal ones. -/
def group (cs : List Change) (k : Key) : List Change :=
  (cs.filter (·.key = k)).eraseDupsBy (·.Same ·)

section Groups
variable {cs : List Change} {k : Key}

theorem map_plain_eraseDupsBy (cs : List Change) :
    (cs.eraseDupsBy (·.Same ·)).map Change.plain = (cs.map Change.plain).eraseDups :=
  map_eraseDupsBy (fun _ _ => decide_eq_true_iff) cs

theorem mem_of_mem_group (h : c ∈ group cs k) : c ∈ cs ∧ c.key = k := by
  simpa using mem_of_mem_eraseDupsBy h

theorem exists_same_mem_group (h : c ∈ cs) : ∃ d ∈ group cs c.key, d.Same c := by
  have hplain : c.plain ∈ (group cs c.key).map Change.plain := by
    rw [group, map_plain_eraseDupsBy, List.mem_eraseDups]
    exact List.mem_map_of_mem (List.mem_filter.2 ⟨h, decide_eq_true rfl⟩)
  exact List.mem_map.1 hplain

theorem pairwise_group (cs : List Change) (k : Key) :
    (group cs k).Pairwise fun c d => ¬ c.Same d := by
  have hnodup := nodup_eraseDups ((cs.filter (·.key = k)).map Change.plain)
  rw [← map_plain_eraseDupsBy] at hnodup
  exact List.pairwise_map.1 hnodup

theorem listedAt_after_entry (cs : List Change) (k : Key) (changes : List Change) :
    (after cs).listedAt (k.entry changes) = group (accepted cs) k := by
  rw [listedAt_after, group]
  simp only [Change.isAt_entry]

end Groups

theorem recordAll_eq_ok_iff {cs : List Change} {next : Builder} :
    b.recordAll cs = (.ok (), next) ↔
      (∀ c ∈ cs, isRecordable c.definition c.subject = true) ∧
        next = cs.foldl (fun b c => (b.record c).2) b := by
  induction cs generalizing b with
  | nil => simp [recordAll, @eq_comm _ next]
  | cons c cs ih =>
    rw [recordAll, List.forall_mem_cons, List.foldl_cons]
    by_cases hc : isRecordable c.definition c.subject = true
    · simp only [record_of_recordable hc, ih, hc, true_and]
    · simp [record_of_not_recordable hc, hc]

end Builder

end Changelog

end VersionedApi
