import VersionedApi.Proofs.Version.Grammar
import VersionedApi.Proofs.Version.Rounding

/-!
# What is reported of a constraint that is refused

* `Fault.constraint?` : the text that a fault of a constraint shows;
* `Interval.Misnumbered` : an operator before what has the shape of a version but denotes none;
* `Interval.readSingle_eq_error_cases`, `Interval.readSingle_of_misnumbered` : of a constraint that
  is not a range, the part behind the operator is reported if that part is at fault, and else all;
* `Range.constraint_of_cut` : a range is reported as it was written;
* `Range.read_reports_iff` : so is every constraint without such an operator, and only those.
-/

namespace VersionedApi

open VersionedApi.Text

/-- The constraint that the fault is about, as it is shown. -/
def Fault.constraint? : Fault → Option String
  | .unrecognizedSchema text | .lopsidedRange text | .badRangeUse text
  | .operatorsWithinRange text => some text
  | _ => none

namespace Version

namespace Interval

variable {cs number : List Char}

/-! ## Constraints that are not ranges -/

/-- An operator stands before `number`, which has the shape of a version but denotes none: it is
not in plain digits or lies beyond the axis. -/
def Misnumbered (cs number : List Char) : Prop :=
  ∃ op : Operator, cs = op.sign ++ number ∧ isPointShape number = true ∧
    ¬ ∃ n, Number.Literal number n

theorem read_of_not_literal (hshape : isPointShape number = true)
    (h : ¬ ∃ n, Number.Literal number n) :
    Number.read (String.ofList number) =
      .error (.unrecognizedSchema (String.ofList number)) := by
  have htrim : trimmed (String.ofList number) = String.ofList number := by
    rw [trimmed, String.toList_ofList, trim_of_isPointShape hshape]
  rw [Number.read_of_not_ok, htrim]
  rintro ⟨n, hn⟩
  exact h ⟨n, (read_eq_ok_iff_literal hshape).1 hn⟩

theorem read_eq_error_of_isPointShape {e : Fault} (hshape : isPointShape number = true)
    (h : Number.read (String.ofList number) = .error e) :
    (¬ ∃ n, Number.Literal number n) ∧ e = .unrecognizedSchema (String.ofList number) := by
  have hnone : ¬ ∃ n, Number.Literal number n := by
    rintro ⟨n, hn⟩
    rw [(read_eq_ok_iff_literal hshape).2 hn] at h
    cases h
  rw [read_of_not_literal hshape hnone] at h
  cases h
  exact ⟨hnone, rfl⟩

/-- All of the constraint is reported, or what follows an operator. -/
theorem readSingle_eq_error_cases {e : Fault} (h : readSingle cs = .error e) :
    e = .unrecognizedSchema (String.ofList cs) ∨
      ∃ number, Misnumbered cs number ∧ e = .unrecognizedSchema (String.ofList number) := by
  unfold readSingle at h
  dsimp only at h
  split at h
  · rename_i op number hop
    split at h
    · rename_i hshape
      rcases bind_eq_error.1 h with h | ⟨n, -, h⟩
      · obtain ⟨hnone, he⟩ := read_eq_error_of_isPointShape hshape h
        exact Or.inr ⟨number, ⟨op, Operator.read?_eq_some hop, hshape, hnone⟩, he⟩
      · -- the version is there, so what fails is the step that the operator takes
        split at h
        · cases h
        · cases h
          exact Or.inl rfl
    · cases h
      exact Or.inl rfl
  · split at h
    · rename_i hshape
      rcases bind_eq_error.1 h with h | ⟨n, -, h⟩
      · exact Or.inl (read_eq_error_of_isPointShape hshape h).2
      · cases h
    · split at h
      · cases h
      · cases h
        exact Or.inl rfl

theorem head?_ne_of_isPointShape (h : isPointShape number = true) : number.head? ≠ some '=' := by
  obtain ⟨major, minor, rfl, hne, -, hdigits, -⟩ := isPointShape_iff.1 h
  intro heq
  cases major with
  | nil => exact absurd rfl hne
  | cons c major =>
    rw [List.cons_append, List.head?_cons, Option.some_inj] at heq
    exact absurd (hdigits c List.mem_cons_self) (by rw [heq]; decide)

theorem readSingle_of_misnumbered (h : Misnumbered cs number) :
    readSingle cs = .error (.unrecognizedSchema (String.ofList number)) := by
  obtain ⟨op, rfl, hshape, hnone⟩ := h
  unfold readSingle
  rw [Operator.read?_sign op (head?_ne_of_isPointShape hshape)]
  dsimp only
  rw [if_pos hshape, read_of_not_literal hshape hnone]
  rfl

theorem Misnumbered.not_infix (h : Misnumbered cs number) : ¬ [' ', '-', ' '] <:+: cs := by
  obtain ⟨op, rfl, hshape, -⟩ := h
  obtain ⟨major, minor, rfl, -, -, hmajor, hminor⟩ := isPointShape_iff.1 hshape
  intro hrange
  have hblank : ' ' ∈ op.sign ++ (major ++ '.' :: minor) := hrange.subset (by simp)
  rw [List.mem_append, List.mem_append, List.mem_cons] at hblank
  rcases hblank with hblank | hblank | hblank | hblank
  · cases op <;> simp [Operator.sign] at hblank
  · exact absurd (hmajor _ hblank) (by decide)
  · exact absurd hblank (by decide)
  · exact absurd (hminor _ hblank) (by decide)

theorem Misnumbered.ne (h : Misnumbered cs number) : number ≠ cs := by
  obtain ⟨op, rfl, -, -⟩ := h
  intro heq
  have hlength := congrArg List.length heq
  rw [List.length_append] at hlength
  cases op <;> simp [Operator.sign] at hlength

end Interval

namespace Range

variable {s : String}

/-! ## All constraints -/

/-- Whatever is wrong with a range, it is reported as it was written. -/
theorem constraint_of_cut {lower upper : List Char} {e : Fault}
    (hcut : FirstCut [' ', '-', ' '] (trim s.toList) lower upper) (h : read s = .error e) :
    e.constraint? = some (trimmed s) := by
  by_cases hops : Operator.Opens lower ∨ Operator.Opens upper
  · rw [read_of_opens hcut hops] at h
    cases h
    rfl
  by_cases hsides : (¬ ∃ a b, Interval.Plain (trim lower) a b) ∨
      ¬ ∃ a b, Interval.Plain (trim upper) a b
  · rw [read_of_not_plain hcut hops hsides] at h
    cases h
    rfl
  rw [not_or, not_not, not_not] at hsides
  obtain ⟨⟨a, a', ha⟩, b', b, hb⟩ := hsides
  rw [read_of_plain hcut hops ha hb] at h
  split at h
  · cases h
    rfl
  · split at h
    · cases h
      rfl
    · cases h

theorem read_of_misnumbered {number : List Char} (h : Interval.Misnumbered (trim s.toList) number) :
    read s = .error (.unrecognizedSchema (String.ofList number)) := by
  rw [read_of_uncut h.not_infix, Interval.readSingle_of_misnumbered h]
  rfl

theorem constraint_of_not_misnumbered {e : Fault} (h : read s = .error e)
    (hnone : ¬ ∃ number, Interval.Misnumbered (trim s.toList) number) :
    e.constraint? = some (trimmed s) := by
  cases hcut : cutAt [' ', '-', ' '] (trim s.toList) with
  | some parts => exact constraint_of_cut (cutAt_eq_some_iff.1 hcut) h
  | none =>
    rw [read_of_uncut (cutAt_eq_none_iff.1 hcut), map_eq_error] at h
    rcases Interval.readSingle_eq_error_cases h with rfl | ⟨number, hnumber, -⟩
    · rfl
    · exact absurd ⟨number, hnumber⟩ hnone

/-- A constraint that is refused is reported as it was written, without its outer blanks, unless an
operator stands before what has the shape of a version but denotes none. Such a constraint is always
refused, and only what follows the operator is reported. -/
theorem read_reports_iff (s : String) :
    (∀ e, read s = .error e →
      (e.constraint? = some (trimmed s) ↔ ¬ ∃ number, Interval.Misnumbered (trim s.toList) number)) ∧
      ∀ number, Interval.Misnumbered (trim s.toList) number →
        read s = .error (.unrecognizedSchema (String.ofList number)) := by
  refine ⟨fun e h => ⟨?_, constraint_of_not_misnumbered h⟩, fun number => read_of_misnumbered⟩
  rintro htext ⟨number, hnumber⟩
  rw [read_of_misnumbered hnumber] at h
  cases h
  apply hnumber.ne
  exact String.ofList_injective (Option.some.inj htext)

/-- There is no version above the last one, `214748364.7`: ` >214748364.7` is reported without its
blank. Of `~٣.٤`, which is not in plain digits, the operator is left out. -/
theorem read_reports_iff_last :
    (read " >214748364.7" = .error (.unrecognizedSchema ">214748364.7") ∧
        ¬ ∃ number, Interval.Misnumbered (trim " >214748364.7".toList) number) ∧
      read "~٣.٤" = .error (.unrecognizedSchema "٣.٤") := by
  have hlast : read " >214748364.7" = .error (.unrecognizedSchema ">214748364.7") := by
    decide +kernel
  have htext : trimmed " >214748364.7" = ">214748364.7" := by decide +kernel
  have hshape : Interval.isPointShape ['٣', '.', '٤'] = true := by decide +kernel
  have hdigits : Interval.Misnumbered (trim "~٣.٤".toList) ['٣', '.', '٤'] := by
    refine ⟨.withinMajor, by decide +kernel, hshape, ?_⟩
    rintro ⟨n, hn⟩
    obtain ⟨c, rest, heq, hc⟩ := hn.head
    cases heq
    exact absurd hc (by decide)
  refine ⟨⟨hlast, ?_⟩, (read_reports_iff "~٣.٤").2 _ hdigits⟩
  apply ((read_reports_iff " >214748364.7").1 _ hlast).1
  rw [htext]
  rfl

/-- The version `214748364.8` is beyond the axis, and `>214748364.8` is not reported as it was
written: the operator is missing. -/
theorem read_reports_number :
    read ">214748364.8" = .error (.unrecognizedSchema "214748364.8") ∧
      (Fault.unrecognizedSchema "214748364.8").constraint? ≠ some (trimmed ">214748364.8") := by
  constructor <;> decide +kernel

end Range

end Version

end VersionedApi
