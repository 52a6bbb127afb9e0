import VersionedApi.Proofs.Graph.Integrity
import VersionedApi.Proofs.Lint.Agreement

/-!
# What linting makes of each source

* `Findings.counted_iff` : with fewer than 2^64 issues the counts are the numbers themselves. Merging
  keeps them (`Findings.Counted.merge`), is associative and has the empty findings as identity;
* `ActionReport.unique` : the issues of an action depend on the accepted classes only as a set;
* `lint_composed` : what a run lists, and how it counts.
-/

namespace VersionedApi.Lint

namespace Findings

/-! ## Counts -/

theorem toUInt64_eq_iff {n : Nat} {c : UInt64} (h : n < UInt64.size) :
    c = n.toUInt64 ↔ c.toNat = n := by
  rw [← UInt64.toNat_inj, Nat.toUInt64, UInt64.toNat_ofNat', Nat.mod_eq_of_lt h]

/-- A list of issues that fits has no count that wraps around. -/
theorem counted_iff {f : Findings} (h : f.issues.length < UInt64.size) :
    f.Counted ↔ f.errors.toNat = f.number .error ∧ f.warnings.toNat = f.number .warning := by
  have hfits : ∀ severity, f.number severity < UInt64.size := fun severity =>
    Nat.lt_of_le_of_lt List.countP_le_length h
  rw [← toUInt64_eq_iff (hfits .error), ← toUInt64_eq_iff (hfits .warning)]
  exact ⟨fun hf => ⟨hf.errors, hf.warnings⟩, fun hf => ⟨hf.1, hf.2⟩⟩

theorem number_merge (f g : Findings) (severity : Severity) :
    (f.merge g).number severity = f.number severity + g.number severity :=
  List.countP_append

theorem Counted.merge {f g : Findings} (hf : f.Counted) (hg : g.Counted) :
    (f.merge g).Counted where
  errors := by
    rw [number_merge, Nat.toUInt64, UInt64.ofNat_add]
    exact congrArg₂ (· + ·) hf.errors hg.errors
  warnings := by
    rw [number_merge, Nat.toUInt64, UInt64.ofNat_add]
    exact congrArg₂ (· + ·) hf.warnings hg.warnings

theorem merge_assoc (f g h : Findings) : (f.merge g).merge h = f.merge (g.merge h) := by
  simp only [merge, List.append_assoc, UInt64.add_assoc]

theorem empty_merge (f : Findings) : merge {} f = f := by
  simp only [merge, UInt64.zero_add, List.nil_append]

theorem merge_empty (f : Findings) : f.merge {} = f := by
  simp only [merge, UInt64.add_zero, List.append_nil]

end Findings

variable {registry : Registry} {sources : Sources}

/-! ## The issues of one source -/

theorem ReferenceErrors.unique {accepted : String → Prop} {s : ActionSource}
    {ds : List Directive} {is js : List Issue} (hi : ReferenceErrors accepted s ds is)
    (hj : ReferenceErrors accepted s ds js) : is = js := by
  induction hi generalizing js with
  | nil =>
    cases hj
    rfl
  | resolved h _ ih =>
    cases hj with
    | resolved _ rest => exact ih rest
    | missing hname hnot _ => exact absurd (h _ hname) hnot
  | missing h hnot _ ih =>
    cases hj with
    | resolved hall _ => exact absurd (hall _ h) hnot
    | missing h' _ rest =>
      rw [h] at h'
      cases h'
      rw [ih rest]

/-- The issues of an action are known from its source and the set of accepted classes. -/
theorem ActionReport.unique {accepted : String → Prop} {s : ActionSource} {is js : List Issue}
    (hi : ActionReport registry accepted s is) (hj : ActionReport registry accepted s js) :
    is = js := by
  cases hi with
  | read ha herrors =>
    cases hj with
    | read hb herrors' =>
      rw [ha] at hb
      cases hb
      rw [herrors.unique herrors']
    | rejected he =>
      rw [ha] at he
      cases he
  | rejected he =>
    cases hj with
    | read ha _ =>
      rw [he] at ha
      cases ha
    | rejected he' =>
      rw [he] at he'
      cases he'
      rfl

/-! ## Runs -/

/-- A run looks at every source. Its issues are those of the sources, one after the other, the
representations first; those of an action depend on nothing but its source and the set of accepted
classes. Errors and warnings are counted, also in what is merged from counted findings; and merging
is associative, with the empty findings as identity. -/
theorem lint_composed (registry : Registry) (sources : Sources) :
    (sources.representations.length < UInt64.size →
      (lint registry sources).representations.toNat = sources.representations.length) ∧
    (sources.actions.length < UInt64.size →
      (lint registry sources).actions.toNat = sources.actions.length) ∧
    (∃ ofRepresentations ofActions,
      (lint registry sources).issues = ofRepresentations.flatten ++ ofActions.flatten ∧
      List.Forall₂ (RepresentationReport registry (DocblockIndex.ofSources sources.representations))
        sources.representations ofRepresentations ∧
      List.Forall₂ (ActionReport registry (Accepted registry sources))
        sources.actions ofActions) ∧
    (∀ sources', (∀ owner, Accepted registry sources owner ↔ Accepted registry sources' owner) →
      ∀ s is js, ActionReport registry (Accepted registry sources) s is →
        ActionReport registry (Accepted registry sources') s js → is = js) ∧
    (lint registry sources).Counted ∧
    (∀ f : Findings, f.issues.length < UInt64.size →
      (f.Counted ↔
        f.errors.toNat = f.number .error ∧ f.warnings.toNat = f.number .warning)) ∧
    (∀ f g : Findings, f.Counted → g.Counted → (f.merge g).Counted) ∧
    (∀ f g h : Findings, (f.merge g).merge h = f.merge (g.merge h)) ∧
    ∀ f : Findings, Findings.merge {} f = f ∧ f.merge {} = f := by
  obtain ⟨ofRepresentations, ofActions, hadds, hrepresentations, hactions⟩ :=
    lint_adds registry sources
  refine ⟨fun h => (Findings.toUInt64_eq_iff h).1 ?_, fun h => (Findings.toUInt64_eq_iff h).1 ?_,
    ⟨ofRepresentations, ofActions, ?_, hrepresentations, hactions⟩, ?_,
    counted_lint registry sources, fun f => Findings.counted_iff, fun f g => .merge,
    Findings.merge_assoc, fun f => ⟨f.empty_merge, f.merge_empty⟩⟩
  · rw [hadds.representations, UInt64.zero_add]
  · rw [hadds.actions, UInt64.zero_add]
  · rw [hadds.issues, List.nil_append]
  · intro sources' hsame s is js hi hj
    rw [← show Accepted registry sources = Accepted registry sources' from
      funext fun owner => propext (hsame owner)] at hj
    exact hi.unique hj

/-- An action whose responses name a class that says nothing. -/
def unanswered : Sources := Answers.sources undocumented.representations

/-- The class makes an error, both responses make one, and the action has no description. To the
action it is the same whether the source of the class is refused or not there. -/
theorem lint_composed_unanswered :
    (unanswered.representations.length < UInt64.size ∧ unanswered.actions.length < UInt64.size ∧
      (lint {} unanswered).representations.toNat = 1 ∧ (lint {} unanswered).actions.toNat = 1) ∧
    ((∀ owner, Accepted {} unanswered owner ↔ Accepted {} (Answers.sources []) owner) ∧
      ∀ s is js, ActionReport {} (Accepted {} unanswered) s is →
        ActionReport {} (Accepted {} (Answers.sources [])) s js → is = js) ∧
    ((lint {} unanswered).issues.length < UInt64.size ∧ (lint {} unanswered).Counted ∧
      (lint {} unanswered).errors.toNat = 3 ∧ (lint {} unanswered).warnings.toNat = 1) ∧
    ((lint {} unanswered).merge (lint {} unanswered)).Counted := by
  obtain ⟨hrepresentations, hactions, -, hset, hcounted, hnumbers, hmerge, -⟩ :=
    lint_composed {} unanswered
  have hseverities : (lint {} unanswered).issues.map (·.severity) =
      [.error, .error, .error, .warning] := by decide +kernel
  have hlength : (lint {} unanswered).issues.length < UInt64.size := by
    rw [← List.length_map (·.severity), hseverities]
    decide
  have hnumber : ∀ severity, (lint {} unanswered).number severity =
      [Severity.error, .error, .error, .warning].countP (· == severity) := by
    intro severity
    rw [← hseverities, List.countP_map]
    rfl
  have hone : 1 < UInt64.size := by decide
  have hread : Representation.read {} (DocblockIndex.ofSources unanswered.representations).find?
      ⟨"\\Movie", "", [], none, 0⟩ = .error (.documentation .noDirectives (.ofClass "\\Movie" "")) :=
    rfl
  have hsame : ∀ owner, Accepted {} unanswered owner ↔ Accepted {} (Answers.sources []) owner := by
    intro owner
    constructor
    · rintro ⟨s, hs, r, hr, -⟩
      rw [List.mem_singleton.1 hs, hread] at hr
      cases hr
    · rintro ⟨s, hs, -⟩
      cases hs
  obtain ⟨herrors, hwarnings⟩ := (hnumbers _ hlength).1 hcounted
  exact ⟨⟨hone, hone, hrepresentations hone, hactions hone⟩, ⟨hsame, hset _ hsame⟩,
    ⟨hlength, hcounted, herrors.trans (hnumber .error), hwarnings.trans (hnumber .warning)⟩,
    hmerge _ _ hcounted hcounted⟩

end VersionedApi.Lint
