import Mathlib.Data.List.DropRight
import VersionedApi.Docblock.Source
import VersionedApi.Proofs.Version.Written
import VersionedApi.Representation.Basic

/-!
# The names of documented classes

* `IsName` : the names that declarations have; `isName_of_mem_blocks` : a block belongs to a class
  with such a name;
* `normalizeClass_normalizeClass` : the normal spelling of a class is normal;
* `Scan.IsNamed` : the namespace of a source text says more than that there is one;
* `normalizeClass_qualify` : in such a text the spelling of a class with its namespace is normal;
  `normalizeClass_qualify_of_not_named` : in any other text it is not, and a backslash before the
  bare name is;
* `qualify_ne_of_not_named` : there no class has the normal spelling of another one.
-/

namespace VersionedApi.Text

theorem isBlank_of_isWord {c : Char} (h : isWord c = true) : isBlank c = false := by
  have htable : ∀ n ∈ wideBlanks, inRanges n wordRanges = false := by decide +kernel
  rw [Bool.eq_false_iff]
  intro hblank
  unfold isWord at h
  split at h
  · -- below U+0080 the blanks are the space and five controls
    have hcode : c.toNat ∈ [9, 10, 11, 12, 13, 0x20] := by
      simp only [isBlank, Bool.or_eq_true, Bool.and_eq_true, decide_eq_true_eq, beq_iff_eq]
        at hblank
      simp only [List.mem_cons, List.not_mem_nil, or_false]
      omega
    have hplain : ∀ n ∈ [9, 10, 11, 12, 13, 0x20], isAsciiLetter (Char.ofNat n) = false ∧
        isAsciiDigit (Char.ofNat n) = false ∧ Char.ofNat n ≠ '_' := by
      decide
    have hnot := hplain c.toNat hcode
    rw [Char.ofNat_toNat] at hnot
    simp [hnot] at h
  · rename_i hwide
    rw [htable c.toNat (toNat_mem_wideBlanks hblank hwide)] at h
    cases h

theorem isBlank_of_isQualified {c : Char} (h : isQualified c = true) : isBlank c = false := by
  rw [isQualified, Bool.or_eq_true, beq_iff_eq] at h
  rcases h with h | rfl
  · exact isBlank_of_isWord h
  · decide

end VersionedApi.Text

namespace VersionedApi

open VersionedApi.Text

theorem normalizeClass_normalizeClass (owner : String) :
    normalizeClass (normalizeClass owner) = normalizeClass owner := by
  have hend : trimEnd (trim owner.toList) = trim owner.toList :=
    List.rdropWhile_idempotent isBlank _
  have hlist : (normalizeClass owner).toList =
      '\\' :: (trim owner.toList).dropWhile (· == '\\') := String.toList_ofList
  generalize trim owner.toList = cs at hend hlist
  -- the last character of what is left is the last one of a trimmed text
  have hkept : trimEnd ('\\' :: cs.dropWhile (· == '\\')) =
      '\\' :: cs.dropWhile (· == '\\') := by
    refine List.rdropWhile_eq_self_iff.2 fun hne => ?_
    by_cases hnil : cs.dropWhile (· == '\\') = []
    · simp [hnil, isBlank]
    · rw [List.getLast_cons hnil, (List.dropWhile_suffix _).getLast hnil]
      exact List.rdropWhile_eq_self_iff.1 hend _
  have htrim : trim ('\\' :: cs.dropWhile (· == '\\')) = '\\' :: cs.dropWhile (· == '\\') := by
    rw [trim, trimStart, List.dropWhile_cons_of_neg (by decide), hkept]
  rw [← String.toList_inj, hlist, normalizeClass, String.toList_ofList, hlist, htrim,
    List.dropWhile_cons_of_pos (by decide), List.dropWhile_idempotent]

end VersionedApi

namespace VersionedApi.Docblock

open VersionedApi.Text

/-! ## Names -/

structure IsName (name : String) : Prop where
  ne_nil : name.toList ≠ []
  isWord : ∀ c ∈ name.toList, isWord c = true

theorem IsName.head?_ne {name : String} (h : IsName name) : name.toList.head? ≠ some '\\' := by
  intro hhead
  have hmem : '\\' ∈ name.toList := List.mem_of_head? hhead
  exact absurd (h.isWord _ hmem) (by decide)

theorem isName_of_declaredName? {modifiers keywords : List String} {line : List Char}
    {name : String} (h : declaredName? modifiers keywords line = some name) : IsName name := by
  unfold declaredName? at h
  split at h
  · split at h
    · rename_i hname
      cases h
      have hne := (Bool.and_eq_true_iff.1 hname).2
      refine ⟨?_, ?_⟩
      · rw [String.toList_ofList]
        simpa using hne
      · intro c hc
        rw [String.toList_ofList] at hc
        exact List.mem_takeWhile_imp hc
    · cases h
  · cases h

/-- One line of code keeps the class that the blocks behind it belong to a name. -/
theorem isName_of_className?_or {line : List Char} {owner : Option String} {name : String}
    (howner : ∀ o, owner = some o → IsName o) (h : (className? line).or owner = some name) :
    IsName name := by
  cases hclass : className? line with
  | none =>
    rw [hclass, Option.none_or] at h
    exact howner name h
  | some o =>
    rw [hclass, Option.some_or] at h
    cases h
    exact isName_of_declaredName? hclass

theorem isName_of_declarationIn? {following : List (List Char)} {name : String}
    (h : declarationIn? following = some (.ofClass name)) : IsName name := by
  unfold declarationIn? at h
  obtain ⟨line, -, h⟩ := Option.bind_eq_some_iff.1 h
  split at h
  · rename_i hclass
    cases h
    exact isName_of_declaredName? hclass
  · obtain ⟨method, -, h⟩ := Option.map_eq_some_iff.1 h
    cases h

theorem isName_of_mem_blocksFrom {segs : List Segment} {n : Nat} {owner : Option String}
    {b : Block} {name : String} (howner : ∀ o, owner = some o → IsName o)
    (hb : b ∈ blocksFrom n owner segs) (hname : b.owner = some name) : IsName name := by
  induction segs generalizing n owner with
  | nil => cases hb
  | cons seg rest ih =>
    cases seg with
    | code line =>
      rw [blocksFrom] at hb
      exact ih (fun o ho => isName_of_className?_or howner ho) hb
    | comment ls =>
      rw [blocksFrom] at hb
      rcases List.mem_cons.1 hb with rfl | hb
      · dsimp only at hname
        split at hname
        · rename_i hdeclaration
          cases hname
          exact isName_of_declarationIn? hdeclaration
        · exact howner name hname
      · exact ih howner hb

theorem isName_of_mem_blocks {content : String} {b : Block} {name : String}
    (hb : b ∈ (scan content).blocks) (hname : b.owner = some name) : IsName name :=
  isName_of_mem_blocksFrom (fun o ho => by cases ho) hb hname

/-! ## Namespaces -/

theorem isQualified_of_namespaceOf? {line : List Char} {ns : String}
    (h : namespaceOf? line = some ns) : ∀ c ∈ ns.toList, isQualified c = true := by
  unfold namespaceOf? at h
  obtain ⟨rest, -, h⟩ := Option.bind_eq_some_iff.1 h
  dsimp only at h
  split at h
  · cases h
    intro c hc
    rw [String.toList_ofList] at hc
    exact List.mem_takeWhile_imp hc
  · cases h

theorem isQualified_of_nameSpace {content : String} {ns : String}
    (h : (scan content).nameSpace = some ns) : ∀ c ∈ ns.toList, isQualified c = true := by
  obtain ⟨seg, -, hseg⟩ := List.exists_of_findSome?_eq_some h
  cases seg with
  | code line => exact isQualified_of_namespaceOf? hseg
  | comment ls => cases hseg

def bareNamespace (ns : String) : List Char :=
  ((ns.toList.dropWhile (· == '\\')).reverse.dropWhile (· == '\\')).reverse

theorem mem_of_mem_bareNamespace {ns : String} {c : Char} (h : c ∈ bareNamespace ns) :
    c ∈ ns.toList := by
  have hend : bareNamespace ns <+: ns.toList.dropWhile (· == '\\') :=
    List.rdropWhile_prefix _ _
  exact (List.dropWhile_suffix _).subset (hend.subset h)

theorem bareNamespace_ne_nil_iff {ns : String} :
    bareNamespace ns ≠ [] ↔ ∃ c ∈ ns.toList, c ≠ '\\' := by
  have hnil : bareNamespace ns = [] ↔ ∀ c ∈ ns.toList, c = '\\' := by
    rw [bareNamespace, List.reverse_eq_nil_iff, List.dropWhile_eq_nil_iff]
    constructor
    · intro h c hc
      by_contra hne
      -- a first other character would be kept by both cuts
      have hkept : ns.toList.dropWhile (· == '\\') ≠ [] := by
        rw [ne_eq, List.dropWhile_eq_nil_iff]
        intro hall
        exact hne (by simpa using hall c hc)
      have hhead := List.head_dropWhile_not (· == '\\') hkept
      have hmem := List.head_mem hkept
      rw [h _ (List.mem_reverse.2 hmem)] at hhead
      cases hhead
    · intro h c hc
      have hmem := (List.dropWhile_suffix _).subset (List.mem_reverse.1 hc)
      simpa using h c hmem
  rw [ne_eq, hnil]
  simp

theorem head?_bareNamespace (ns : String) : (bareNamespace ns).head? ≠ some '\\' := by
  intro hhead
  have hend : bareNamespace ns <+: ns.toList.dropWhile (· == '\\') :=
    List.rdropWhile_prefix _ _
  obtain ⟨rest, hrest⟩ := hend
  have hfirst : (ns.toList.dropWhile (· == '\\')).head? = some '\\' := by
    rw [← hrest, List.head?_append, hhead, Option.some_or]
  have hnot := List.head?_dropWhile_not (· == '\\') ns.toList
  rw [hfirst] at hnot
  exact absurd hnot (by decide)

namespace Scan

/-- The source text has a namespace, and it is more than backslashes. -/
def IsNamed (s : Scan) : Prop := ∃ ns, s.nameSpace = some ns ∧ ∃ c ∈ ns.toList, c ≠ '\\'

theorem toList_qualify {s : Scan} {ns : String} (h : s.nameSpace = some ns) (owner : String) :
    (s.qualify owner).toList = '\\' :: (bareNamespace ns ++ '\\' :: owner.toList) := by
  unfold qualify
  rw [h]
  simp [bareNamespace]

theorem qualify_of_none {s : Scan} (h : s.nameSpace = none) (owner : String) :
    s.qualify owner = owner := by
  unfold qualify
  rw [h]

theorem qualify_inj {s : Scan} {a b : String} (h : s.qualify a = s.qualify b) : a = b := by
  cases hns : s.nameSpace with
  | none => rwa [qualify_of_none hns, qualify_of_none hns] at h
  | some ns =>
    have hlist := congrArg String.toList h
    rw [toList_qualify hns, toList_qualify hns, List.cons_inj_right, List.append_cancel_left_eq,
      List.cons_inj_right] at hlist
    exact String.toList_inj.1 hlist

end Scan

/-! ## Normal spellings -/

section Spelling
variable {content : String} {a b : String}

/-- Behind a namespace that names something the spelling of a class is normal already. -/
theorem normalizeClass_qualify (hs : (scan content).IsNamed) (ha : IsName a) :
    normalizeClass ((scan content).qualify a) = (scan content).qualify a := by
  obtain ⟨ns, hns, hnamed⟩ := hs
  have hlist := Scan.toList_qualify hns a
  have hblank : ∀ c ∈ ((scan content).qualify a).toList, isBlank c = false := by
    intro c hc
    rw [hlist, List.mem_cons, List.mem_append, List.mem_cons] at hc
    rcases hc with rfl | hc | rfl | hc
    · decide
    · exact isBlank_of_isQualified (isQualified_of_nameSpace hns c (mem_of_mem_bareNamespace hc))
    · decide
    · exact isBlank_of_isWord (ha.isWord c hc)
  obtain ⟨first, rest, hbare⟩ := List.exists_cons_of_ne_nil (bareNamespace_ne_nil_iff.2 hnamed)
  have hfirst : (first == '\\') = false := by
    have hhead := head?_bareNamespace ns
    rw [hbare, List.head?_cons] at hhead
    simpa using hhead
  rw [normalizeClass, trim_eq_self hblank, hlist, List.dropWhile_cons_of_pos (by decide), hbare,
    List.cons_append, List.dropWhile_cons_of_neg (by simp [hfirst]), ← List.cons_append, ← hbare,
    ← hlist, String.ofList_toList]

theorem toList_qualify_of_not_named (hs : ¬ (scan content).IsNamed) :
    ∃ slashes : List Char, (slashes = [] ∨ slashes = ['\\', '\\']) ∧
      ∀ a, ((scan content).qualify a).toList = slashes ++ a.toList := by
  cases hns : (scan content).nameSpace with
  | none => exact ⟨[], Or.inl rfl, fun a => by rw [Scan.qualify_of_none hns, List.nil_append]⟩
  | some ns =>
    have hbare : bareNamespace ns = [] := by
      by_contra hne
      exact hs ⟨ns, hns, bareNamespace_ne_nil_iff.1 hne⟩
    refine ⟨['\\', '\\'], Or.inr rfl, fun a => ?_⟩
    rw [Scan.toList_qualify hns, hbare]
    rfl

theorem normalizeClass_qualify_of_not_named (hs : ¬ (scan content).IsNamed) (ha : IsName a) :
    (normalizeClass ((scan content).qualify a)).toList = '\\' :: a.toList := by
  obtain ⟨slashes, hslashes, hqualify⟩ := toList_qualify_of_not_named hs
  have hback : ∀ c ∈ slashes, (c == '\\') = true := by
    rcases hslashes with rfl | rfl <;> simp
  have hblank : ∀ c ∈ slashes ++ a.toList, isBlank c = false := by
    intro c hc
    rcases List.mem_append.1 hc with hc | hc
    · rw [beq_iff_eq.1 (hback c hc)]
      decide
    · exact isBlank_of_isWord (ha.isWord c hc)
  have hname : ∀ c ∈ a.toList, (c == '\\') = false := by
    intro c hc
    rw [beq_eq_false_iff_ne]
    rintro rfl
    exact absurd (ha.isWord _ hc) (by decide)
  rw [normalizeClass, String.toList_ofList, hqualify, trim_eq_self hblank,
    List.dropWhile_append_of_pos hback, dropWhile_eq_self hname]

/-- Without such a namespace a class is looked up under a spelling that no class is listed
under. -/
theorem qualify_ne_of_not_named (hs : ¬ (scan content).IsNamed) (ha : IsName a) (hb : IsName b) :
    normalizeClass ((scan content).qualify a) ≠ (scan content).qualify b := by
  intro heq
  have hlist := congrArg String.toList heq
  obtain ⟨slashes, hslashes, hqualify⟩ := toList_qualify_of_not_named hs
  rw [normalizeClass_qualify_of_not_named hs ha, hqualify] at hlist
  rcases hslashes with rfl | rfl
  · apply hb.head?_ne
    rw [← List.nil_append b.toList, ← hlist, List.head?_cons]
  · apply ha.head?_ne
    rw [(List.cons.inj hlist).2]
    rfl

end Spelling

end VersionedApi.Docblock
