import Mathlib.Data.String.Basic
import VersionedApi.Proofs.SortedMap
import VersionedApi.Proofs.Text.Cut
import VersionedApi.Proofs.Version.Literal

/-!
# Dotted texts are in a total order

* `Compares.eq_iff`, `Compares.swap`, `Compares.cmp_trans` : a comparison that agrees with a strict
  order is a total order itself;
* `Number.text_inj` : different versions have different texts; `compareDotted_text` : the texts of
  versions that are not negative are in the order of the versions;
* `Same`, `Lower` : two lists of numbers, continued with zeros, are the same, or the first one has
  the smaller number at the first place where they differ; `says_compareParts` : lists of parts are
  compared in this way;
* `Earlier` : a text comes before another by its parts, or by its characters if the parts are the
  same; `agrees_compareDotted` : texts are compared by this strict order;
* `compareDotted_orders` : so texts are in a total order, and texts of versions are in the order of
  the versions.
-/

namespace VersionedApi

/-! ## Comparisons that agree with a strict order -/

namespace Compares

variable {κ : Type} {before : κ → κ → Prop} {cmp : κ → κ → Ordering} {k l m : κ}
  (h : Compares before cmp)
include h

/-- The comparison answers what the order says, and nothing else. -/
theorem eq_iff {o : Ordering} : cmp k l = o ↔ Says o (before k l) (k = l) (before l k) := by
  constructor
  · rintro rfl
    exact h.agrees k l
  · intro ho
    have hsays := h.agrees k l
    have hasymm : before k l → ¬ before l k := fun hkl hlk => h.irrefl k (h.trans hkl hlk)
    have hne : k = l → ¬ before k l ∧ ¬ before l k := by
      rintro rfl
      exact ⟨h.irrefl k, h.irrefl k⟩
    unfold Agrees at hsays
    cases hc : cmp k l <;> cases o <;> simp_all [Says]

theorem isLE_iff : (cmp k l).isLE = true ↔ before k l ∨ k = l := by
  have hlt : cmp k l = .lt ↔ before k l := h.eq_iff
  have heq : cmp k l = .eq ↔ k = l := h.eq_iff
  rw [← hlt, ← heq]
  cases cmp k l <;> decide

theorem isLE_trans (hkl : (cmp k l).isLE = true) (hlm : (cmp l m).isLE = true) :
    (cmp k m).isLE = true := by
  rw [h.isLE_iff] at hkl hlm ⊢
  rcases hkl with hkl | rfl
  · rcases hlm with hlm | rfl
    · exact Or.inl (h.trans hkl hlm)
    · exact Or.inl hkl
  · exact hlm

theorem swap : cmp l k = (cmp k l).swap := by
  rw [h.eq_iff]
  rcases h.trichotomy k l with ⟨hc, hkl⟩ | ⟨hc, rfl⟩ | ⟨hc, hlk⟩
  · rw [hc]
    exact hkl
  · rw [hc]
    exact rfl
  · rw [hc]
    exact hlk

theorem isLE_total : ((cmp k l).isLE || (cmp l k).isLE) = true := by
  rw [h.swap (k := k)]
  cases cmp k l <;> decide

theorem cmp_trans {o : Ordering} (hkl : cmp k l = o) (hlm : cmp l m = o) : cmp k m = o := by
  rw [h.eq_iff] at hkl hlm ⊢
  cases o with
  | lt => exact h.trans hkl hlm
  | eq => exact Eq.trans hkl hlm
  | gt => exact h.trans hlm hkl

end Compares

namespace Version

open VersionedApi.Text

/-! ## Versions by their texts -/

/-- The major version that a version's text shows: none can be read behind a sign. -/
def Number.shownMajor (n : Number) : Nat := if n.tenths < 0 then 0 else n.tenths.natAbs / 10

theorem natural?_minus (bound : Nat) (cs : List Char) : natural? bound ('-' :: cs) = none := rfl

theorem ne_point_of_mem_digits {k : Nat} {c : Char} (h : c ∈ digits k) : (c == '.') = false := by
  rw [beq_eq_false_iff_ne]
  rintro rfl
  exact absurd (isAsciiDigit_of_mem_digits h) (by decide)

theorem Number.toList_text_eq (n : Number) :
    n.text.toList = ((if n.tenths < 0 then ['-'] else []) ++ digits (n.tenths.natAbs / 10)) ++
      '.' :: digits (n.tenths.natAbs % 10) := by
  simp [text]

theorem Number.pieces_text (n : Number) :
    pieces (· == '.') n.text.toList =
      [(if n.tenths < 0 then ['-'] else []) ++ digits (n.tenths.natAbs / 10),
        digits (n.tenths.natAbs % 10)] := by
  have hfront : ∀ c ∈ (if n.tenths < 0 then ['-'] else []) ++ digits (n.tenths.natAbs / 10),
      (c == '.') = false := by
    intro c hc
    rcases List.mem_append.1 hc with hc | hc
    · split at hc
      · rw [List.mem_singleton.1 hc]
        rfl
      · cases hc
    · exact ne_point_of_mem_digits hc
  rw [toList_text_eq, pieces_append_cons hfront rfl,
    pieces_of_not fun c => ne_point_of_mem_digits]

theorem dottedParts_text_eq (n : Number) :
    dottedParts n.text = [n.shownMajor, n.tenths.natAbs % 10] := by
  have hsmall : n.tenths.natAbs ≤ partMax := by
    have hmin := n.axisMin_le
    have hmax := n.le_axisMax
    unfold axisMin at hmin
    unfold axisMax at hmax
    unfold partMax
    omega
  have htrim : ∀ k, trim (digits k) = digits k :=
    fun k => trim_eq_self fun c => isBlank_of_mem_digits
  rw [dottedParts, Number.pieces_text, List.map_cons, List.map_singleton, htrim,
    natural?_digits (by omega), Number.shownMajor]
  by_cases hn : n.tenths < 0
  · have hblank : ∀ c ∈ '-' :: digits (n.tenths.natAbs / 10), isBlank c = false := by
      intro c hc
      rcases List.mem_cons.1 hc with rfl | hc
      · decide
      · exact isBlank_of_mem_digits hc
    rw [if_pos hn, if_pos hn, List.singleton_append, trim_eq_self hblank, natural?_minus]
    rfl
  · rw [if_neg hn, if_neg hn, List.nil_append, htrim, natural?_digits (by omega)]
    rfl

/-- Different versions have different texts. -/
theorem Number.text_inj {m n : Number} (h : m.text = n.text) : m = n := by
  have hpieces := congrArg (fun s => pieces (· == '.') s.toList) h
  simp only [pieces_text, List.cons.injEq, and_true] at hpieces
  obtain ⟨hmajor, hminor⟩ := hpieces
  have hminus : ∀ (k : Nat) (cs : List Char), '-' :: cs ≠ digits k := by
    intro k cs heq
    have hdigit : isAsciiDigit '-' = true := isAsciiDigit_of_mem_digits (heq ▸ List.mem_cons_self)
    exact absurd hdigit (by decide)
  have hvalue {j k : Nat} (heq : digits j = digits k) : j = k := by
    rw [← value_digits j, heq, value_digits]
  have hmod := hvalue hminor
  apply eq_of_tenths
  by_cases hm : m.tenths < 0
  · by_cases hn : n.tenths < 0
    · rw [if_pos hm, if_pos hn] at hmajor
      have hdiv := hvalue (List.append_cancel_left hmajor)
      omega
    · rw [if_pos hm, if_neg hn] at hmajor
      exact absurd hmajor (hminus _ _)
  · by_cases hn : n.tenths < 0
    · rw [if_neg hm, if_pos hn] at hmajor
      exact absurd hmajor.symm (hminus _ _)
    · rw [if_neg hm, if_neg hn] at hmajor
      have hdiv := hvalue hmajor
      omega

theorem dottedParts_text {n : Number} (h : 0 ≤ n.tenths) :
    dottedParts n.text = [n.tenths.natAbs / 10, n.tenths.natAbs % 10] := by
  rw [dottedParts_text_eq, Number.shownMajor, if_neg (by omega)]

theorem compareParts_pair {a b c d : Nat} (hb : b < 10) (hd : d < 10) :
    compareParts [a, b] [c, d] = compare (10 * a + b) (10 * c + d) := by
  rw [compareParts, compareParts, compareParts]
  rcases Nat.lt_trichotomy a c with hlt | rfl | hgt
  · rw [compare_lt_iff_lt.2 hlt, compare_lt_iff_lt.2 (show 10 * a + b < 10 * c + d by omega)]
    rfl
  · rw [compare_eq_iff_eq.2 rfl]
    rcases Nat.lt_trichotomy b d with hlt | rfl | hgt
    · rw [compare_lt_iff_lt.2 hlt, compare_lt_iff_lt.2 (show 10 * a + b < 10 * a + d by omega)]
      rfl
    · rw [compare_eq_iff_eq.2 rfl, compare_eq_iff_eq.2 rfl]
      rfl
    · rw [compare_gt_iff_gt.2 hgt, compare_gt_iff_gt.2 (show 10 * a + d < 10 * a + b by omega)]
      rfl
  · rw [compare_gt_iff_gt.2 hgt, compare_gt_iff_gt.2 (show 10 * c + d < 10 * a + b by omega)]
    rfl

/-- Texts of versions are compared as the versions are. -/
theorem compareDotted_text {m n : Number} (hm : 0 ≤ m.tenths) (hn : 0 ≤ n.tenths) :
    compareDotted m.text n.text = compare m.tenths n.tenths := by
  rw [compareDotted, dottedParts_text hm, dottedParts_text hn,
    compareParts_pair (Nat.mod_lt _ (by decide)) (Nat.mod_lt _ (by decide)), Nat.div_add_mod,
    Nat.div_add_mod]
  rcases Int.lt_trichotomy m.tenths n.tenths with hlt | heq | hgt
  · rw [compare_lt_iff_lt.2 hlt,
      compare_lt_iff_lt.2 (show m.tenths.natAbs < n.tenths.natAbs by omega)]
    rfl
  · obtain rfl : m = n := Number.eq_of_tenths heq
    rw [compare_eq_iff_eq.2 rfl, compare_eq_iff_eq.2 rfl, compare_eq_iff_eq.2 rfl]
    rfl
  · rw [compare_gt_iff_gt.2 hgt,
      compare_gt_iff_gt.2 (show n.tenths.natAbs < m.tenths.natAbs by omega)]
    rfl

/-! ## Lists of parts -/

/-- The same numbers, if the lists are continued with zeros. -/
def Same (ls rs : List Nat) : Prop := ∀ i, ls.getD i 0 = rs.getD i 0

/-- The first number that differs is smaller, if the lists are continued with zeros. -/
def Lower (ls rs : List Nat) : Prop :=
  ∃ i, (∀ j < i, ls.getD j 0 = rs.getD j 0) ∧ ls.getD i 0 < rs.getD i 0

theorem getD_succ (ls : List Nat) (i : Nat) : ls.getD (i + 1) 0 = ls.tail.getD i 0 := by
  cases ls <;> simp

theorem getD_zero (ls : List Nat) : ls.getD 0 0 = ls.headD 0 := by
  cases ls <;> simp

theorem same_iff {ls rs : List Nat} :
    Same ls rs ↔ ls.headD 0 = rs.headD 0 ∧ Same ls.tail rs.tail := by
  constructor
  · intro h
    exact ⟨by simpa only [getD_zero] using h 0, fun i => by simpa only [getD_succ] using h (i + 1)⟩
  · rintro ⟨hhead, htail⟩ i
    cases i with
    | zero => rwa [getD_zero, getD_zero]
    | succ i =>
      rw [getD_succ, getD_succ]
      exact htail i

theorem lower_iff {ls rs : List Nat} :
    Lower ls rs ↔ ls.headD 0 < rs.headD 0 ∨ ls.headD 0 = rs.headD 0 ∧ Lower ls.tail rs.tail := by
  constructor
  · rintro ⟨i, heq, hlt⟩
    cases i with
    | zero =>
      rw [getD_zero, getD_zero] at hlt
      exact Or.inl hlt
    | succ i =>
      have hhead := heq 0 (by omega)
      rw [getD_zero, getD_zero] at hhead
      refine Or.inr ⟨hhead, i, fun j hj => ?_, by simpa only [getD_succ] using hlt⟩
      simpa only [getD_succ] using heq (j + 1) (by omega)
  · rintro (hlt | ⟨hhead, i, heq, hlt⟩)
    · exact ⟨0, by omega, by rwa [getD_zero, getD_zero]⟩
    · refine ⟨i + 1, fun j hj => ?_, by rwa [getD_succ, getD_succ]⟩
      cases j with
      | zero => rwa [getD_zero, getD_zero]
      | succ j =>
        rw [getD_succ, getD_succ]
        exact heq j (by omega)

theorem compareParts_eq (ls rs : List Nat) :
    compareParts ls rs = (compare (ls.headD 0) (rs.headD 0)).then (compareParts ls.tail rs.tail) := by
  cases ls <;> cases rs <;> simp [compareParts]

theorem says_compareParts_tail {ls rs : List Nat}
    (h : Says (compareParts ls.tail rs.tail) (Lower ls.tail rs.tail) (Same ls.tail rs.tail)
      (Lower rs.tail ls.tail)) :
    Says (compareParts ls rs) (Lower ls rs) (Same ls rs) (Lower rs ls) := by
  rw [compareParts_eq, lower_iff, same_iff, @lower_iff rs]
  exact says_then (ls.headD 0) (rs.headD 0) h

theorem says_compareParts (ls rs : List Nat) :
    Says (compareParts ls rs) (Lower ls rs) (Same ls rs) (Lower rs ls) := by
  induction ls, rs using compareParts.induct with
  | case1 =>
    rw [compareParts]
    exact fun i => rfl
  | case2 r rs ih => exact says_compareParts_tail ih
  | case3 l ls ih => exact says_compareParts_tail ih
  | case4 l ls r rs ih => exact says_compareParts_tail ih

theorem Lower.irrefl (ls : List Nat) : ¬ Lower ls ls := by
  rintro ⟨i, -, hlt⟩
  omega

theorem Lower.trans {ls ms rs : List Nat} (hlm : Lower ls ms) (hmr : Lower ms rs) :
    Lower ls rs := by
  obtain ⟨i, heq, hlt⟩ := hlm
  obtain ⟨j, heq', hlt'⟩ := hmr
  -- the first difference is where either pair differs first
  refine ⟨min i j, fun k hk => ?_, ?_⟩
  · have hk := heq k (by omega)
    have hk' := heq' k (by omega)
    omega
  · rcases Nat.lt_trichotomy i j with hij | rfl | hij
    · have hi := heq' i hij
      rw [Nat.min_eq_left (by omega)]
      omega
    · rw [Nat.min_self]
      omega
    · have hj := heq j hij
      rw [Nat.min_eq_right (by omega)]
      omega

theorem Same.lower_iff_left {ls ms rs : List Nat} (h : Same ls ms) : Lower ls rs ↔ Lower ms rs := by
  unfold Lower
  simp only [h _]

theorem Same.lower_iff_right {ls ms rs : List Nat} (h : Same ms rs) :
    Lower ls ms ↔ Lower ls rs := by
  unfold Lower
  simp only [h _]

/-! ## Texts -/

/-- The text comes first: by its parts as numbers, or by its characters if those are the same. -/
def Earlier (a b : String) : Prop :=
  Lower (dottedParts a) (dottedParts b) ∨ Same (dottedParts a) (dottedParts b) ∧ a < b

theorem Earlier.irrefl (a : String) : ¬ Earlier a a := by
  rintro (h | ⟨-, h⟩)
  · exact Lower.irrefl _ h
  · exact lt_irrefl a h

theorem Earlier.trans {a b c : String} (hab : Earlier a b) (hbc : Earlier b c) : Earlier a c := by
  rcases hab with hab | ⟨eab, hab⟩
  · rcases hbc with hbc | ⟨ebc, -⟩
    · exact Or.inl (hab.trans hbc)
    · exact Or.inl (ebc.lower_iff_right.1 hab)
  · rcases hbc with hbc | ⟨ebc, hbc⟩
    · exact Or.inl (eab.lower_iff_left.2 hbc)
    · exact Or.inr ⟨fun i => (eab i).trans (ebc i), lt_trans hab hbc⟩

theorem agrees_compareDotted (a b : String) : Agrees Earlier compareDotted a b := by
  have hparts := says_compareParts (dottedParts a) (dottedParts b)
  have htext := agrees_compare_lt a b
  unfold Agrees at htext ⊢
  rw [compareDotted]
  cases hc : compareParts (dottedParts a) (dottedParts b) with
  | lt =>
    rw [hc] at hparts
    exact Or.inl hparts
  | eq =>
    rw [hc] at hparts
    exact htext.imp (fun h => Or.inr ⟨hparts, h⟩) id
      fun h => Or.inr ⟨fun i => (hparts i).symm, h⟩
  | gt =>
    rw [hc] at hparts
    exact Or.inl hparts

theorem compares_earlier : Compares Earlier compareDotted :=
  ⟨agrees_compareDotted, Earlier.irrefl, Earlier.trans⟩

theorem compareDotted_eq_lt_iff {a b : String} : compareDotted a b = .lt ↔ Earlier a b :=
  compares_earlier.eq_iff

theorem earlier_text {m n : Number} (hm : 0 ≤ m.tenths) (hn : 0 ≤ n.tenths) :
    Earlier m.text n.text ↔ m < n := by
  rw [← compareDotted_eq_lt_iff, compareDotted_text hm hn, compare_lt_iff_lt]
  rfl

/-- The comparison of dotted texts is a total order: only a text itself is equal to it, the other
way round the answer is reversed, and the answers are transitive. The texts of two versions that are
not negative are compared as the versions are. -/
theorem compareDotted_orders :
    (∀ a b, compareDotted a b = .eq ↔ a = b) ∧
      (∀ a b, compareDotted b a = (compareDotted a b).swap) ∧
      (∀ a b c o, compareDotted a b = o → compareDotted b c = o → compareDotted a c = o) ∧
      ∀ m n : Number, 0 ≤ m.tenths → 0 ≤ n.tenths →
        compareDotted m.text n.text = compare m.tenths n.tenths := by
  refine ⟨fun a b => ?_, fun a b => ?_, fun a b c o => ?_, fun m n => compareDotted_text⟩
  · exact compares_earlier.eq_iff
  · exact compares_earlier.swap
  · exact compares_earlier.cmp_trans

/-- `1` comes before `1.x` by its characters and `1.x` before `1.2` by its parts, so `1` comes before
`1.2`; and `9.8` comes before `10.1`. -/
theorem compareDotted_orders_parts :
    compareDotted "1" "1.x" = .lt ∧ compareDotted "1.x" "1.2" = .lt ∧
      compareDotted "1" "1.2" = .lt ∧ compareDotted "9.8" "10.1" = .lt := by
  have hone : dottedParts "1" = [1] := by decide +kernel
  have hletter : dottedParts "1.x" = [1, 0] := by decide +kernel
  have htwo : dottedParts "1.2" = [1, 2] := by decide +kernel
  have hchars : compareDotted "1" "1.x" = .lt := by
    rw [compareDotted, hone, hletter]
    simp only [compareParts]
    decide +kernel
  have hparts : compareDotted "1.x" "1.2" = .lt := by
    rw [compareDotted, hletter, htwo]
    simp only [compareParts]
    decide +kernel
  have hnumbers := compareDotted_orders.2.2.2 ⟨98, by decide, by decide⟩ ⟨101, by decide, by decide⟩
    (by decide) (by decide)
  exact ⟨hchars, hparts, compareDotted_orders.2.2.1 _ _ _ _ hchars hparts, hnumbers⟩

end Version

end VersionedApi
