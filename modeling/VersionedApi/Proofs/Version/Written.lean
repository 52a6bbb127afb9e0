import VersionedApi.Proofs.Text.Cut
import VersionedApi.Version.Range

/-!
# Versions read back from their texts

* `value_digits`, `isNumeral_digits`, `natural?_digits` : a number in base ten is a numeral that
  denotes it, and is read back from it;
* `Number.ofText?_text` : a version that is not negative is read back from its text;
* `Range.since_eq` : so the constraint of a version and all behind it can always be read, and its
  interval begins at that version and is open above.
-/

namespace VersionedApi.Text

/-! ## Numerals -/

theorem isAsciiDigit_of_mem_digits {n : Nat} {c : Char} (h : c ∈ digits n) :
    isAsciiDigit c = true := by
  have hd : c.isDigit = true := Nat.isDigit_of_mem_toDigits (by decide) (by decide) h
  simpa [isAsciiDigit, Char.isDigit, Char.le_def] using hd

theorem isNumeral_digits (n : Nat) : isNumeral (digits n) = true := by
  have hne : digits n ≠ [] := Nat.toDigits_ne_nil
  simp only [isNumeral, Bool.and_eq_true, Bool.not_eq_true', List.isEmpty_eq_false_iff,
    List.all_eq_true]
  exact ⟨hne, fun c hc => isAsciiDigit_of_mem_digits hc⟩

theorem value_digits (n : Nat) : value (digits n) = n := by
  have h : Nat.ofDigitChars 10 (digits n) 0 = n := Nat.ofDigitChars_ten_toDigits
  rwa [Nat.ofDigitChars_eq_foldl] at h

theorem digits_of_lt_ten {n : Nat} (h : n < 10) : digits n = [n.digitChar] :=
  Nat.toDigits_of_lt_base h

theorem isDigit_of_isAsciiDigit {c : Char} (h : isAsciiDigit c = true) : isDigit c = true := by
  have hle : c.toNat ≤ '9'.toNat := by
    simp only [isAsciiDigit, Bool.and_eq_true, decide_eq_true_eq] at h
    exact h.2
  have hlt : c.toNat < 0x80 := Nat.lt_of_le_of_lt hle (by decide)
  rw [isDigit, if_pos hlt, h]

/-- The codes of the blanks from U+0080 on. -/
def wideBlanks : List Nat :=
  [0x85, 0xA0, 0x1680, 0x2000, 0x2001, 0x2002, 0x2003, 0x2004, 0x2005, 0x2006, 0x2007, 0x2008,
    0x2009, 0x200A, 0x2028, 0x2029, 0x202F, 0x205F, 0x3000]

theorem toNat_mem_wideBlanks {c : Char} (h : isBlank c = true) (hwide : ¬ c.toNat < 0x80) :
    c.toNat ∈ wideBlanks := by
  simp only [isBlank, Bool.or_eq_true, Bool.and_eq_true, decide_eq_true_eq, beq_iff_eq] at h
  simp only [wideBlanks, List.mem_cons, List.not_mem_nil, or_false]
  omega

theorem isBlank_of_isAsciiDigit {c : Char} (h : isAsciiDigit c = true) : isBlank c = false := by
  simp only [isAsciiDigit, Bool.and_eq_true, decide_eq_true_eq] at h
  have h0 : '0'.toNat ≤ c.toNat := h.1
  have h9 : c.toNat ≤ '9'.toNat := h.2
  have e0 : '0'.toNat = 48 := rfl
  have e9 : '9'.toNat = 57 := rfl
  simp only [isBlank, Bool.or_eq_false_iff, Bool.and_eq_false_iff, decide_eq_false_iff_not,
    beq_eq_false_iff_ne, ne_eq]
  omega

theorem natural?_digits {bound n : Nat} (h : n ≤ bound) : natural? bound (digits n) = some n := by
  have hplus : ∀ rest, digits n ≠ '+' :: rest := by
    intro rest heq
    have hdigit : isAsciiDigit '+' = true := isAsciiDigit_of_mem_digits (heq ▸ List.mem_cons_self)
    exact absurd hdigit (by decide)
  unfold natural?
  dsimp only
  split
  · rename_i heq
    exact absurd heq (hplus _)
  · rw [isNumeral_digits, value_digits]
    simp [h]

theorem isBlank_of_mem_digits {n : Nat} {c : Char} (h : c ∈ digits n) : isBlank c = false :=
  isBlank_of_isAsciiDigit (isAsciiDigit_of_mem_digits h)

end VersionedApi.Text

namespace VersionedApi.Version

open VersionedApi.Text

/-! ## Versions -/

namespace Number

theorem toList_text {n : Number} (h : 0 ≤ n.tenths) :
    n.text.toList =
      digits (n.tenths.natAbs / 10) ++ '.' :: digits (n.tenths.natAbs % 10) := by
  have hn : ¬ n.tenths < 0 := by omega
  simp [text, hn]

theorem mem_text {n : Number} (h : 0 ≤ n.tenths) {c : Char} (hc : c ∈ n.text.toList) :
    isAsciiDigit c = true ∨ c = '.' := by
  rw [toList_text h, List.mem_append, List.mem_cons] at hc
  rcases hc with hc | hc | hc
  · exact Or.inl (isAsciiDigit_of_mem_digits hc)
  · exact Or.inr hc
  · exact Or.inl (isAsciiDigit_of_mem_digits hc)

theorem isBlank_of_mem_text {n : Number} (h : 0 ≤ n.tenths) {c : Char} (hc : c ∈ n.text.toList) :
    isBlank c = false := by
  rcases mem_text h hc with hd | rfl
  · exact isBlank_of_isAsciiDigit hd
  · decide

theorem minorTenths_digits {n : Nat} (h : n < 10) : minorTenths (digits n) = n := by
  have hv := value_digits n
  rw [digits_of_lt_ten h] at hv ⊢
  exact hv

theorem ofTenths?_tenths (n : Number) : ofTenths? n.tenths = some n := by
  unfold ofTenths?
  rw [dif_pos ⟨n.axisMin_le, n.le_axisMax⟩]

/-- Of three steps that only go up, the last one decides whether all are on the axis. -/
theorem onAxis?_steps (major minor : Nat) :
    ((onAxis? major).bind fun whole =>
      (onAxis? (whole * 10)).bind fun tenths => ofTenths? (tenths + minor)) =
      ofTenths? (10 * major + minor : Nat) := by
  have hsum : ((10 * major + minor : Nat) : Int) = (major : Int) * 10 + minor := by omega
  rw [hsum]
  by_cases hmajor : axisMin ≤ (major : Int) ∧ (major : Int) ≤ axisMax
  · rw [onAxis?, if_pos hmajor, Option.bind_some]
    by_cases htenths : axisMin ≤ (major : Int) * 10 ∧ (major : Int) * 10 ≤ axisMax
    · rw [onAxis?, if_pos htenths, Option.bind_some]
    · rw [onAxis?, if_neg htenths, Option.bind_none, ofTenths?, dif_neg]
      unfold axisMin at *
      omega
  · rw [onAxis?, if_neg hmajor, Option.bind_none, ofTenths?, dif_neg]
    unfold axisMin at *
    omega

theorem ofText?_eq (cs : List Char) :
    ofText? cs = (cutAt ['.'] (trim cs)).bind fun parts =>
      if isNumeral parts.1 && isNumeral parts.2 then
        ofTenths? (10 * value parts.1 + minorTenths parts.2 : Nat)
      else none := by
  simp only [← onAxis?_steps]
  rfl

theorem ofText?_text {n : Number} (h : 0 ≤ n.tenths) : ofText? n.text.toList = some n := by
  have hdot : '.' ∉ digits (n.tenths.natAbs / 10) := fun hm => by
    have := isAsciiDigit_of_mem_digits hm
    exact absurd this (by decide)
  have hcut : cutAt ['.'] (trim n.text.toList) =
      some (digits (n.tenths.natAbs / 10), digits (n.tenths.natAbs % 10)) := by
    rw [trim_eq_self fun c hc => isBlank_of_mem_text h hc, toList_text h, cutAt_mark _ hdot]
  have hsum : ((10 * (n.tenths.natAbs / 10) + n.tenths.natAbs % 10 : Nat) : Int) = n.tenths := by
    omega
  rw [ofText?_eq, hcut]
  simp only [Option.bind_some, isNumeral_digits, Bool.and_self, if_true, value_digits]
  rw [minorTenths_digits (Nat.mod_lt _ (by decide)), hsum, ofTenths?_tenths]

theorem tenths_nonneg_of_ofText? {cs : List Char} {n : Number} (h : ofText? cs = some n) :
    0 ≤ n.tenths := by
  rw [ofText?_eq] at h
  obtain ⟨⟨major, minor⟩, -, h⟩ := Option.bind_eq_some_iff.1 h
  dsimp only at h
  split at h
  · unfold ofTenths? at h
    split at h
    · cases h
      exact Int.natCast_nonneg _
    · cases h
  · cases h

end Number

/-! ## The constraint of a version and all behind it -/

namespace Interval

theorem isPointShape_text {n : Number} (h : 0 ≤ n.tenths) : isPointShape n.text.toList = true := by
  have hdot : isDigit '.' = false := by decide
  have hmajor : ∀ c ∈ digits (n.tenths.natAbs / 10), isDigit c = true := fun c hc =>
    isDigit_of_isAsciiDigit (isAsciiDigit_of_mem_digits hc)
  have hminor : ∀ c ∈ digits (n.tenths.natAbs % 10), isDigit c = true := fun c hc =>
    isDigit_of_isAsciiDigit (isAsciiDigit_of_mem_digits hc)
  have hne (k : Nat) : digits k ≠ [] := Nat.toDigits_ne_nil
  have htake : n.text.toList.takeWhile isDigit = digits (n.tenths.natAbs / 10) := by
    rw [Number.toList_text h, List.takeWhile_append_of_pos hmajor,
      List.takeWhile_cons_of_neg (by simp [hdot]), List.append_nil]
  have hdrop : n.text.toList.dropWhile isDigit = '.' :: digits (n.tenths.natAbs % 10) := by
    rw [Number.toList_text h, List.dropWhile_append_of_pos hmajor,
      List.dropWhile_cons_of_neg (by simp [hdot])]
  simp only [isPointShape, hdrop, htake]
  simp only [Bool.and_eq_true, Bool.not_eq_true', List.isEmpty_eq_false_iff, List.all_eq_true]
  exact ⟨⟨hne _, hne _⟩, hminor⟩

end Interval

/-- The constraint is read without a fault, and it begins at the version and is open above. -/
theorem Range.since_eq {n : Number} (h : 0 ≤ n.tenths) :
    Range.since n = .ok { first := some n, last := none, text := ">=" ++ n.text } := by
  have hlist : (">=" ++ n.text).toList = '>' :: '=' :: n.text.toList := by simp
  have hblank : ∀ c ∈ '>' :: '=' :: n.text.toList, isBlank c = false := by
    intro c hc
    simp only [List.mem_cons] at hc
    rcases hc with rfl | rfl | hc
    · decide
    · decide
    · exact Number.isBlank_of_mem_text h hc
  have hspace : ' ' ∉ '>' :: '=' :: n.text.toList := fun hm => by
    have := hblank _ hm
    exact absurd this (by decide)
  have hnumber : Number.read (String.ofList n.text.toList) = .ok n := by
    rw [Number.read, String.toList_ofList, Number.ofText?_text h]
  have hsingle : Interval.readSingle ('>' :: '=' :: n.text.toList) = .ok ⟨some n, none⟩ := by
    rw [Interval.readSingle]
    simp only [Operator.read?, Interval.isPointShape_text h, if_true, hnumber]
    rfl
  have htext : String.ofList ('>' :: '=' :: n.text.toList) = ">=" ++ n.text := by
    rw [← hlist, String.ofList_toList]
  rw [since, read, hlist, trim_eq_self hblank, cutAt_eq_none _ hspace]
  simp only [hsingle, htext]
  rfl

end VersionedApi.Version
