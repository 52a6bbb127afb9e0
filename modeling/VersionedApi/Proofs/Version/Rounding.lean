import Mathlib.Data.Nat.Digits.Defs
import Mathlib.Data.Rat.Floor
import VersionedApi.Proofs.Version.Literal

/-!
# Rounding to the version axis

* `decimal` : the rational number that digits before and behind a point denote;
* `Number.tenthsOf_eq_floor` : the tenths of a literal are ten times that number, rounded half up;
* `Number.Denotes` : a text in the form of a literal, and its number;
* `Number.read_rounds` : reading a text rounds its number half up to the axis. It fails exactly on
  texts of another form and on numbers that are rounded to beyond the end of the axis.
-/

namespace VersionedApi.Text

/-! ## Decimals -/

def digit (c : Char) : Nat := c.toNat - '0'.toNat

def fraction : List Char → ℚ
  | [] => 0
  | c :: cs => (digit c + fraction cs) / 10

/-- What digits before and behind a point denote. -/
def decimal (whole part : List Char) : ℚ :=
  (Nat.ofDigits 10 (whole.reverse.map digit) : ℕ) + fraction part

theorem value_eq_ofDigits (cs : List Char) : value cs = Nat.ofDigits 10 (cs.reverse.map digit) := by
  rw [Nat.ofDigits_eq_foldr, List.foldr_map, List.foldr_reverse]
  simp only [value, digit, Nat.cast_id, Nat.add_comm]

theorem fraction_eq (cs : List Char) : fraction cs = value cs / 10 ^ cs.length := by
  induction cs with
  | nil => simp [fraction, value]
  | cons c cs ih =>
    have hsplit : value (c :: cs) = digit c * 10 ^ cs.length + value cs := by
      rw [← List.singleton_append, value_append]
      simp [value, digit]
    rw [fraction, ih, hsplit, List.length_cons, pow_succ]
    push_cast
    field_simp

theorem decimal_eq (whole part : List Char) :
    decimal whole part = value (whole ++ part) / 10 ^ part.length := by
  rw [decimal, ← value_eq_ofDigits, fraction_eq, value_append]
  push_cast
  field_simp

theorem isAsciiDigit_eq (c : Char) : isAsciiDigit c = c.isDigit := by
  simp [isAsciiDigit, Char.isDigit, Char.le_def]

end VersionedApi.Text

namespace VersionedApi.Version.Number

open VersionedApi.Text

/-! ## Literals -/

/-- The tenths of a literal are ten times what it denotes, rounded half up. -/
theorem tenthsOf_eq_floor (whole part : List Char) :
    (tenthsOf whole part : Int) = ⌊10 * decimal whole part + 1 / 2⌋ := by
  have hquotient : 10 * decimal whole part + 1 / 2 =
      ((20 * value (whole ++ part) + 10 ^ part.length : ℕ) : ℚ) / (2 * 10 ^ part.length : ℕ) := by
    rw [decimal_eq]
    push_cast
    field_simp
    ring
  rw [hquotient, Rat.floor_natCast_div_natCast, tenthsOf, Int.natCast_ediv]

/-- The text is two runs of digits around a point and denotes the number. -/
def Denotes (cs : List Char) (x : ℚ) : Prop :=
  ∃ whole part, cs = whole ++ '.' :: part ∧ whole ≠ [] ∧ part ≠ [] ∧
    (∀ c ∈ whole ++ part, c.isDigit = true) ∧ x = decimal whole part

theorem literal_iff {cs : List Char} {n : Number} :
    Literal cs n ↔ ∃ x, Denotes cs x ∧ n.tenths = ⌊10 * x + 1 / 2⌋ := by
  constructor
  · rintro ⟨whole, part, hcs, hwhole, hpart, htenths⟩
    rw [isNumeral_iff] at hwhole hpart
    refine ⟨decimal whole part, ⟨whole, part, hcs, hwhole.1, hpart.1, fun c hc => ?_, rfl⟩, ?_⟩
    · rw [← isAsciiDigit_eq]
      exact (List.mem_append.1 hc).elim (hwhole.2 c) (hpart.2 c)
    · rw [htenths, tenthsOf_eq_floor]
  · rintro ⟨x, ⟨whole, part, hcs, hwhole, hpart, hdigits, rfl⟩, htenths⟩
    simp only [← isAsciiDigit_eq] at hdigits
    refine ⟨whole, part, hcs, isNumeral_iff.2 ⟨hwhole, fun c hc => hdigits c (by simp [hc])⟩,
      isNumeral_iff.2 ⟨hpart, fun c hc => hdigits c (by simp [hc])⟩, ?_⟩
    rw [htenths, tenthsOf_eq_floor]

theorem read_eq_ok_iff {s : String} {n : Number} :
    read s = .ok n ↔ ∃ x, Denotes (trim s.toList) x ∧ n.tenths = ⌊10 * x + 1 / 2⌋ := by
  rw [← literal_iff, ← ofText?_eq_some_iff, read]
  cases ofText? s.toList <;> simp

theorem Denotes.unique {cs : List Char} {x y : ℚ} (hx : Denotes cs x) (hy : Denotes cs y) :
    x = y := by
  have hcut {z : ℚ} (hz : Denotes cs z) :
      ∃ whole part, cutAt ['.'] cs = some (whole, part) ∧ z = decimal whole part := by
    obtain ⟨whole, part, rfl, -, -, hdigits, rfl⟩ := hz
    refine ⟨whole, part, cutAt_mark part fun hpoint => ?_, rfl⟩
    exact absurd (hdigits '.' (by simp [hpoint])) (by decide)
  obtain ⟨whole, part, hparts, rfl⟩ := hcut hx
  obtain ⟨whole', part', hparts', rfl⟩ := hcut hy
  rw [hparts, Option.some_inj, Prod.mk.injEq] at hparts'
  rw [hparts'.1, hparts'.2]

theorem Denotes.floor_nonneg {cs : List Char} {x : ℚ} (h : Denotes cs x) :
    0 ≤ ⌊10 * x + 1 / 2⌋ := by
  obtain ⟨whole, part, -, -, -, -, rfl⟩ := h
  rw [← tenthsOf_eq_floor]
  exact Int.natCast_nonneg _

theorem exists_read_eq_ok_iff {s : String} :
    (∃ n, read s = .ok n) ↔ ∃ x, Denotes (trim s.toList) x ∧ ⌊10 * x + 1 / 2⌋ ≤ 2147483647 := by
  simp only [read_eq_ok_iff]
  constructor
  · rintro ⟨n, x, hx, htenths⟩
    exact ⟨x, hx, htenths ▸ n.le_axisMax⟩
  · rintro ⟨x, hx, hle⟩
    have hnonneg := hx.floor_nonneg
    exact ⟨⟨⌊10 * x + 1 / 2⌋, by unfold axisMin; omega, hle⟩, x, hx, rfl⟩

theorem read_of_not_ok {s : String} (h : ¬ ∃ n, read s = .ok n) :
    read s = .error (.unrecognizedSchema (trimmed s)) := by
  unfold read at h ⊢
  cases hn : ofText? s.toList with
  | none => rfl
  | some n =>
    rw [hn] at h
    exact absurd ⟨n, rfl⟩ h

/-- A text is read if, without its outer blanks, it has the form `X.Y` in digits `0` to `9`, however
many, and the number that it denotes lies on the axis once it is rounded half up to a tenth: then
that is the version. Any other text is not recognized. A version that is not negative is read back
from its own text. -/
theorem read_rounds (s : String) :
    ((∃ n, read s = .ok n) ↔
        ∃ x, Denotes (trim s.toList) x ∧ ⌊10 * x + 1 / 2⌋ ≤ 2147483647) ∧
      (∀ n x, read s = .ok n → Denotes (trim s.toList) x → n.tenths = ⌊10 * x + 1 / 2⌋) ∧
      ((¬ ∃ x, Denotes (trim s.toList) x ∧ ⌊10 * x + 1 / 2⌋ ≤ 2147483647) →
        read s = .error (.unrecognizedSchema (trimmed s))) ∧
      ∀ n : Number, 0 ≤ n.tenths → read n.text = .ok n := by
  refine ⟨exists_read_eq_ok_iff, fun n x hn hx => ?_, fun h => ?_, fun n hn => ?_⟩
  · obtain ⟨y, hy, htenths⟩ := read_eq_ok_iff.1 hn
    rw [htenths, hy.unique hx]
  · exact read_of_not_ok fun hok => h (exists_read_eq_ok_iff.1 hok)
  · rw [read, ofText?_text hn]

/-- At the end of the axis `0214748364.65` is rounded up to the last version, and `214748364.75` to
a version that is not there. -/
theorem read_rounds_last :
    (∃ n, read " 0214748364.65" = .ok n ∧ n.tenths = 2147483647) ∧
      read "214748364.75" = .error (.unrecognizedSchema "214748364.75") := by
  have hlast : Denotes (trim " 0214748364.65".toList)
      (decimal "0214748364".toList "65".toList) :=
    ⟨_, _, by decide +kernel, by decide, by decide, List.all_eq_true.1 (by decide), rfl⟩
  have hfloor : ⌊10 * decimal "0214748364".toList "65".toList + 1 / 2⌋ = 2147483647 := by
    rw [← tenthsOf_eq_floor]
    decide +kernel
  have hbeyond : Denotes (trim "214748364.75".toList) (decimal "214748364".toList "75".toList) :=
    ⟨_, _, by decide +kernel, by decide, by decide, List.all_eq_true.1 (by decide), rfl⟩
  have hfloor' : ⌊10 * decimal "214748364".toList "75".toList + 1 / 2⌋ = 2147483648 := by
    rw [← tenthsOf_eq_floor]
    decide +kernel
  constructor
  · obtain ⟨n, hn⟩ := (read_rounds " 0214748364.65").1.2 ⟨_, hlast, by rw [hfloor]⟩
    exact ⟨n, hn, by rw [(read_rounds _).2.1 n _ hn hlast, hfloor]⟩
  · apply (read_rounds "214748364.75").2.2.1
    rintro ⟨x, hx, hle⟩
    rw [hx.unique hbeyond, hfloor'] at hle
    omega

end VersionedApi.Version.Number
