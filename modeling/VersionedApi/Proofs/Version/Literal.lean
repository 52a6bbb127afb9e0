import Mathlib.Tactic.Linarith
import Mathlib.Tactic.Ring
import VersionedApi.Proofs.Text.Cut
import VersionedApi.Proofs.Version.Axis

/-!
# Versions and operators in constraints

* `value_append`, `value_lt` : the number that digits denote;
* `Number.Literal` : a text of the form `X.Y` and the version that it denotes, rounded half up to a
  tenth; `Number.ofText?_eq_some_iff` : these are the texts that are read;
* `Operator.Spans` : the ends that an operator gives to a version; `Operator.interval?_eq_some_iff`;
* `Operator.Opens` : a text starts with an operator, after its blanks.
-/

namespace VersionedApi.Text

/-! ## Digits -/

theorem isBlank_of_isDigit {c : Char} (h : isDigit c = true) : isBlank c = false := by
  unfold isDigit at h
  split at h
  · exact isBlank_of_isAsciiDigit h
  · rename_i hn
    have htable : ∀ n ∈ wideBlanks, inRanges n digitRanges = false := by decide
    rw [Bool.eq_false_iff]
    intro hblank
    rw [htable c.toNat (toNat_mem_wideBlanks hblank hn)] at h
    cases h

theorem isNumeral_iff {cs : List Char} :
    isNumeral cs = true ↔ cs ≠ [] ∧ ∀ c ∈ cs, isAsciiDigit c = true := by
  simp [isNumeral]

theorem foldl_value (n : Nat) (cs : List Char) :
    cs.foldl (fun n c => 10 * n + (c.toNat - '0'.toNat)) n = n * 10 ^ cs.length + value cs := by
  induction cs generalizing n with
  | nil => simp [value]
  | cons c cs ih =>
    rw [value, List.foldl_cons, List.foldl_cons, ih, ih (10 * 0 + _), List.length_cons, pow_succ]
    ring

theorem value_append (as bs : List Char) :
    value (as ++ bs) = value as * 10 ^ bs.length + value bs := by
  rw [value, List.foldl_append, foldl_value]
  rfl

theorem value_singleton_lt {c : Char} (h : isAsciiDigit c = true) : value [c] < 10 := by
  simp only [isAsciiDigit, Bool.and_eq_true, decide_eq_true_eq] at h
  have h9 : c.toNat ≤ '9'.toNat := h.2
  have hvalue : value [c] = c.toNat - '0'.toNat := by simp [value]
  have e0 : '0'.toNat = 48 := rfl
  have e9 : '9'.toNat = 57 := rfl
  omega

theorem value_lt {cs : List Char} (h : ∀ c ∈ cs, isAsciiDigit c = true) :
    value cs < 10 ^ cs.length := by
  induction cs with
  | nil => decide
  | cons c cs ih =>
    have hc := value_singleton_lt (h c List.mem_cons_self)
    have hcs := ih fun d hd => h d (List.mem_cons_of_mem c hd)
    have hmul : value [c] * 10 ^ cs.length ≤ 9 * 10 ^ cs.length :=
      Nat.mul_le_mul_right _ (by omega)
    rw [← List.singleton_append, value_append, List.length_append, List.length_singleton, pow_add]
    omega

end VersionedApi.Text

namespace VersionedApi.Version

open VersionedApi.Text

namespace Number

/-! ## Versions in digits -/

/-- The tenths of a decimal numeral, given its digits before and behind the point: ten times its
value, rounded half up. -/
def tenthsOf (major minor : List Char) : Nat :=
  (20 * value (major ++ minor) + 10 ^ minor.length) / (2 * 10 ^ minor.length)

/-- Looking at two digits behind the point is enough to round. -/
theorem minorTenths_eq (major : List Char) {minor : List Char} (h : isNumeral minor = true) :
    10 * value major + minorTenths minor = tenthsOf major minor := by
  obtain ⟨hne, hdigits⟩ := isNumeral_iff.1 h
  unfold tenthsOf
  rw [value_append]
  cases minor with
  | nil => exact absurd rfl hne
  | cons d rest =>
    cases rest with
    | nil =>
      simp only [minorTenths, List.length_singleton, pow_one]
      omega
    | cons e rest =>
      have he := value_singleton_lt (hdigits e (by simp))
      have hrest : value rest < 10 ^ rest.length := value_lt fun c hc => hdigits c (by simp [hc])
      have hsplit : value (d :: e :: rest) =
          10 * (value [d] * 10 ^ rest.length) + value [e] * 10 ^ rest.length + value rest := by
        rw [show d :: e :: rest = [d] ++ ([e] ++ rest) from rfl, value_append, value_append,
          List.length_append, List.length_singleton, pow_add]
        ring
      have hlength : (d :: e :: rest).length = rest.length + 2 := rfl
      rw [hsplit, hlength, pow_add, minorTenths]
      generalize 10 ^ rest.length = p at hrest ⊢
      symm
      apply Nat.div_eq_of_lt_le
      · split
        · have : 5 * p ≤ value [e] * p := Nat.mul_le_mul_right p ‹_›
          nlinarith
        · nlinarith
      · split
        · have : value [e] * p ≤ 9 * p := Nat.mul_le_mul_right p (by omega)
          nlinarith
        · have : value [e] * p ≤ 4 * p := Nat.mul_le_mul_right p (by omega)
          nlinarith

/-- The text is `X.Y` in digits `0` to `9`, and denotes the version. -/
def Literal (cs : List Char) (n : Number) : Prop :=
  ∃ major minor, cs = major ++ '.' :: minor ∧ isNumeral major = true ∧ isNumeral minor = true ∧
    n.tenths = tenthsOf major minor

theorem ofText?_eq_some_iff {cs : List Char} {n : Number} :
    ofText? cs = some n ↔ Literal (trim cs) n := by
  rw [ofText?_eq, Option.bind_eq_some_iff]
  constructor
  · rintro ⟨⟨major, minor⟩, hcut, h⟩
    dsimp only at h
    split at h
    · rename_i hnumerals
      obtain ⟨hmajor, hminor⟩ := Bool.and_eq_true_iff.1 hnumerals
      refine ⟨major, minor, ?_, hmajor, hminor, ?_⟩
      · have heq := (cutAt_eq_some_iff.1 hcut).eq
        rwa [List.append_assoc, List.singleton_append] at heq
      · rw [ofTenths?_eq_some_iff.1 h, minorTenths_eq major hminor]
    · cases h
  · rintro ⟨major, minor, heq, hmajor, hminor, htenths⟩
    have hpoint : '.' ∉ major := fun hmem => by
      have := (isNumeral_iff.1 hmajor).2 _ hmem
      exact absurd this (by decide)
    refine ⟨(major, minor), by rw [heq, cutAt_mark minor hpoint], ?_⟩
    dsimp only
    rw [hmajor, hminor, Bool.and_self, if_pos rfl, ofTenths?_eq_some_iff, htenths,
      minorTenths_eq major hminor]

namespace Literal

variable {cs : List Char} {n : Number}

theorem tenths_nonneg (h : Literal cs n) : 0 ≤ n.tenths := by
  obtain ⟨major, minor, -, -, -, htenths⟩ := h
  omega

theorem head (h : Literal cs n) : ∃ c rest, cs = c :: rest ∧ isAsciiDigit c = true := by
  obtain ⟨major, minor, rfl, hmajor, -, -⟩ := h
  obtain ⟨hne, hdigits⟩ := isNumeral_iff.1 hmajor
  cases major with
  | nil => exact absurd rfl hne
  | cons c major => exact ⟨c, major ++ '.' :: minor, rfl, hdigits c List.mem_cons_self⟩

end Literal

end Number

/-! ## Operators -/

namespace Operator

def sign : Operator → List Char
  | above => ['>']
  | atLeast => ['>', '=']
  | below => ['<']
  | atMost => ['<', '=']
  | withinMajor => ['~']

/-- The interval of an operator before a version, its ends on the axis: the next tenth and all
behind it, the last tenth and all before it, or up to the next whole version. -/
inductive Spans : Operator → Number → Interval → Prop
  | above {n m : Number} (h : m.tenths = n.tenths + 1) : Spans .above n ⟨some m, none⟩
  | atLeast {n : Number} : Spans .atLeast n ⟨some n, none⟩
  | below {n m : Number} (h : m.tenths = n.tenths - 1) : Spans .below n ⟨none, some m⟩
  | atMost {n : Number} : Spans .atMost n ⟨none, some n⟩
  | withinMajor {n m : Number} (hwhole : 10 ∣ m.tenths) (hle : n.tenths ≤ m.tenths)
      (hlt : m.tenths < n.tenths + 10) : Spans .withinMajor n ⟨some n, some m⟩

theorem interval?_eq_some_iff {op : Operator} {n : Number} {i : Interval} (hn : 0 ≤ n.tenths) :
    op.interval? n = some i ↔ op.Spans n i := by
  cases op with
  | above =>
    simp only [interval?, Option.map_eq_some_iff, Number.next?_eq_some_iff]
    constructor
    · rintro ⟨m, hm, rfl⟩
      exact .above hm
    · intro h
      cases h with
      | above hm => exact ⟨_, hm, rfl⟩
  | atLeast =>
    simp only [interval?, Option.some_inj]
    constructor
    · rintro rfl
      exact .atLeast
    · intro h
      cases h
      rfl
  | below =>
    simp only [interval?, Option.map_eq_some_iff, Number.previous?_eq_some_iff]
    constructor
    · rintro ⟨m, hm, rfl⟩
      exact .below hm
    · intro h
      cases h with
      | below hm => exact ⟨_, hm, rfl⟩
  | atMost =>
    simp only [interval?, Option.some_inj]
    constructor
    · rintro rfl
      exact .atMost
    · intro h
      cases h
      rfl
  | withinMajor =>
    have hlow : lowestWhole ≤ n.tenths := Int.le_trans (by decide) hn
    simp only [interval?, Option.map_eq_some_iff, Number.ceil?_eq_some_iff, isLeast_wholesFrom_iff]
    constructor
    · rintro ⟨m, ⟨-, hwhole, hle, hlt⟩, rfl⟩
      exact .withinMajor hwhole hle hlt
    · intro h
      cases h with
      | withinMajor hwhole hle hlt => exact ⟨_, ⟨hlow, hwhole, hle, hlt⟩, rfl⟩

theorem read?_eq_some {cs rest : List Char} {op : Operator} (h : read? cs = some (op, rest)) :
    cs = op.sign ++ rest := by
  unfold read? at h
  split at h <;> cases h <;> rfl

/-- An operator is read to its end; only an equals sign could lengthen it. -/
theorem read?_sign (op : Operator) {cs : List Char} (h : cs.head? ≠ some '=') :
    read? (op.sign ++ cs) = some (op, cs) := by
  cases cs with
  | nil => cases op <;> rfl
  | cons c cs =>
    have hc : c ≠ '=' := fun e => h (by rw [e]; rfl)
    cases op <;> simp [sign, read?, hc]

theorem read?_isSome_iff {cs : List Char} :
    (read? cs).isSome = true ↔ ∃ op : Operator, op.sign <+: cs := by
  constructor
  · intro h
    obtain ⟨⟨op, rest⟩, hread⟩ := Option.isSome_iff_exists.1 h
    exact ⟨op, rest, (read?_eq_some hread).symm⟩
  · rintro ⟨op, rest, rfl⟩
    by_cases hrest : rest.head? = some '='
    · obtain ⟨rest, rfl⟩ : ∃ tail, rest = '=' :: tail := by
        cases rest with
        | nil => cases hrest
        | cons c tail => exact ⟨tail, by rw [Option.some_inj.1 hrest]⟩
      cases op <;> rfl
    · rw [read?_sign op hrest]
      rfl

theorem read?_eq_none_of_isAsciiDigit {c : Char} {cs : List Char} (h : isAsciiDigit c = true) :
    read? (c :: cs) = none := by
  cases hread : read? (c :: cs) with
  | none => rfl
  | some parts =>
    obtain ⟨op, rest⟩ := parts
    have hsign := read?_eq_some hread
    cases op <;> cases hsign <;> exact absurd h (by decide)

/-- The text starts with an operator, after its blanks. -/
def Opens (cs : List Char) : Prop :=
  ∃ (blanks : List Char) (op : Operator) (rest : List Char),
    (∀ c ∈ blanks, isBlank c = true) ∧ cs = blanks ++ op.sign ++ rest

theorem hasOperator_iff {cs : List Char} : Interval.hasOperator cs = true ↔ Opens cs := by
  unfold Interval.hasOperator
  rw [read?_isSome_iff]
  constructor
  · rintro ⟨op, rest, hrest⟩
    refine ⟨cs.takeWhile isBlank, op, rest, fun c hc => List.mem_takeWhile_imp hc, ?_⟩
    rw [List.append_assoc, hrest]
    exact List.takeWhile_append_dropWhile.symm
  · rintro ⟨blanks, op, rest, hblanks, rfl⟩
    refine ⟨op, rest, ?_⟩
    rw [trimStart, List.append_assoc, List.dropWhile_append_of_pos hblanks]
    cases op <;> rfl

theorem read?_trim {cs : List Char} (h : ¬ Opens cs) : read? (trim cs) = none := by
  rw [← hasOperator_iff] at h
  cases hread : read? (trim cs) with
  | none => rfl
  | some parts =>
    obtain ⟨op, hop⟩ := read?_isSome_iff.1 (by rw [hread]; rfl)
    have hstart : trim cs <+: trimStart cs := List.rdropWhile_prefix isBlank (trimStart cs)
    exact absurd (read?_isSome_iff.2 ⟨op, hop.trans hstart⟩) h

end Operator

end VersionedApi.Version
