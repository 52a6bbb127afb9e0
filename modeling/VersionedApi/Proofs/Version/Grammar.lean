import VersionedApi.Proofs.Outcome
import VersionedApi.Proofs.Version.Literal
import VersionedApi.Proofs.Version.Timeline

/-!
# The grammar of version constraints

* `Interval.Plain` : the constraints without operator, `X.Y` and `X.*`, with their ends;
* `Interval.Single` : these, and versions behind an operator, with their intervals;
  `Interval.readSingle_eq_ok_iff` : what is not a range is read exactly by this grammar;
* `Range.read_grammar` : a text is read exactly as the grammar says, the fault that comes first
  being the one that is reported. What is read can be read again from its own text.
-/

namespace VersionedApi.Version

open VersionedApi.Text

namespace Interval

/-! ## Constraints that are not ranges -/

/-- The constraints without operator, and their ends: a version, or ten tenths from a whole
version on. -/
inductive Plain : List Char → Number → Number → Prop
  | point {cs : List Char} {n : Number} (h : Number.Literal cs n) : Plain cs n n
  | major {digits : List Char} {a b : Number} (h : isNumeral digits = true)
      (ha : a.tenths = 10 * value digits) (hb : b.tenths = 10 * value digits + 10) :
      Plain (digits ++ ['.', '*']) a b

/-- The constraints that are not ranges, and their intervals. -/
inductive Single : List Char → Interval → Prop
  | plain {cs : List Char} {a b : Number} (h : Plain cs a b) : Single cs ⟨some a, some b⟩
  | operator {cs : List Char} {n : Number} {i : Interval} (op : Operator)
      (h : Number.Literal cs n) (hi : op.Spans n i) : Single (op.sign ++ cs) i

theorem isPointShape_iff {cs : List Char} :
    isPointShape cs = true ↔ ∃ major minor, cs = major ++ '.' :: minor ∧ major ≠ [] ∧ minor ≠ [] ∧
      (∀ c ∈ major, isDigit c = true) ∧ ∀ c ∈ minor, isDigit c = true := by
  have hpoint : isDigit '.' = false := by decide
  constructor
  · intro h
    unfold isPointShape at h
    split at h
    · rename_i minor hrest
      simp only [Bool.and_eq_true, Bool.not_eq_true', List.isEmpty_eq_false_iff, List.all_eq_true]
        at h
      refine ⟨cs.takeWhile isDigit, minor, ?_, h.1.1, h.1.2,
        fun c hc => List.mem_takeWhile_imp hc, h.2⟩
      rw [← hrest]
      exact List.takeWhile_append_dropWhile.symm
    · cases h
  · rintro ⟨major, minor, rfl, hmajor, hminor, hdigits, hdigits'⟩
    unfold isPointShape
    rw [List.dropWhile_append_of_pos hdigits, List.dropWhile_cons_of_neg (by simp [hpoint]),
      List.takeWhile_append_of_pos hdigits, List.takeWhile_cons_of_neg (by simp [hpoint])]
    simp only [List.append_nil, Bool.and_eq_true, Bool.not_eq_true', List.isEmpty_eq_false_iff,
      List.all_eq_true]
    exact ⟨⟨hmajor, hminor⟩, hdigits'⟩

theorem trim_of_isPointShape {cs : List Char} (h : isPointShape cs = true) : trim cs = cs := by
  obtain ⟨major, minor, rfl, -, -, hmajor, hminor⟩ := isPointShape_iff.1 h
  apply trim_eq_self
  intro c hc
  rw [List.mem_append, List.mem_cons] at hc
  rcases hc with hc | rfl | hc
  · exact isBlank_of_isDigit (hmajor c hc)
  · decide
  · exact isBlank_of_isDigit (hminor c hc)

theorem isPointShape_of_literal {cs : List Char} {n : Number} (h : Number.Literal cs n) :
    isPointShape cs = true := by
  obtain ⟨major, minor, rfl, hmajor, hminor, -⟩ := h
  obtain ⟨hne, hdigits⟩ := isNumeral_iff.1 hmajor
  obtain ⟨hne', hdigits'⟩ := isNumeral_iff.1 hminor
  exact isPointShape_iff.2 ⟨major, minor, rfl, hne, hne',
    fun c hc => isDigit_of_isAsciiDigit (hdigits c hc),
    fun c hc => isDigit_of_isAsciiDigit (hdigits' c hc)⟩

/-- Of the texts in the shape of a version, those in plain digits are read, as far as they lie on
the axis. -/
theorem read_eq_ok_iff_literal {cs : List Char} {n : Number} (h : isPointShape cs = true) :
    Number.read (String.ofList cs) = .ok n ↔ Number.Literal cs n := by
  have htext : Number.ofText? cs = some n ↔ Number.Literal cs n := by
    rw [Number.ofText?_eq_some_iff, trim_of_isPointShape h]
  rw [← htext, Number.read, String.toList_ofList]
  cases Number.ofText? cs <;> simp

theorem wholeMajor?_eq_some_iff {cs major : List Char} :
    wholeMajor? cs = some major ↔
      cs = major ++ ['.', '*'] ∧ major ≠ [] ∧ ∀ c ∈ major, isDigit c = true := by
  have hpoint : isDigit '.' = false := by decide
  constructor
  · intro h
    unfold wholeMajor? at h
    dsimp only at h
    split at h
    · rename_i hshape
      cases h
      simp only [Bool.and_eq_true, decide_eq_true_eq, Bool.not_eq_true', List.isEmpty_eq_false_iff]
        at hshape
      refine ⟨?_, hshape.2, fun c hc => List.mem_takeWhile_imp hc⟩
      rw [← hshape.1]
      exact List.takeWhile_append_dropWhile.symm
    · cases h
  · rintro ⟨rfl, hne, hdigits⟩
    unfold wholeMajor?
    rw [List.dropWhile_append_of_pos hdigits, List.dropWhile_cons_of_neg (by simp [hpoint]),
      List.takeWhile_append_of_pos hdigits, List.takeWhile_cons_of_neg (by simp [hpoint])]
    simp [hne]

theorem ofMajor?_eq_some_iff {major : List Char} {i : Interval} :
    ofMajor? major = some i ↔ isNumeral major = true ∧ ∃ a b : Number,
      a.tenths = 10 * value major ∧ b.tenths = 10 * value major + 10 ∧ i = ⟨some a, some b⟩ := by
  unfold ofMajor?
  split
  · rename_i hnumeral
    simp only [Option.bind_eq_bind, Option.bind_eq_some_iff, Number.ofTenths?_eq_some_iff,
      Option.pure_def, Option.some_inj]
    constructor
    · rintro ⟨a, ha, b, hb, rfl⟩
      exact ⟨hnumeral, a, b, by omega, by omega, rfl⟩
    · rintro ⟨-, a, b, ha, hb, rfl⟩
      exact ⟨a, by omega, b, by omega, rfl⟩
  · rename_i hnumeral
    simp [hnumeral]

theorem Plain.head {cs : List Char} {a b : Number} (h : Plain cs a b) :
    ∃ c rest, cs = c :: rest ∧ isAsciiDigit c = true := by
  cases h with
  | point h => exact h.head
  | @major digits _ _ h _ _ =>
    obtain ⟨hne, hdigits⟩ := isNumeral_iff.1 h
    cases digits with
    | nil => exact absurd rfl hne
    | cons c digits => exact ⟨c, digits ++ ['.', '*'], rfl, hdigits c List.mem_cons_self⟩

theorem not_isPointShape_major (digits : List Char) :
    isPointShape (digits ++ ['.', '*']) ≠ true := by
  intro h
  obtain ⟨major, minor, heq, -, hne, hmajor, hminor⟩ := isPointShape_iff.1 h
  have hmem : '*' ∈ major ++ '.' :: minor := by
    rw [← heq]
    simp
  rw [List.mem_append, List.mem_cons] at hmem
  rcases hmem with hmem | hmem | hmem
  · exact absurd (hmajor _ hmem) (by decide)
  · exact absurd hmem (by decide)
  · exact absurd (hminor _ hmem) (by decide)

theorem readSingle_plain {cs : List Char} {i : Interval} (hop : Operator.read? cs = none) :
    readSingle cs = .ok i ↔ ∃ a b, Plain cs a b ∧ i = ⟨some a, some b⟩ := by
  unfold readSingle
  rw [hop]
  dsimp only
  split
  · rename_i hshape
    constructor
    · intro h
      obtain ⟨n, hn, h⟩ := bind_eq_ok.1 h
      cases h
      exact ⟨n, n, .point ((read_eq_ok_iff_literal hshape).1 hn), rfl⟩
    · rintro ⟨a, b, hplain, rfl⟩
      cases hplain with
      | point h => exact bind_eq_ok.2 ⟨_, (read_eq_ok_iff_literal hshape).2 h, rfl⟩
      | major => exact absurd hshape (not_isPointShape_major _)
  · rename_i hshape
    constructor
    · intro h
      split at h
      · rename_i j hmajor
        cases h
        obtain ⟨major, hwhole, hof⟩ := Option.bind_eq_some_iff.1 hmajor
        obtain ⟨hnumeral, a, b, ha, hb, rfl⟩ := ofMajor?_eq_some_iff.1 hof
        obtain ⟨rfl, -⟩ := wholeMajor?_eq_some_iff.1 hwhole
        exact ⟨a, b, .major hnumeral ha hb, rfl⟩
      · cases h
    · rintro ⟨a, b, hplain, rfl⟩
      cases hplain with
      | point h => exact absurd (isPointShape_of_literal h) hshape
      | @major digits _ _ hnumeral ha hb =>
        obtain ⟨hne, hdigits⟩ := isNumeral_iff.1 hnumeral
        have hwhole : wholeMajor? (digits ++ ['.', '*']) = some digits :=
          wholeMajor?_eq_some_iff.2
            ⟨rfl, hne, fun c hc => isDigit_of_isAsciiDigit (hdigits c hc)⟩
        have hof : ofMajor? digits = some ⟨some a, some b⟩ :=
          ofMajor?_eq_some_iff.2 ⟨hnumeral, a, b, ha, hb, rfl⟩
        rw [hwhole, Option.bind_some, hof]

theorem readSingle_operator {cs number : List Char} {op : Operator} {i : Interval}
    (hop : Operator.read? cs = some (op, number)) :
    readSingle cs = .ok i ↔ ∃ n, Number.Literal number n ∧ op.Spans n i := by
  unfold readSingle
  rw [hop]
  dsimp only
  split
  · rename_i hshape
    rw [bind_eq_ok]
    constructor
    · rintro ⟨n, hn, h⟩
      have hliteral := (read_eq_ok_iff_literal hshape).1 hn
      refine ⟨n, hliteral, (Operator.interval?_eq_some_iff hliteral.tenths_nonneg).1 ?_⟩
      split at h
      · rename_i j hj
        cases h
        exact hj
      · cases h
    · rintro ⟨n, hliteral, hspans⟩
      refine ⟨n, (read_eq_ok_iff_literal hshape).2 hliteral, ?_⟩
      rw [(Operator.interval?_eq_some_iff hliteral.tenths_nonneg).2 hspans]
  · rename_i hshape
    constructor
    · intro h
      cases h
    · rintro ⟨n, hliteral, -⟩
      exact absurd (isPointShape_of_literal hliteral) hshape

theorem head?_ne_of_literal {cs : List Char} {n : Number} (h : Number.Literal cs n) :
    cs.head? ≠ some '=' := by
  obtain ⟨c, rest, rfl, hc⟩ := h.head
  intro heq
  rw [List.head?_cons, Option.some_inj] at heq
  rw [heq] at hc
  exact absurd hc (by decide)

theorem readSingle_eq_ok_iff {cs : List Char} {i : Interval} :
    readSingle cs = .ok i ↔ Single cs i := by
  constructor
  · intro h
    cases hop : Operator.read? cs with
    | none =>
      obtain ⟨a, b, hplain, rfl⟩ := (readSingle_plain hop).1 h
      exact .plain hplain
    | some parts =>
      obtain ⟨op, number⟩ := parts
      obtain ⟨n, hliteral, hspans⟩ := (readSingle_operator hop).1 h
      rw [Operator.read?_eq_some hop]
      exact .operator op hliteral hspans
  · intro h
    cases h with
    | plain hplain =>
      obtain ⟨c, rest, rfl, hc⟩ := hplain.head
      exact (readSingle_plain (Operator.read?_eq_none_of_isAsciiDigit hc)).2 ⟨_, _, hplain, rfl⟩
    | operator op hliteral hspans =>
      have hop := Operator.read?_sign op (head?_ne_of_literal hliteral)
      exact (readSingle_operator hop).2 ⟨_, hliteral, hspans⟩

theorem readSingle_eq_error {cs : List Char} {e : Fault} (h : readSingle cs = .error e) :
    ∃ text, e = .unrecognizedSchema text := by
  have hread : ∀ {text : String} {e : Fault}, Number.read text = .error e →
      ∃ text, e = .unrecognizedSchema text := by
    intro text e h
    unfold Number.read at h
    split at h
    · cases h
    · cases h
      exact ⟨_, rfl⟩
  unfold readSingle at h
  dsimp only at h
  split at h
  · split at h
    · rcases bind_eq_error.1 h with h | ⟨n, -, h⟩
      · exact hread h
      · split at h
        · cases h
        · cases h
          exact ⟨_, rfl⟩
    · cases h
      exact ⟨_, rfl⟩
  · split at h
    · rcases bind_eq_error.1 h with h | ⟨n, -, h⟩
      · exact hread h
      · cases h
    · split at h
      · cases h
      · cases h
        exact ⟨_, rfl⟩

theorem Plain.le {cs : List Char} {a b : Number} (h : Plain cs a b) : a ≤ b := by
  rw [Number.le_iff_tenths]
  cases h with
  | point => exact Int.le_refl _
  | major _ ha hb => omega

theorem Single.le {cs : List Char} {i : Interval} (h : Single cs i) {a b : Number}
    (ha : i.first = some a) (hb : i.last = some b) : a ≤ b := by
  cases h with
  | plain h =>
    cases ha
    cases hb
    exact h.le
  | operator op _ hi =>
    cases hi with
    | withinMajor _ hle _ =>
      cases ha
      cases hb
      exact hle
    | above | atLeast => cases hb
    | below | atMost => cases ha

/-! ## Ranges -/

section Sides
variable {whole lower upper : List Char}

theorem readRange_of_opens (h : Operator.Opens lower ∨ Operator.Opens upper) :
    readRange whole lower upper = .error (.operatorsWithinRange (String.ofList whole)) := by
  unfold readRange
  rw [← Operator.hasOperator_iff, ← Operator.hasOperator_iff, ← Bool.or_eq_true] at h
  rw [if_pos h]

theorem hasOperator_or_eq_false (h : ¬ (Operator.Opens lower ∨ Operator.Opens upper)) :
    ¬ (hasOperator lower || hasOperator upper) = true := by
  rwa [Bool.or_eq_true, Operator.hasOperator_iff, Operator.hasOperator_iff]

/-- Two plain sides make a range from the start of the lower to the end of the upper one, which has
to lie behind it. -/
theorem readRange_of_plain {a a' b' b : Number}
    (h : ¬ (Operator.Opens lower ∨ Operator.Opens upper)) (ha : Plain (trim lower) a a')
    (hb : Plain (trim upper) b' b) :
    readRange whole lower upper =
      if b < a then .error (.lopsidedRange (String.ofList whole))
      else if a = b then .error (.badRangeUse (String.ofList whole))
      else .ok ⟨some a, some b⟩ := by
  unfold readRange
  rw [if_neg (hasOperator_or_eq_false h), readSingle_eq_ok_iff.2 (.plain ha),
    readSingle_eq_ok_iff.2 (.plain hb)]

theorem readRange_of_not_plain (h : ¬ (Operator.Opens lower ∨ Operator.Opens upper))
    (hsides : (¬ ∃ a b, Plain (trim lower) a b) ∨ ¬ ∃ a b, Plain (trim upper) a b) :
    readRange whole lower upper = .error (.unrecognizedSchema (String.ofList whole)) := by
  unfold readRange
  rw [if_neg (hasOperator_or_eq_false h)]
  rw [not_or] at h
  split
  · rename_i low high hlow hhigh
    -- both sides were read without operator, so both are plain
    obtain ⟨a, b, ha, -⟩ := (readSingle_plain (Operator.read?_trim h.1)).1 hlow
    obtain ⟨c, d, hc, -⟩ := (readSingle_plain (Operator.read?_trim h.2)).1 hhigh
    rcases hsides with hsides | hsides
    · exact absurd ⟨a, b, ha⟩ hsides
    · exact absurd ⟨c, d, hc⟩ hsides
  · rfl

end Sides

end Interval

/-! ## The whole grammar -/

namespace Range

variable {s : String} {lower upper : List Char}

theorem read_of_cut (h : FirstCut [' ', '-', ' '] (trim s.toList) lower upper) :
    read s = (Interval.readRange (trim s.toList) lower upper).map fun i =>
      { i with text := trimmed s } := by
  unfold read
  dsimp only
  rw [cutAt_eq_some_iff.2 h]
  rfl

theorem read_of_uncut (h : ¬ [' ', '-', ' '] <:+: trim s.toList) :
    read s = (Interval.readSingle (trim s.toList)).map fun i => { i with text := trimmed s } := by
  unfold read
  dsimp only
  rw [cutAt_eq_none_iff.2 h]
  rfl

theorem read_trimmed (s : String) : read (trimmed s) = read s := by
  unfold read
  rw [trimmed, String.toList_ofList, trim_trim]

theorem text_of_read {r : Range} (h : read s = .ok r) : r.text = trimmed s := by
  obtain ⟨i, -, rfl⟩ := map_eq_ok.1 h
  rfl

theorem read_text {r : Range} (h : read s = .ok r) : read r.text = .ok r := by
  rw [text_of_read h, read_trimmed, h]

section Cut
variable (hcut : FirstCut [' ', '-', ' '] (trim s.toList) lower upper)
include hcut

theorem read_of_opens (h : Operator.Opens lower ∨ Operator.Opens upper) :
    read s = .error (.operatorsWithinRange (trimmed s)) := by
  rw [read_of_cut hcut, Interval.readRange_of_opens h]
  rfl

theorem read_of_not_plain (h : ¬ (Operator.Opens lower ∨ Operator.Opens upper))
    (hsides : (¬ ∃ a b, Interval.Plain (trim lower) a b) ∨
      ¬ ∃ a b, Interval.Plain (trim upper) a b) :
    read s = .error (.unrecognizedSchema (trimmed s)) := by
  rw [read_of_cut hcut, Interval.readRange_of_not_plain h hsides]
  rfl

theorem read_of_plain {a a' b' b : Number}
    (h : ¬ (Operator.Opens lower ∨ Operator.Opens upper)) (ha : Interval.Plain (trim lower) a a')
    (hb : Interval.Plain (trim upper) b' b) :
    read s =
      if b < a then .error (.lopsidedRange (trimmed s))
      else if a = b then .error (.badRangeUse (trimmed s))
      else .ok ⟨⟨some a, some b⟩, trimmed s⟩ := by
  rw [read_of_cut hcut, Interval.readRange_of_plain h ha hb]
  split
  · rfl
  · split <;> rfl

/-- With plain sides there is a range or one of two faults, depending on the order of the ends. -/
theorem read_ends {a a' b' b : Number} (h : ¬ (Operator.Opens lower ∨ Operator.Opens upper))
    (ha : Interval.Plain (trim lower) a a') (hb : Interval.Plain (trim upper) b' b) :
    (read s = .error (.lopsidedRange (trimmed s)) ↔ b < a) ∧
      (read s = .error (.badRangeUse (trimmed s)) ↔ a = b) ∧
      ∀ r, read s = .ok r ↔ a < b ∧ r = ⟨⟨some a, some b⟩, trimmed s⟩ := by
  rw [read_of_plain hcut h ha hb]
  rcases lt_trichotomy a b with hlt | rfl | hgt
  · simp [hlt, hlt.not_gt, hlt.ne, eq_comm]
  · simp
  · simp [hgt, hgt.not_gt, hgt.ne']

/-- A range is refused for its operators, then for its sides. -/
theorem read_sides :
    (read s = .error (.operatorsWithinRange (trimmed s)) ↔
        Operator.Opens lower ∨ Operator.Opens upper) ∧
      (¬ (Operator.Opens lower ∨ Operator.Opens upper) →
        (read s = .error (.unrecognizedSchema (trimmed s)) ↔
          (¬ ∃ a b, Interval.Plain (trim lower) a b) ∨
            ¬ ∃ a b, Interval.Plain (trim upper) a b)) := by
  have hplain : ∀ {e : Fault}, ¬ (Operator.Opens lower ∨ Operator.Opens upper) →
      (∃ a b, Interval.Plain (trim lower) a b) → (∃ a b, Interval.Plain (trim upper) a b) →
      read s = .error e → e = .lopsidedRange (trimmed s) ∨ e = .badRangeUse (trimmed s) := by
    rintro e hops ⟨a, a', ha⟩ ⟨b', b, hb⟩ h
    rw [read_of_plain hcut hops ha hb] at h
    split at h
    · cases h
      exact Or.inl rfl
    · split at h
      · cases h
        exact Or.inr rfl
      · cases h
  constructor
  · refine ⟨fun h => ?_, read_of_opens hcut⟩
    by_contra hops
    by_cases hsides : (¬ ∃ a b, Interval.Plain (trim lower) a b) ∨
        ¬ ∃ a b, Interval.Plain (trim upper) a b
    · rw [read_of_not_plain hcut hops hsides] at h
      cases h
    · rw [not_or, not_not, not_not] at hsides
      rcases hplain hops hsides.1 hsides.2 h with h | h <;> cases h
  · intro hops
    refine ⟨fun h => ?_, read_of_not_plain hcut hops⟩
    by_contra hsides
    rw [not_or, not_not, not_not] at hsides
    rcases hplain hops hsides.1 hsides.2 h with h | h <;> cases h

end Cut

theorem read_single (h : ¬ [' ', '-', ' '] <:+: trim s.toList) :
    (∀ r, read s = .ok r ↔ Interval.Single (trim s.toList) r.toInterval ∧ r.text = trimmed s) ∧
      ((∃ text, read s = .error (.unrecognizedSchema text)) ↔
        ¬ ∃ i, Interval.Single (trim s.toList) i) := by
  rw [read_of_uncut h]
  constructor
  · intro r
    rw [map_eq_ok]
    constructor
    · rintro ⟨i, hi, rfl⟩
      exact ⟨Interval.readSingle_eq_ok_iff.1 hi, rfl⟩
    · rintro ⟨hsingle, htext⟩
      refine ⟨r.toInterval, Interval.readSingle_eq_ok_iff.2 hsingle, ?_⟩
      rw [← htext]
  · cases hread : Interval.readSingle (trim s.toList) with
    | ok i =>
      have hsingle := Interval.readSingle_eq_ok_iff.1 hread
      constructor
      · rintro ⟨text, h⟩
        cases h
      · intro h
        exact absurd ⟨i, hsingle⟩ h
    | error e =>
      obtain ⟨text, rfl⟩ := Interval.readSingle_eq_error hread
      refine ⟨fun _ => ?_, fun _ => ⟨text, rfl⟩⟩
      rintro ⟨i, hi⟩
      rw [Interval.readSingle_eq_ok_iff.2 hi] at hread
      cases hread

theorem first_le_last {r : Range} (h : read s = .ok r) {a b : Number} (ha : r.first = some a)
    (hb : r.last = some b) : a ≤ b := by
  cases hcut : cutAt [' ', '-', ' '] (trim s.toList) with
  | none =>
    have hsingle := ((read_single (cutAt_eq_none_iff.1 hcut)).1 r).1 h
    exact hsingle.1.le ha hb
  | some parts =>
    obtain ⟨lower, upper⟩ := parts
    have hfirst := cutAt_eq_some_iff.1 hcut
    by_cases hops : Operator.Opens lower ∨ Operator.Opens upper
    · rw [read_of_opens hfirst hops] at h
      cases h
    by_cases hsides : (¬ ∃ a b, Interval.Plain (trim lower) a b) ∨
        ¬ ∃ a b, Interval.Plain (trim upper) a b
    · rw [read_of_not_plain hfirst hops hsides] at h
      cases h
    rw [not_or, not_not, not_not] at hsides
    obtain ⟨⟨c, c', hc⟩, d', d, hd⟩ := hsides
    obtain ⟨hlt, rfl⟩ := ((read_ends hfirst hops hc hd).2.2 r).1 h
    cases ha
    cases hb
    rw [Number.lt_iff_tenths] at hlt
    rw [Number.le_iff_tenths]
    omega

/-- A constraint is read exactly by its grammar. Two texts around the first ` - ` are a range: it is
refused for operators in it, then for sides that are not plain, then for ends that are not in
order. Any other text is a single constraint, or not recognized. What is read has its ends in
order, contains exactly what lies between them, and can be read again from its text. -/
theorem read_grammar (s : String) :
    (∀ lower upper, FirstCut [' ', '-', ' '] (trim s.toList) lower upper →
      (read s = .error (.operatorsWithinRange (trimmed s)) ↔
        Operator.Opens lower ∨ Operator.Opens upper) ∧
      (¬ (Operator.Opens lower ∨ Operator.Opens upper) →
        (read s = .error (.unrecognizedSchema (trimmed s)) ↔
          (¬ ∃ a b, Interval.Plain (trim lower) a b) ∨
            ¬ ∃ a b, Interval.Plain (trim upper) a b) ∧
        ∀ a a' b' b, Interval.Plain (trim lower) a a' → Interval.Plain (trim upper) b' b →
          (read s = .error (.lopsidedRange (trimmed s)) ↔ b < a) ∧
          (read s = .error (.badRangeUse (trimmed s)) ↔ a = b) ∧
          ∀ r, read s = .ok r ↔ a < b ∧ r = ⟨⟨some a, some b⟩, trimmed s⟩)) ∧
    (¬ [' ', '-', ' '] <:+: trim s.toList →
      (∀ r, read s = .ok r ↔ Interval.Single (trim s.toList) r.toInterval ∧ r.text = trimmed s) ∧
      ((∃ text, read s = .error (.unrecognizedSchema text)) ↔
        ¬ ∃ i, Interval.Single (trim s.toList) i)) ∧
    ∀ r, read s = .ok r →
      (∀ a b, r.first = some a → r.last = some b → a ≤ b) ∧
      (∀ v, r.contains v = true ↔
        (∀ a, r.first = some a → a ≤ v) ∧ ∀ b, r.last = some b → v ≤ b) ∧
      read r.text = .ok r := by
  refine ⟨fun lower upper hcut => ?_, read_single, fun r h => ?_⟩
  · obtain ⟨hoperators, hsides⟩ := read_sides hcut
    exact ⟨hoperators, fun hops => ⟨hsides hops, fun a a' b' b => read_ends hcut hops⟩⟩
  · exact ⟨fun a b => first_le_last h, Interval.contains_iff r.toInterval, read_text h⟩

/-- The range ` 3.0 - 3.*` goes from the start of `3.0` to the end of `3.*`. -/
theorem read_grammar_three :
    FirstCut [' ', '-', ' '] (trim " 3.0 - 3.*".toList) ['3', '.', '0'] ['3', '.', '*'] ∧
      read " 3.0 - 3.*" =
        .ok ⟨⟨some ⟨30, by decide, by decide⟩, some ⟨40, by decide, by decide⟩⟩, "3.0 - 3.*"⟩ := by
  have hcut : FirstCut [' ', '-', ' '] (trim " 3.0 - 3.*".toList) ['3', '.', '0']
      ['3', '.', '*'] := cutAt_eq_some_iff.1 (by decide +kernel)
  have hops : ¬ (Operator.Opens ['3', '.', '0'] ∨ Operator.Opens ['3', '.', '*']) := by
    rw [← Operator.hasOperator_iff, ← Operator.hasOperator_iff]
    decide
  have hlower : Interval.Plain (trim ['3', '.', '0']) ⟨30, by decide, by decide⟩
      ⟨30, by decide, by decide⟩ :=
    .point ⟨['3'], ['0'], by decide, by decide, by decide, by decide⟩
  have hupper : Interval.Plain (trim ['3', '.', '*']) ⟨30, by decide, by decide⟩
      ⟨40, by decide, by decide⟩ :=
    @Interval.Plain.major ['3'] _ _ (by decide) (by decide) (by decide)
  refine ⟨hcut, ?_⟩
  have hends := (((read_grammar " 3.0 - 3.*").1 _ _ hcut).2 hops).2 _ _ _ _ hlower hupper
  exact (hends.2.2 _).2 ⟨by decide, by decide +kernel⟩

end Range

end VersionedApi.Version
