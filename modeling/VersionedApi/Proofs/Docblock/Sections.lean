import Mathlib.Data.List.TakeWhile
import VersionedApi.Proofs.Docblock.Opening

/-!
# The sections of a docblock

The lines of a docblock, without their gutter, fall into a lead and sections. A section starts with
a line that opens a tag. The plain lines behind it are its body. A line that closes the tag, and all
that follows up to the next opener, is outside.

* `tagsFrom` : the tags of some lines, if each opener looks ahead for the end of its body;
  `Pass.expected_step` : one line of a pass does not change which tags are to be expected of it and
  of the lines behind, so a whole pass makes these tags (`tagsOf_eq`);
* `Section` : a section, with the tag that it makes; `Sectioned` : lines fall into these sections;
* `exists_sectioned`, `Sectioned.tagsFrom_eq` : lines always do, and then the tags are those of the
  sections;
* `tagsOf_sectioned` : so the tags of a docblock are known from its sections, one for each opener.
-/

namespace VersionedApi.Docblock

open VersionedApi.Text

/-! ## Looking ahead -/

/-- The lines before the next one that opens or closes a tag, each behind a line feed. -/
def continuation (lines : List (List Char)) : List Char :=
  (lines.takeWhile (roleOf · == .continues)).flatMap ('\n' :: ·)

/-- The tags of lines without gutter, the first of which has the number `n`. -/
def tagsFrom (n : Nat) : List (List Char) → List Tag
  | [] => []
  | l :: ls =>
    match roleOf l with
    | .opens name decorators body =>
      { name := String.ofList (lower name)
        decorators := decorators.map fun d => String.ofList (lower d)
        body := String.ofList (trimEnd (body ++ continuation ls))
        line := n } :: tagsFrom (n + 1) ls
    | _ => tagsFrom (n + 1) ls

def contentLines (docblock : String) : List (List Char) :=
  (lines docblock.toList).map stripGutter

theorem continuation_cons (l : List Char) (ls : List (List Char)) :
    continuation (l :: ls) =
      if roleOf l = .continues then '\n' :: l ++ continuation ls else [] := by
  unfold continuation
  rw [List.takeWhile_cons]
  by_cases h : roleOf l = .continues
  · simp [h]
  · simp [h]

namespace Pass

/-- The tags of a pass before some lines: those that are finished, the open one with the lines that
continue it, and those that the lines open. -/
def expected (p : Pass) (n : Nat) (ls : List (List Char)) : List Tag :=
  p.tags ++ (p.current.map fun t => { t with body := t.body ++ continuation ls }.finish).toList ++
    tagsFrom n ls

theorem expected_nil (p : Pass) (n : Nat) : p.expected n [] = p.finished := by
  have hbody (t : OpenTag) : { t with body := t.body ++ continuation [] } = t := by
    simp [continuation]
  simp only [expected, finished, hbody, tagsFrom, List.append_nil]

/-- One line does not change what is to be expected. -/
theorem expected_step (p : Pass) (n : Nat) (l : List Char) (ls : List (List Char)) :
    (p.step l n).expected (n + 1) ls = p.expected n (l :: ls) := by
  -- a line that does not continue the open tag leaves its body as it is
  have hover (h : roleOf l ≠ .continues) :
      (p.current.map fun t => { t with body := t.body ++ continuation (l :: ls) }.finish) =
        p.current.map OpenTag.finish := by
    rw [continuation_cons, if_neg h]
    simp only [List.append_nil]
  cases hrole : roleOf l with
  | opens name decorators body =>
    rw [expected, expected, hover (by simp [hrole]), tagsFrom, hrole, step, hrole, finished]
    simp [OpenTag.finish]
  | closes =>
    rw [expected, expected, hover (by simp [hrole]), tagsFrom, hrole, step, hrole, finished]
    simp
  | continues =>
    rw [expected, expected, continuation_cons, if_pos hrole, tagsFrom, hrole, step, hrole]
    simp [Function.comp_def]

/-- So a whole pass makes the tags that are to be expected of it. -/
theorem finished_foldl (p : Pass) (n : Nat) (ls : List (List Char)) :
    ((ls.zipIdx n).foldl (fun p (l, n) => p.step l n) p).finished = p.expected n ls := by
  induction ls generalizing p n with
  | nil => exact (p.expected_nil n).symm
  | cons l ls ih =>
    rw [List.zipIdx_cons, List.foldl_cons, ih, expected_step]

end Pass

theorem tagsOf_eq (docblock : String) : tagsOf docblock = tagsFrom 1 (contentLines docblock) := by
  have hpass := Pass.finished_foldl {} 1 (contentLines docblock)
  rw [contentLines, List.zipIdx_map, List.foldl_map] at hpass
  exact hpass

/-! ## The order of the tags -/

theorem le_line_of_mem_tagsFrom {n : Nat} {ls : List (List Char)} {t : Tag}
    (ht : t ∈ tagsFrom n ls) : n ≤ t.line := by
  induction ls generalizing n with
  | nil => cases ht
  | cons l ls ih =>
    unfold tagsFrom at ht
    split at ht
    · rcases List.mem_cons.1 ht with rfl | ht
      · exact Nat.le_refl n
      · have hnext := ih ht
        omega
    · have hnext := ih ht
      omega

theorem pairwise_line_tagsFrom (n : Nat) (ls : List (List Char)) :
    (tagsFrom n ls).Pairwise fun s t => s.line < t.line := by
  induction ls generalizing n with
  | nil => exact List.Pairwise.nil
  | cons l ls ih =>
    unfold tagsFrom
    split
    · refine List.pairwise_cons.2 ⟨fun t ht => ?_, ih (n + 1)⟩
      show n < t.line
      have hnext := le_line_of_mem_tagsFrom ht
      omega
    · exact ih (n + 1)

theorem pairwise_line_tagsOf (docblock : String) :
    (tagsOf docblock).Pairwise fun s t => s.line < t.line := by
  rw [tagsOf_eq]
  exact pairwise_line_tagsFrom 1 _

/-! ## Lines and tags -/

section Lines
variable {n : Nat} {l name said : List Char} {decorators ls plain rest : List (List Char)}

theorem tagsFrom_of_opening (h : Opening (trimStart l) name decorators said) :
    tagsFrom n (l :: ls) =
      { name := String.ofList (lower name)
        decorators := decorators.map fun d => String.ofList (lower d)
        body := String.ofList (trimEnd (said ++ continuation ls))
        line := n } :: tagsFrom (n + 1) ls := by
  rw [tagsFrom, roleOf_eq_opens_iff.2 h]

theorem tagsFrom_of_not_isOpener (h : ¬ IsOpener l) :
    tagsFrom n (l :: ls) = tagsFrom (n + 1) ls := by
  rw [tagsFrom, roleOf_of_not_isOpener h]
  split
  · rename_i hrole
    split at hrole <;> cases hrole
  · rfl

theorem tagsFrom_append (h : ∀ l ∈ ls, ¬ IsOpener l) :
    tagsFrom n (ls ++ rest) = tagsFrom (n + ls.length) rest := by
  induction ls generalizing n with
  | nil => simp
  | cons l ls ih =>
    have hl : ¬ IsOpener l := h l (by simp)
    have hls : ∀ k ∈ ls, ¬ IsOpener k := fun k hk => h k (by simp [hk])
    rw [List.cons_append, tagsFrom_of_not_isOpener hl, ih hls, List.length_cons]
    congr 1
    omega

/-- The lines that continue a tag are the plain ones up to the first other line. -/
theorem continuation_append (hplain : ∀ l ∈ plain, IsPlain l)
    (hrest : ∀ l, rest.head? = some l → ¬ IsPlain l) :
    continuation (plain ++ rest) = plain.flatMap ('\n' :: ·) := by
  have hpos : ∀ l ∈ plain, (roleOf l == .continues) = true := by
    intro l hl
    simp [roleOf_eq_continues_iff.2 (hplain l hl)]
  have hstop : ∀ l, rest.head? = some l → (roleOf l == .continues) = false := by
    intro l hl
    simpa using mt roleOf_eq_continues_iff.1 (hrest l hl)
  rw [continuation, takeWhile_append_eq hpos hstop]

/-- An opener and the plain lines behind it make one tag. -/
theorem tagsFrom_opener (h : Opening (trimStart l) name decorators said)
    (hplain : ∀ p ∈ plain, IsPlain p) (hrest : ∀ r, rest.head? = some r → ¬ IsPlain r) :
    tagsFrom n (l :: (plain ++ rest)) =
      { name := String.ofList (lower name)
        decorators := decorators.map fun d => String.ofList (lower d)
        body := String.ofList (trimEnd (said ++ plain.flatMap ('\n' :: ·)))
        line := n } :: tagsFrom (n + 1 + plain.length) rest := by
  rw [tagsFrom_of_opening h, continuation_append hplain hrest,
    tagsFrom_append fun p hp => (hplain p hp).1]

theorem exists_line_iff {k : Nat} :
    (∃ t ∈ tagsFrom n ls, t.line = n + k) ↔ ∃ l, ls[k]? = some l ∧ IsOpener l := by
  induction ls generalizing n k with
  | nil => simp [tagsFrom]
  | cons l ls ih =>
    cases k with
    | zero =>
      have hbehind : ∀ t ∈ tagsFrom (n + 1) ls, t.line ≠ n + 0 := by
        intro t ht
        have hle := le_line_of_mem_tagsFrom ht
        omega
      by_cases hl : IsOpener l
      · obtain ⟨name, decorators, said, hopens⟩ := hl
        rw [tagsFrom_of_opening hopens]
        simp [show IsOpener l from ⟨name, decorators, said, hopens⟩]
      · rw [tagsFrom_of_not_isOpener hl]
        simp only [List.length_cons, Nat.zero_lt_succ, getElem?_pos, List.getElem_cons_zero,
          Option.some.injEq, exists_eq_left', hl, iff_false]
        rintro ⟨t, ht, hline⟩
        exact hbehind t ht hline
    | succ k =>
      have hnext : (∃ t ∈ tagsFrom (n + 1) ls, t.line = n + (k + 1)) ↔
          ∃ l, ls[k]? = some l ∧ IsOpener l := by
        rw [← ih (n := n + 1), show n + 1 + k = n + (k + 1) by omega]
      rw [List.getElem?_cons_succ, ← hnext]
      by_cases hl : IsOpener l
      · obtain ⟨name, decorators, said, hopens⟩ := hl
        rw [tagsFrom_of_opening hopens]
        simp
      · rw [tagsFrom_of_not_isOpener hl]

end Lines

/-! ## Sections -/

/-- A part of a docblock: the line that opens a tag, the plain lines that belong to it, and lines
behind a closer that belong to no tag. -/
structure Section where
  line : Nat
  opener : List Char
  name : List Char
  decorators : List (List Char)
  said : List Char
  body : List (List Char)
  outside : List (List Char)
  opens : Opening (trimStart opener) name decorators said
  plain : ∀ l ∈ body, IsPlain l
  closed : ∀ l, outside.head? = some l → IsCloser l
  apart : ∀ l ∈ outside, ¬ IsOpener l

namespace Section

def lines (s : Section) : List (List Char) := s.opener :: (s.body ++ s.outside)

/-- The tag of a section: its name and decorators in lower case, and what the opener says with the
body behind it, each line behind a line feed. -/
def tag (s : Section) : Tag :=
  { name := String.ofList (lower s.name)
    decorators := s.decorators.map fun d => String.ofList (lower d)
    body := String.ofList (trimEnd (s.said ++ s.body.flatMap ('\n' :: ·)))
    line := s.line }

theorem isOpener (s : Section) : IsOpener s.opener := ⟨_, _, _, s.opens⟩

theorem tagsFrom_append (s : Section) {rest : List (List Char)}
    (hrest : ∀ l, rest.head? = some l → IsOpener l) :
    tagsFrom s.line (s.lines ++ rest) = s.tag :: tagsFrom (s.line + s.lines.length) rest := by
  have hstop : ∀ l, (s.outside ++ rest).head? = some l → ¬ IsPlain l := by
    intro l hl hplain
    cases houtside : s.outside with
    | nil =>
      rw [houtside, List.nil_append] at hl
      exact hplain.1 (hrest l hl)
    | cons c outside =>
      rw [houtside, List.cons_append, List.head?_cons] at hl
      exact hplain.2 (s.closed l (by rw [houtside, List.head?_cons, hl]))
  have hlines : s.lines ++ rest = s.opener :: (s.body ++ (s.outside ++ rest)) := by
    simp [lines]
  rw [hlines, tagsFrom_opener s.opens s.plain hstop, Docblock.tagsFrom_append s.apart, tag]
  congr 2
  simp only [lines, List.length_cons, List.length_append]
  omega

end Section

/-- Lines, the first of which has the number `n`, fall into a lead without openers and sections,
each of which has the number of its first line. -/
structure Sectioned (n : Nat) (ls lead : List (List Char)) (sections : List Section) : Prop where
  before : ∀ l ∈ lead, ¬ IsOpener l
  lines : ls = lead ++ sections.flatMap Section.lines
  numbered : ∀ before s behind, sections = before ++ s :: behind →
    s.line = n + (lead ++ before.flatMap Section.lines).length

theorem head?_flatMap_lines {sections : List Section} {l : List Char}
    (h : (sections.flatMap Section.lines).head? = some l) : IsOpener l := by
  cases sections with
  | nil => cases h
  | cons s sections =>
    obtain rfl : s.opener = l := Option.some.inj h
    exact s.isOpener

theorem tagsFrom_flatMap_lines {n : Nat} {sections : List Section}
    (hnumbered : ∀ before s behind, sections = before ++ s :: behind →
      s.line = n + (before.flatMap Section.lines).length) :
    tagsFrom n (sections.flatMap Section.lines) = sections.map Section.tag := by
  induction sections generalizing n with
  | nil => rfl
  | cons s sections ih =>
    have hline : s.line = n := by simpa using hnumbered [] s sections rfl
    have hnext : ∀ before t behind, sections = before ++ t :: behind →
        t.line = n + s.lines.length + (before.flatMap Section.lines).length := by
      intro before t behind hsections
      have ht := hnumbered (s :: before) t behind (by rw [hsections, List.cons_append])
      rw [List.flatMap_cons, List.length_append] at ht
      omega
    rw [List.flatMap_cons, ← hline, s.tagsFrom_append fun l => head?_flatMap_lines, hline, ih hnext,
      List.map_cons]

namespace Sectioned

variable {n : Nat} {l : List Char} {ls lead : List (List Char)} {sections : List Section}

theorem tagsFrom_eq (h : Sectioned n ls lead sections) :
    tagsFrom n ls = sections.map Section.tag := by
  rw [h.lines, tagsFrom_append h.before]
  refine tagsFrom_flatMap_lines fun before s behind hsections => ?_
  rw [h.numbered before s behind hsections, List.length_append]
  omega

theorem cons_lead (h : Sectioned (n + 1) ls lead sections) (hl : ¬ IsOpener l) :
    Sectioned n (l :: ls) (l :: lead) sections := by
  refine ⟨?_, by rw [h.lines, List.cons_append], fun before s behind hsections => ?_⟩
  · intro k hk
    rcases List.mem_cons.1 hk with rfl | hk
    · exact hl
    · exact h.before k hk
  · have hline := h.numbered before s behind hsections
    simp only [List.cons_append, List.length_cons] at hline ⊢
    omega

/-- A line that opens a tag turns the lead behind it into a section. -/
theorem cons_section (h : Sectioned (n + 1) ls lead sections) (hl : IsOpener l) :
    ∃ s, Sectioned n (l :: ls) [] (s :: sections) := by
  obtain ⟨name, decorators, said, hopens⟩ := hl
  -- the plain lines at the start of the lead are the body, and the first other one is a closer
  let s : Section :=
    { line := n
      opener := l
      name := name
      decorators := decorators
      said := said
      body := lead.takeWhile (roleOf · == .continues)
      outside := lead.dropWhile (roleOf · == .continues)
      opens := hopens
      plain := by
        intro k hk
        have hrole := List.mem_takeWhile_imp hk
        exact roleOf_eq_continues_iff.1 (by simpa using hrole)
      closed := by
        intro k hk
        have hmem : k ∈ lead := (List.dropWhile_suffix _).subset (List.mem_of_head? hk)
        have hrole := List.head?_dropWhile_not (roleOf · == .continues) lead
        rw [hk] at hrole
        by_contra hcloser
        have hplain := roleOf_eq_continues_iff.2 ⟨h.before k hmem, hcloser⟩
        simp [hplain] at hrole
      apart := fun k hk => h.before k ((List.dropWhile_suffix _).subset hk) }
  have hlines : s.lines = l :: lead := by
    show l :: (lead.takeWhile _ ++ lead.dropWhile _) = l :: lead
    rw [List.takeWhile_append_dropWhile]
  refine ⟨s, ?_, ?_, ?_⟩
  · intro k hk
    cases hk
  · rw [List.nil_append, List.flatMap_cons, hlines, List.cons_append, h.lines]
  · intro before t behind hsections
    cases before with
    | nil =>
      obtain ⟨rfl, -⟩ := List.cons.inj hsections
      simp [s]
    | cons r before =>
      obtain ⟨rfl, hrest⟩ := List.cons.inj hsections
      have hline := h.numbered before t behind hrest
      rw [List.nil_append, List.flatMap_cons, hlines, hline]
      simp only [List.cons_append, List.length_cons, List.length_append]
      omega

end Sectioned

theorem exists_sectioned (n : Nat) (ls : List (List Char)) :
    ∃ lead sections, Sectioned n ls lead sections := by
  induction ls generalizing n with
  | nil => exact ⟨[], [], by simp, rfl, by simp⟩
  | cons l ls ih =>
    obtain ⟨lead, sections, h⟩ := ih (n + 1)
    by_cases hl : IsOpener l
    · obtain ⟨s, hs⟩ := h.cons_section hl
      exact ⟨[], s :: sections, hs⟩
    · exact ⟨l :: lead, sections, h.cons_lead hl⟩

/-- A docblock has one tag for each line that opens one, in order, and these are the tags of the
sections that its lines fall into. -/
theorem tagsOf_sectioned (docblock : String) :
    (tagsOf docblock).Pairwise (fun s t => s.line < t.line) ∧
      (∀ k, (∃ t ∈ tagsOf docblock, t.line = k + 1) ↔
        ∃ l, (contentLines docblock)[k]? = some l ∧ IsOpener l) ∧
      ∀ tags, tagsOf docblock = tags ↔
        ∃ lead sections, Sectioned 1 (contentLines docblock) lead sections ∧
          tags = sections.map Section.tag := by
  refine ⟨pairwise_line_tagsOf docblock, fun k => ?_, fun tags => ?_⟩
  · rw [tagsOf_eq, Nat.add_comm k 1]
    exact exists_line_iff
  rw [tagsOf_eq]
  constructor
  · rintro rfl
    obtain ⟨lead, sections, h⟩ := exists_sectioned 1 (contentLines docblock)
    exact ⟨lead, sections, h, h.tagsFrom_eq⟩
  · rintro ⟨lead, sections, h, rfl⟩
    exact h.tagsFrom_eq

end VersionedApi.Docblock
