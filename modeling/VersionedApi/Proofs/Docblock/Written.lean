import Mathlib.Data.List.Forall2
import VersionedApi.Proofs.Docblock.Sections
import VersionedApi.Proofs.Outcome
import VersionedApi.Proofs.Text.Collapse

/-!
# Docblocks as they are written

A docblock is written with one line for the opening delimiter, the lines of its tags behind a star,
and one line for the closing delimiter, each as far indented as one likes.

* `Entry` : a tag to be written; `writtenLines` : the lines of a docblock with these tags;
  `Indented` : a line behind an indentation;
* `stripGutter_open`, `stripGutter_star`, `stripGutter_close` : what is left of such lines;
* `tagsOf_written` : the tags of the docblock are those that were written.
-/

namespace VersionedApi.Text

/-! ## Lower case -/

def isLowerChar (c : Char) : Bool :=
  ('a' ≤ c && c ≤ 'z') || isAsciiDigit c || c == '_' || c == '-'

theorem isLowerChar_cases {c : Char} (h : isLowerChar c = true) :
    c.toNat < 0x80 ∧ ¬ ('A' ≤ c ∧ c ≤ 'Z') := by
  have hupper : 'A' ≤ c ∧ c ≤ 'Z' → 65 ≤ c.toNat ∧ c.toNat ≤ 90 := fun h => h
  simp only [isLowerChar, isAsciiDigit, Bool.or_eq_true, Bool.and_eq_true, decide_eq_true_eq,
    beq_iff_eq] at h
  rcases h with ((⟨hlo, hhi⟩ | ⟨hlo, hhi⟩) | rfl) | rfl
  · have hlo : 97 ≤ c.toNat := hlo
    have hhi : c.toNat ≤ 122 := hhi
    exact ⟨by omega, fun h => by have := hupper h; omega⟩
  · have hlo : 48 ≤ c.toNat := hlo
    have hhi : c.toNat ≤ 57 := hhi
    exact ⟨by omega, fun h => by have := hupper h; omega⟩
  · decide
  · decide

theorem lowerChar_of_isLowerChar {c : Char} (h : isLowerChar c = true) : lowerChar c = [c] := by
  obtain ⟨hplain, hupper⟩ := isLowerChar_cases h
  rw [lowerChar, if_pos hplain, if_neg (by simpa using hupper)]

theorem lower_eq_self {cs : List Char} (h : ∀ c ∈ cs, isLowerChar c = true) : lower cs = cs := by
  suffices hfrom : ∀ before, lowerFrom before cs = cs from hfrom []
  induction cs with
  | nil => exact fun _ => rfl
  | cons c cs ih =>
    intro before
    have hc := h c (by simp)
    have hsigma : (c == 'Σ') = false := by
      rw [beq_eq_false_iff_ne]
      rintro rfl
      exact absurd hc (by decide)
    rw [lowerFrom, hsigma, lowerChar_of_isLowerChar hc, ih (fun d hd => h d (by simp [hd]))]
    rfl

end VersionedApi.Text

namespace VersionedApi.Docblock

open VersionedApi.Text

/-! ## What is written -/

/-- A lower case letter, then lower case letters, digits, underscores and hyphens. -/
def isLowerName : List Char → Bool
  | [] => false
  | c :: cs => ('a' ≤ c && c ≤ 'z') && cs.all isLowerChar

def isLowerRun (cs : List Char) : Bool := !cs.isEmpty && cs.all isLowerChar

/-- A line of a body: no line break, no blank at its end and no closing delimiter there. -/
structure IsBodyLine (l : List Char) : Prop where
  oneLine : '\n' ∉ l
  ends : l.getLast?.any isBlank = false
  unclosed : ¬ ['*', '/'] <:+ l

instance (l : List Char) : Decidable (IsBodyLine l) :=
  decidable_of_iff ('\n' ∉ l ∧ l.getLast?.any isBlank = false ∧ ¬ ['*', '/'] <:+ l)
    ⟨fun h => ⟨h.1, h.2.1, h.2.2⟩, fun h => ⟨h.oneLine, h.ends, h.unclosed⟩⟩

theorem IsBodyLine.isBlank_of_getLast? {l : List Char} (h : IsBodyLine l) {c : Char}
    (hc : l.getLast? = some c) : isBlank c = false := by
  have hends := h.ends
  rwa [hc, Option.any_some] at hends

theorem IsBodyLine.trimEnd_eq {l : List Char} (h : IsBodyLine l) : trimEnd l = l :=
  trimEnd_eq_self fun _ hc => h.isBlank_of_getLast? hc

/-- A tag to be written, with the lines of its body. Its first line starts with no blank, the others
do not look like tags, and the last one is not empty unless the whole body is. -/
structure Entry where
  name : List Char
  decorators : List (List Char)
  first : List Char
  others : List (List Char)
  named : isLowerName name = true
  decorated : ∀ d ∈ decorators, isLowerRun d = true
  bodyLines : ∀ l ∈ first :: others, IsBodyLine l
  starts : first.head?.any isBlank = false
  plain : ∀ l ∈ others, startsTag (trimStart l) = false
  ends : (first :: others).getLast? ≠ some [] ∨ first :: others = [[]]

namespace Entry

def heading (e : Entry) : List Char :=
  marker ++ (e.name ++ e.decorators.flatMap (':' :: ·))

def lines (e : Entry) : List (List Char) := (e.heading ++ ' ' :: e.first) :: e.others

def body (e : Entry) : List Char := joinWith ['\n'] (e.first :: e.others)

def content (e : Entry) : String × List String × String :=
  (String.ofList e.name, e.decorators.map String.ofList, String.ofList e.body)

end Entry

def Tag.content (t : Tag) : String × List String × String := (t.name, t.decorators, t.body)

def writtenLines (es : List Entry) : List (List Char) :=
  ['/', '*', '*'] :: ((es.flatMap Entry.lines).map ([' ', '*', ' '] ++ ·) ++ [[' ', '*', '/']])

/-- The second line is the first one behind spaces and tabs. -/
def Indented (l raw : List Char) : Prop :=
  ∃ indent, (∀ c ∈ indent, isIndent c = true) ∧ raw = indent ++ l

/-! ## Without the gutter -/

theorem dropClose_eq_self {cs : List Char} (h : ¬ ['*', '/'] <:+ cs) : dropClose cs = cs := by
  unfold dropClose
  split
  · rename_i before hreverse
    refine absurd ⟨before.reverse, ?_⟩ h
    rw [← List.reverse_reverse cs, hreverse]
    simp
  · rfl

/-- A space keeps a closing delimiter apart from what stands before it. -/
theorem not_close_append {before cs : List Char} (h : ¬ ['*', '/'] <:+ cs) :
    ¬ ['*', '/'] <:+ before ++ ' ' :: cs := by
  intro hclose
  have hreverse : ['/', '*'] <+: cs.reverse ++ ' ' :: before.reverse := by
    have hprefix := List.reverse_prefix.2 hclose
    simpa using hprefix
  cases hcs : cs.reverse with
  | nil => simp [hcs] at hreverse
  | cons c rest =>
    cases rest with
    | nil => simp [hcs] at hreverse
    | cons d rest =>
      rw [hcs] at hreverse
      have hprefix : ['/', '*'] <+: cs.reverse := by
        rw [hcs]
        simpa using hreverse
      exact h (List.reverse_prefix.1 (by simpa using hprefix))

section Gutter
variable {indent : List Char}

theorem isBlank_of_mem_concat (h : ∀ c ∈ indent, isBlank c = true) :
    ∀ c ∈ indent ++ [' '], isBlank c = true := by
  intro c hc
  rcases List.mem_append.1 hc with hc | hc
  · exact h c hc
  · rw [List.mem_singleton.1 hc]
    exact isBlank_space

theorem stripGutter_open (h : ∀ c ∈ indent, isBlank c = true) :
    stripGutter (indent ++ ['/', '*', '*']) = [] := by
  have hend : trimEnd (indent ++ ['/', '*', '*']) = indent ++ ['/', '*', '*'] :=
    trimEnd_append_eq_self rfl (by decide)
  have hclose : dropClose (indent ++ ['/', '*', '*']) = indent ++ ['/', '*', '*'] := by
    simp [dropClose]
  have hstart : trimStart (indent ++ ['/', '*', '*']) = ['/', '*', '*'] :=
    dropWhile_append_eq h (by simp; decide)
  unfold stripGutter
  dsimp only
  rw [hend, hclose, hstart]
  rfl

theorem stripGutter_close (h : ∀ c ∈ indent, isBlank c = true) :
    stripGutter (indent ++ [' ', '*', '/']) = indent ++ [' '] := by
  have hend : trimEnd (indent ++ [' ', '*', '/']) = indent ++ [' ', '*', '/'] :=
    trimEnd_append_eq_self rfl (by decide)
  have hclose : dropClose (indent ++ [' ', '*', '/']) = indent ++ [' '] := by
    simp [dropClose]
  have hstart : trimStart (indent ++ [' ']) = [] := by
    rw [trimStart, List.dropWhile_eq_nil_iff]
    exact isBlank_of_mem_concat h
  unfold stripGutter
  dsimp only
  rw [hend, hclose, hstart]

theorem stripGutter_star {l : List Char} (h : ∀ c ∈ indent, isBlank c = true)
    (hclose : ¬ ['*', '/'] <:+ trimEnd l) :
    stripGutter (indent ++ ([' ', '*', ' '] ++ l)) = trimEnd l := by
  obtain ⟨hlast, blanks, hblanks, hl⟩ := exists_trimEnd_append l
  unfold stripGutter
  dsimp only
  by_cases hnil : trimEnd l = []
  · -- the space behind the star goes with the blanks
    have hend : trimEnd (indent ++ ([' ', '*', ' '] ++ l)) = indent ++ [' ', '*'] := by
      have hspace : ∀ c ∈ ' ' :: l, isBlank c = true := by
        rw [hl, hnil, List.nil_append]
        simpa using ⟨isBlank_space, hblanks⟩
      rw [show indent ++ ([' ', '*', ' '] ++ l) = indent ++ [' ', '*'] ++ ' ' :: l by simp,
        trimEnd_append_blanks hspace]
      exact trimEnd_append_eq_self rfl (by decide)
    have hunclosed : dropClose (indent ++ [' ', '*']) = indent ++ [' ', '*'] := by
      simp [dropClose]
    have hstart : trimStart (indent ++ [' ', '*']) = ['*'] := by
      rw [show indent ++ [' ', '*'] = indent ++ [' '] ++ ['*'] by simp]
      exact dropWhile_append_eq (isBlank_of_mem_concat h) (by simp; decide)
    rw [hend, hunclosed, hstart, hnil]
    rfl
  · have hend : trimEnd (indent ++ ([' ', '*', ' '] ++ l)) =
        indent ++ [' ', '*'] ++ ' ' :: trimEnd l := by
      have hsplit : indent ++ ([' ', '*', ' '] ++ l) =
          indent ++ [' ', '*', ' '] ++ trimEnd l ++ blanks := by
        rw [List.append_assoc _ (trimEnd l), ← hl, List.append_assoc]
      rw [hsplit, trimEnd_append_blanks hblanks, trimEnd_eq_self]
      · simp
      · intro c hc
        rw [List.getLast?_append_of_ne_nil _ hnil] at hc
        exact hlast c hc
    have hstart : trimStart (indent ++ [' ', '*'] ++ ' ' :: trimEnd l) =
        '*' :: ' ' :: trimEnd l := by
      rw [show indent ++ [' ', '*'] ++ ' ' :: trimEnd l =
        indent ++ [' '] ++ '*' :: ' ' :: trimEnd l by simp]
      exact dropWhile_append_eq (isBlank_of_mem_concat h) (by simp; decide)
    rw [hend, dropClose_eq_self (not_close_append hclose), hstart]
    rfl

end Gutter

/-! ## The lines of a tag -/

theorem isTagChar_of_isLowerChar {c : Char} (h : isLowerChar c = true) : isTagChar c = true := by
  have hplain := (isLowerChar_cases h).1
  simp only [isLowerChar, Bool.or_eq_true, Bool.and_eq_true] at h
  simp only [isTagChar, isWord, hplain, if_true, isAsciiLetter, Bool.or_eq_true, Bool.and_eq_true]
  rcases h with ((h | h) | h) | h
  · exact Or.inl (Or.inl (Or.inl (Or.inr h)))
  · exact Or.inl (Or.inl (Or.inr h))
  · exact Or.inl (Or.inr h)
  · exact Or.inr h

namespace Entry

variable (e : Entry)

theorem isLowerChar_of_mem_name : ∀ c ∈ e.name, isLowerChar c = true := by
  have hnamed := e.named
  cases hname : e.name with
  | nil =>
    intro c hc
    cases hc
  | cons d rest =>
    rw [hname, isLowerName, Bool.and_eq_true, List.all_eq_true] at hnamed
    intro c hc
    rcases List.mem_cons.1 hc with rfl | hc
    · simp only [isLowerChar, hnamed.1, Bool.true_or]
    · exact hnamed.2 c hc

theorem isTagName : isTagName e.name = true := by
  have hnamed := e.named
  have hlower := e.isLowerChar_of_mem_name
  cases hname : e.name with
  | nil =>
    rw [hname] at hnamed
    cases hnamed
  | cons d rest =>
    rw [hname, isLowerName, Bool.and_eq_true] at hnamed
    rw [Docblock.isTagName, Bool.and_eq_true, List.all_eq_true, isAsciiLetter, hnamed.1,
      Bool.or_true]
    exact ⟨rfl, fun c hc => isTagChar_of_isLowerChar (hlower c (by simp [hname, hc]))⟩

theorem isLowerChar_of_mem {d : List Char} (hd : d ∈ e.decorators) :
    ∀ c ∈ d, isLowerChar c = true := by
  have hrun := e.decorated d hd
  rw [isLowerRun, Bool.and_eq_true, List.all_eq_true] at hrun
  exact hrun.2

theorem isDecorator {d : List Char} (hd : d ∈ e.decorators) : isDecorator d = true := by
  have hrun := e.decorated d hd
  rw [isLowerRun, Bool.and_eq_true] at hrun
  rw [Docblock.isDecorator, Bool.and_eq_true, List.all_eq_true]
  exact ⟨hrun.1, fun c hc => isTagChar_of_isLowerChar (e.isLowerChar_of_mem hd c hc)⟩

/-- The line that opens the tag, without the space at its end if it says nothing. -/
def opener : List Char := if e.first = [] then e.heading else e.heading ++ ' ' :: e.first

theorem opening : Opening (trimStart e.opener) e.name e.decorators e.first := by
  have hstart : trimStart e.opener = e.opener := by
    unfold opener
    split <;> rfl
  have hfirst : ∀ c, e.first.head? = some c → isBlank c = false := by
    intro c hc
    have hstarts := e.starts
    rwa [hc, Option.any_some] at hstarts
  refine ⟨e.isTagName, fun d hd => e.isDecorator hd, hfirst, ?_⟩
  rw [hstart]
  by_cases hfirst : e.first = []
  · refine ⟨[], by simp, fun _ => hfirst, ?_⟩
    simp [opener, heading, hfirst]
  · refine ⟨[' '], by simpa using isBlank_space, by simp, ?_⟩
    simp [opener, heading, hfirst]

theorem of_mem_heading {c : Char} (h : c ∈ e.heading) : isBlank c = false ∧ c ≠ '/' := by
  have htag : ∀ {d : Char}, isTagChar d = true → isBlank d = false ∧ d ≠ '/' := by
    intro d hd
    refine ⟨isBlank_of_isTagChar hd, ?_⟩
    rintro rfl
    exact absurd hd (by decide)
  have hmarker : (marker.all fun c => !isBlank c && c != '/') = true := by decide
  rw [heading, List.mem_append, List.mem_append] at h
  rcases h with h | h | h
  · simpa using List.all_eq_true.1 hmarker c h
  · exact htag (isTagChar_of_isTagName e.isTagName c h)
  · obtain ⟨d, hd, hc⟩ := List.mem_flatMap.1 h
    rcases List.mem_cons.1 hc with rfl | hc
    · decide
    · exact htag (isTagChar_of_isDecorator (e.isDecorator hd) c hc)

theorem getLast?_opener {c : Char} (h : e.opener.getLast? = some c) : isBlank c = false := by
  unfold opener at h
  split at h
  · exact (e.of_mem_heading (List.mem_of_getLast? h)).1
  · rename_i hfirst
    rw [show e.heading ++ ' ' :: e.first = e.heading ++ [' '] ++ e.first by simp,
      List.getLast?_append_of_ne_nil _ hfirst] at h
    exact (e.bodyLines e.first (by simp)).isBlank_of_getLast? h

theorem not_close_opener : ¬ ['*', '/'] <:+ e.opener := by
  unfold opener
  split
  · intro hclose
    exact (e.of_mem_heading (hclose.subset (by simp))).2 rfl
  · exact not_close_append (e.bodyLines e.first (by simp)).unclosed

theorem trimEnd_opener : trimEnd (e.heading ++ ' ' :: e.first) = e.opener := by
  by_cases hfirst : e.first = []
  · have hopener : e.opener = e.heading := if_pos hfirst
    have hheading : trimEnd e.heading = e.heading :=
      trimEnd_eq_self fun c hc => (e.of_mem_heading (List.mem_of_getLast? hc)).1
    rw [hopener, hfirst, trimEnd_append_blanks (by simpa using isBlank_space), hheading]
  · have hopener : e.opener = e.heading ++ ' ' :: e.first := if_neg hfirst
    rw [← hopener]
    exact trimEnd_eq_self fun c hc => e.getLast?_opener hc

def bareLines : List (List Char) := e.opener :: e.others

theorem map_trimEnd_lines : e.lines.map trimEnd = e.bareLines := by
  have hothers : e.others.map trimEnd = e.others.map id :=
    List.map_congr_left fun l hl => (e.bodyLines l (by simp [hl])).trimEnd_eq
  rw [lines, List.map_cons, e.trimEnd_opener, hothers, List.map_id, bareLines]

theorem not_close_of_mem {l : List Char} (hl : l ∈ e.lines) : ¬ ['*', '/'] <:+ trimEnd l := by
  rcases List.mem_cons.1 hl with rfl | hl
  · rw [e.trimEnd_opener]
    exact e.not_close_opener
  · have hline := e.bodyLines l (by simp [hl])
    rw [hline.trimEnd_eq]
    exact hline.unclosed

theorem isPlain_of_mem {l : List Char} (hl : l ∈ e.others) : IsPlain l := by
  rw [isPlain_iff]
  exact e.plain l hl

theorem trimEnd_body : trimEnd e.body = e.body := by
  apply trimEnd_eq_self
  intro c hc
  rw [body, joinWith_cons] at hc
  by_cases hothers : e.others = []
  · rw [hothers, List.flatMap_nil, List.append_nil] at hc
    exact (e.bodyLines e.first (by simp)).isBlank_of_getLast? hc
  · -- the last line is not empty
    obtain ⟨init, l, hsplit⟩ := (List.eq_nil_or_concat e.others).resolve_left hothers
    rw [List.concat_eq_append] at hsplit
    have hl : l ≠ [] := by
      rcases e.ends with hends | hends
      · rw [hsplit, ← List.cons_append, List.getLast?_concat] at hends
        simpa using hends
      · simp [hsplit] at hends
    rw [hsplit, List.flatMap_append, List.flatMap_singleton, ← List.append_assoc,
      ← List.singleton_append, ← List.append_assoc, List.getLast?_append_of_ne_nil _ hl] at hc
    exact (e.bodyLines l (by simp [hsplit])).isBlank_of_getLast? hc

end Entry

/-! ## The docblock as one text -/

/-- No line break in a line, nor half of one at its end. -/
structure Unbroken (l : List Char) : Prop where
  feed : '\n' ∉ l
  ends : l.getLast? ≠ some '\r'

namespace Unbroken

theorem append {l l' : List Char} (h : Unbroken l) (h' : Unbroken l') : Unbroken (l ++ l') := by
  refine ⟨by simp [h.feed, h'.feed], ?_⟩
  rw [List.getLast?_append]
  cases hlast : l'.getLast? with
  | none => exact h.ends
  | some c =>
    have hc := h'.ends
    rw [hlast] at hc
    exact hc

theorem of_ne {l : List Char} (h : ∀ c ∈ l, c ≠ '\n' ∧ c ≠ '\r') : Unbroken l :=
  ⟨fun hmem => (h _ hmem).1 rfl, fun hlast => (h _ (List.mem_of_getLast? hlast)).2 rfl⟩

theorem of_isIndent {l : List Char} (h : ∀ c ∈ l, isIndent c = true) : Unbroken l := by
  refine of_ne fun c hc => ?_
  have hindent := h c hc
  constructor <;> rintro rfl <;> exact absurd hindent (by decide)

theorem of_isBodyLine {l : List Char} (h : IsBodyLine l) : Unbroken l := by
  refine ⟨h.oneLine, fun hlast => ?_⟩
  exact absurd (h.isBlank_of_getLast? hlast) (by decide)

theorem of_mem_lines {e : Entry} {l : List Char} (hl : l ∈ e.lines) : Unbroken l := by
  rcases List.mem_cons.1 hl with rfl | hl
  · have hheading : Unbroken e.heading := by
      refine of_ne fun c hc => ?_
      have hblank := (e.of_mem_heading hc).1
      constructor <;> rintro rfl <;> exact absurd hblank (by decide)
    have hspace : Unbroken [' '] := of_ne (by simp)
    exact hheading.append (hspace.append (of_isBodyLine (e.bodyLines e.first (by simp))))
  · exact of_isBodyLine (e.bodyLines l (by simp [hl]))

theorem of_mem_writtenLines {es : List Entry} {l : List Char} (hl : l ∈ writtenLines es) :
    Unbroken l := by
  rw [writtenLines, List.mem_cons, List.mem_append, List.mem_singleton] at hl
  rcases hl with rfl | hl | rfl
  · exact of_ne (by simp)
  · obtain ⟨k, hk, rfl⟩ := List.mem_map.1 hl
    obtain ⟨e, -, hk⟩ := List.mem_flatMap.1 hk
    exact (of_ne (by simp)).append (of_mem_lines hk)
  · exact of_ne (by simp)

end Unbroken

section Lines
variable {es : List Entry} {ls raws : List (List Char)}

/-- A line behind another one keeps its place when all are indented. -/
theorem exists_of_forall₂_concat {l : List Char}
    (h : List.Forall₂ Indented (ls ++ [l]) raws) :
    ∃ raws' raw, raws = raws' ++ [raw] ∧ List.Forall₂ Indented ls raws' ∧ Indented l raw := by
  induction ls generalizing raws with
  | nil =>
    cases h with
    | cons hraw hraws =>
      cases hraws
      exact ⟨[], _, rfl, .nil, hraw⟩
  | cons k ls ih =>
    cases h with
    | cons hraw hraws =>
      obtain ⟨raws', raw, rfl, hraws', hlast⟩ := ih hraws
      exact ⟨_ :: raws', raw, rfl, .cons hraw hraws', hlast⟩

theorem map_stripGutter (h : List.Forall₂ Indented (ls.map ([' ', '*', ' '] ++ ·)) raws)
    (hclose : ∀ l ∈ ls, ¬ ['*', '/'] <:+ trimEnd l) : raws.map stripGutter = ls.map trimEnd := by
  induction ls generalizing raws with
  | nil =>
    cases h
    rfl
  | cons l ls ih =>
    cases h with
    | cons hraw hraws =>
      obtain ⟨indent, hindent, rfl⟩ := hraw
      have hline := stripGutter_star (isBlank_of_isIndent hindent) (hclose l (by simp))
      rw [List.map_cons, List.map_cons, hline, ih hraws fun k hk => hclose k (by simp [hk])]

theorem map_trimEnd_flatMap (es : List Entry) :
    (es.flatMap Entry.lines).map trimEnd = es.flatMap Entry.bareLines := by
  rw [List.map_flatMap]
  simp only [Entry.map_trimEnd_lines]

/-- The lines of a written docblock without their gutter: an empty one, those of the tags, and a
blank one. -/
theorem contentLines_written (h : List.Forall₂ Indented (writtenLines es) raws) :
    ∃ blank, (∀ c ∈ blank, isBlank c = true) ∧
      contentLines (String.ofList (joinWith ['\n'] raws)) =
        [] :: (es.flatMap Entry.bareLines ++ [blank]) := by
  have hunbroken : ∀ r ∈ raws, Unbroken r := by
    intro r hr
    obtain ⟨l, hl, indent, hindent, rfl⟩ := exists_of_mem_forall₂ h hr
    exact (Unbroken.of_isIndent hindent).append (Unbroken.of_mem_writtenLines hl)
  cases h with
  | cons hopen hrest =>
    obtain ⟨stars, close, rfl, hstars, hclose⟩ := exists_of_forall₂_concat hrest
    obtain ⟨before, hbefore, rfl⟩ := hopen
    obtain ⟨behind, hbehind, rfl⟩ := hclose
    have hlines := lines_joinWith (fun r hr => (hunbroken r hr).feed)
      (fun r hr => (hunbroken r hr).ends) (by rw [← List.cons_append, List.getLast?_concat]; simp)
    have hopen : stripGutter (before ++ ['/', '*', '*']) = [] :=
      stripGutter_open (isBlank_of_isIndent hbefore)
    have hclose : stripGutter (behind ++ [' ', '*', '/']) = behind ++ [' '] :=
      stripGutter_close (isBlank_of_isIndent hbehind)
    have hunclosed : ∀ l ∈ es.flatMap Entry.lines, ¬ ['*', '/'] <:+ trimEnd l := by
      intro l hl
      obtain ⟨e, -, hl⟩ := List.mem_flatMap.1 hl
      exact e.not_close_of_mem hl
    refine ⟨behind ++ [' '], ?_, ?_⟩
    · exact isBlank_of_mem_concat (isBlank_of_isIndent hbehind)
    · rw [contentLines, String.toList_ofList, hlines, List.map_cons, hopen, List.map_append,
        map_stripGutter hstars hunclosed, map_trimEnd_flatMap, List.map_singleton, hclose]

theorem isPlain_of_isBlank {l : List Char} (h : ∀ c ∈ l, isBlank c = true) : IsPlain l := by
  have hnil : trimStart l = [] := by
    rw [trimStart, List.dropWhile_eq_nil_iff]
    exact h
  rw [isPlain_iff, hnil]
  rfl

theorem Entry.tagsFrom_eq (e : Entry) (n : Nat) (blanks rest : List (List Char))
    (hblanks : ∀ l ∈ blanks, ∀ c ∈ l, isBlank c = true)
    (hrest : ∀ r, rest.head? = some r → IsOpener r) :
    ∃ t, t.content = e.content ∧
      tagsFrom n (e.opener :: (e.others ++ blanks ++ rest)) =
        t :: tagsFrom (n + 1 + (e.others ++ blanks).length) rest := by
  have hplain : ∀ l ∈ e.others ++ blanks, IsPlain l := by
    intro l hl
    rcases List.mem_append.1 hl with hl | hl
    · exact e.isPlain_of_mem hl
    · exact isPlain_of_isBlank (hblanks l hl)
  have hbehind : ∀ c ∈ blanks.flatMap ('\n' :: ·), isBlank c = true := by
    intro c hc
    obtain ⟨l, hl, hc⟩ := List.mem_flatMap.1 hc
    rcases List.mem_cons.1 hc with rfl | hc
    · decide
    · exact hblanks l hl c hc
  have hbody : trimEnd (e.first ++ (e.others ++ blanks).flatMap ('\n' :: ·)) = e.body := by
    rw [List.flatMap_append, ← List.append_assoc, trimEnd_append_blanks hbehind, ← joinWith_cons]
    exact e.trimEnd_body
  have hdecorators : (e.decorators.map fun d => String.ofList (lower d)) =
      e.decorators.map String.ofList :=
    List.map_congr_left fun d hd => by rw [lower_eq_self (e.isLowerChar_of_mem hd)]
  refine ⟨_, ?_, tagsFrom_opener e.opening hplain fun r hr hr' => hr'.1 (hrest r hr)⟩
  rw [hbody, hdecorators, lower_eq_self e.isLowerChar_of_mem_name]
  rfl

theorem content_tagsFrom (es : List Entry) (n : Nat) {blank : List Char}
    (hblank : ∀ c ∈ blank, isBlank c = true) :
    (tagsFrom n (es.flatMap Entry.bareLines ++ [blank])).map Tag.content =
      es.map Entry.content := by
  induction es generalizing n with
  | nil =>
    rw [List.flatMap_nil, List.nil_append, tagsFrom_of_not_isOpener (isPlain_of_isBlank hblank).1]
    rfl
  | cons e es ih =>
    cases es with
    | nil =>
      -- the blank line belongs to the last body, where it is trimmed
      obtain ⟨t, ht, htags⟩ := e.tagsFrom_eq n [blank] [] (by simpa using hblank) (by simp)
      have hlines : [e].flatMap Entry.bareLines ++ [blank] =
          e.opener :: (e.others ++ [blank] ++ []) := by simp [Entry.bareLines]
      rw [hlines, htags, List.map_cons, ht]
      rfl
    | cons e' es =>
      have hopener : ∀ r, ((e' :: es).flatMap Entry.bareLines ++ [blank]).head? = some r →
          IsOpener r := by
        intro r hr
        obtain rfl : e'.opener = r := Option.some.inj hr
        exact ⟨_, _, _, e'.opening⟩
      obtain ⟨t, ht, htags⟩ := e.tagsFrom_eq n [] _ (by simp) hopener
      have hlines : (e :: e' :: es).flatMap Entry.bareLines ++ [blank] =
          e.opener :: (e.others ++ [] ++ ((e' :: es).flatMap Entry.bareLines ++ [blank])) := by
        simp [Entry.bareLines]
      rw [hlines, htags, List.map_cons, ht, ih]
      rfl

/-- Whatever the indentation of its lines, the tags of a docblock are those that were written in
it. -/
theorem tagsOf_written (h : List.Forall₂ Indented (writtenLines es) raws) :
    (tagsOf (String.ofList (joinWith ['\n'] raws))).map Tag.content = es.map Entry.content := by
  obtain ⟨blank, hblank, hlines⟩ := contentLines_written h
  have hempty : ¬ IsOpener [] := (isPlain_of_isBlank (by simp)).1
  rw [tagsOf_eq, hlines, tagsFrom_of_not_isOpener hempty, content_tagsFrom es _ hblank]

end Lines

namespace Cast

/-- A field with members, after a line that has a star of its own and an empty one. -/
def field : Entry :=
  { name := "data".toList
    decorators := []
    first := "cast (array) - Cast".toList
    others := ["* Billed".toList, [], "  + Members".toList]
    named := by decide
    decorated := by decide
    bodyLines := by decide
    starts := by decide
    plain := by decide
    ends := by decide }

def mark : Entry :=
  { name := "see".toList
    decorators := ["a-1".toList, "b".toList]
    first := []
    others := []
    named := by decide
    decorated := by decide
    bodyLines := by decide
    starts := by decide
    plain := by decide
    ends := by decide }

end Cast

/-- A field and a tag without a body, all lines behind a tab. -/
theorem tagsOf_written_cast :
    List.Forall₂ Indented (writtenLines [Cast.field, Cast.mark])
        ((writtenLines [Cast.field, Cast.mark]).map ('\t' :: ·)) ∧
      (tagsOf (String.ofList (joinWith ['\n']
        ((writtenLines [Cast.field, Cast.mark]).map ('\t' :: ·))))).map Tag.content =
        [("data", [], "cast (array) - Cast\n* Billed\n\n  + Members"), ("see", ["a-1", "b"], "")] := by
  have hindented : List.Forall₂ Indented (writtenLines [Cast.field, Cast.mark])
      ((writtenLines [Cast.field, Cast.mark]).map ('\t' :: ·)) := by
    rw [List.forall₂_map_right_iff, List.forall₂_same]
    exact fun l _ => ⟨['\t'], by simp [isIndent], rfl⟩
  refine ⟨hindented, ?_⟩
  rw [tagsOf_written hindented]
  decide

end VersionedApi.Docblock
