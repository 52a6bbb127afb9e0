import Mathlib.Data.List.Forall2
import Mathlib.Order.Bounds.Basic
import VersionedApi.Proofs.Text.Collapse

/-!
# Descriptions without their shared indentation

* `utf8ByteSize_ofList_eq`, `dropBytes?_eq_some_iff`, `dropBytes?_isSome_iff` : a text is cut behind
  its first bytes exactly where a character ends;
* `words_lines` : the words of a text are those of its lines;
* `indents`, `isLeast_sharedIndentation` : the shared indentation is the least that a line has;
* `Unindented`, `unindented_of_mem` : what a line loses to it. That is blank, and has the shared
  number of bytes if a character ends there; else it is all that stands before the first character
  that is not blank;
* `words_dedent` : so no words are lost, joined or parted;
* `IsPlainlyIndented`, `isLeast_length_indents`, `unindent_eq_drop` : where the indentation is made
  of spaces and tabs, each line loses as many characters as the least indented one has;
* `dedent_keeps` : all of this about the lines of a text and what is made of them.
-/

namespace VersionedApi.Text

variable {n : Nat} {cs l rest : List Char} {ls : List (List Char)}

/-! ## Bytes and characters -/

theorem byteSize_cons (c : Char) (cs : List Char) : byteSize (c :: cs) = c.utf8Size + byteSize cs :=
  rfl

theorem utf8ByteSize_ofList_eq (cs : List Char) :
    (String.ofList cs).utf8ByteSize = byteSize cs := by
  induction cs with
  | nil => rfl
  | cons c cs ih =>
    rw [String.ofList_cons, String.utf8ByteSize_append, String.utf8ByteSize_singleton, ih,
      byteSize_cons]

theorem dropBytes?_eq_some_iff :
    dropBytes? n cs = some rest ↔ ∃ front, cs = front ++ rest ∧ byteSize front = n := by
  fun_induction dropBytes? n cs with
  | case1 cs =>
    constructor
    · intro h
      exact ⟨[], Option.some.inj h, rfl⟩
    · rintro ⟨front, rfl, hsize⟩
      cases front with
      | nil => rfl
      | cons c front =>
        have hpos := c.utf8Size_pos
        rw [byteSize_cons] at hsize
        omega
  | case2 n =>
    simp only [reduceCtorEq, false_iff]
    rintro ⟨front, hnil, hsize⟩
    rw [(List.append_eq_nil_iff.1 hnil.symm).1] at hsize
    cases hsize
  | case3 n c cs hle ih =>
    rw [ih]
    constructor
    · rintro ⟨front, rfl, hsize⟩
      refine ⟨c :: front, rfl, ?_⟩
      rw [byteSize_cons, hsize, Nat.add_sub_of_le hle]
    · rintro ⟨front, heq, hsize⟩
      cases front with
      | nil => cases hsize
      | cons d front =>
        obtain ⟨rfl, rfl⟩ := List.cons.inj heq
        rw [byteSize_cons] at hsize
        exact ⟨front, rfl, by omega⟩
  | case4 n c cs hle =>
    simp only [reduceCtorEq, false_iff]
    rintro ⟨front, heq, hsize⟩
    cases front with
    | nil => cases hsize
    | cons d front =>
      obtain ⟨rfl, -⟩ := List.cons.inj heq
      rw [byteSize_cons] at hsize
      omega

/-- A text can be cut exactly at the positions between its characters. -/
theorem dropBytes?_isSome_iff :
    (dropBytes? n cs).isSome = true ↔ String.Pos.Raw.IsValid (String.ofList cs) ⟨n⟩ := by
  rw [Option.isSome_iff_exists, String.Pos.Raw.isValid_ofList]
  simp only [dropBytes?_eq_some_iff, utf8ByteSize_ofList_eq]
  constructor
  · rintro ⟨rest, front, rfl, hsize⟩
    exact ⟨front.length, by rw [List.take_left, hsize]⟩
  · rintro ⟨i, hsize⟩
    exact ⟨cs.drop i, cs.take i, (List.take_append_drop i cs).symm, hsize.symm⟩

/-! ## The words of lines -/

theorem words_dropReturn (l : List Char) : words (dropReturn l) = words l := by
  by_cases hreturn : l.getLast? = some '\r'
  · obtain ⟨front, rfl⟩ := List.getLast?_eq_some_iff.1 hreturn
    rw [dropReturn, if_pos hreturn, List.dropLast_concat]
    refine (words_append_blanks (fun c hc => ?_) front).symm
    rw [List.mem_singleton.1 hc]
    decide
  · rw [dropReturn_eq_self hreturn]

theorem words_terminated (ps : List (List Char)) :
    (terminated ps).flatMap words = ps.flatMap words := by
  induction ps with
  | nil => rfl
  | cons p ps ih =>
    cases ps with
    | nil => cases p <;> rfl
    | cons q ps =>
      show words (dropReturn p) ++ (terminated (q :: ps)).flatMap words =
        words p ++ (q :: ps).flatMap words
      rw [ih, words_dropReturn]

theorem words_lines (cs : List Char) : (lines cs).flatMap words = words cs := by
  rw [lines, words_terminated, ← words_joinWith (by decide : isBlank '\n' = true), joinWith_pieces]

/-! ## Indentation -/

theorem allBlank_eq_true_iff : allBlank cs = true ↔ ∀ c ∈ cs, isBlank c = true := by
  rw [allBlank, List.all_eq_true]

/-- The sizes of what stands before the first character that is not blank, for each line that has
one. -/
def indents (size : List Char → Nat) (ls : List (List Char)) : Set Nat :=
  {w | ∃ l ∈ ls, allBlank l = false ∧ size (l.takeWhile isBlank) = w}

/-- The shared indentation is the least that a line has, in bytes. -/
theorem isLeast_sharedIndentation (hl : l ∈ ls) (hblank : allBlank l = false) :
    IsLeast (indents byteSize ls) (sharedIndentation ls) := by
  have hmem {k : List Char} (hk : k ∈ ls) (hkblank : allBlank k = false) :
      indentation k ∈ (ls.filter (!allBlank ·)).map indentation :=
    List.mem_map_of_mem (List.mem_filter.2 ⟨hk, by rw [hkblank]; rfl⟩)
  obtain ⟨least, hleast⟩ := Option.isSome_iff_exists.1 (List.isSome_min?_of_mem (hmem hl hblank))
  rw [sharedIndentation, hleast, Option.getD_some]
  rw [List.min?_eq_some_iff] at hleast
  constructor
  · obtain ⟨k, hk, hwidth⟩ := List.mem_map.1 hleast.1
    obtain ⟨hkl, hkblank⟩ := List.mem_filter.1 hk
    exact ⟨k, hkl, by simpa using hkblank, hwidth⟩
  · rintro w ⟨k, hkl, hkblank, rfl⟩
    exact hleast.2 _ (hmem hkl hkblank)

theorem isBlank_of_byteSize_le {front : List Char}
    (h : byteSize front ≤ indentation (front ++ rest)) : ∀ c ∈ front, isBlank c = true := by
  induction front with
  | nil => simp
  | cons d front ih =>
    have hpos := d.utf8Size_pos
    rw [indentation, List.cons_append, byteSize_cons] at h
    cases hd : isBlank d with
    | false =>
      rw [List.takeWhile_cons_of_neg (by simp [hd])] at h
      have hzero : byteSize [] = 0 := rfl
      omega
    | true =>
      rw [List.takeWhile_cons_of_pos hd, byteSize_cons] at h
      have hfront := ih (by rw [indentation]; omega)
      simpa [hd] using hfront

/-- `rest` is what is left of a line from which blanks are taken: `n` bytes of them if a character
ends there, and else all that it starts with. -/
structure Unindented (n : Nat) (line rest : List Char) : Prop where
  blanks : ∃ front, (∀ c ∈ front, isBlank c = true) ∧ line = front ++ rest ∧
    (String.Pos.Raw.IsValid (String.ofList line) ⟨n⟩ → (String.ofList front).utf8ByteSize = n)
  otherwise : ¬ String.Pos.Raw.IsValid (String.ofList line) ⟨n⟩ → rest = trimStart line

theorem unindented_of_mem (hl : l ∈ ls) :
    Unindented (sharedIndentation ls) l (unindent (sharedIndentation ls) l) := by
  unfold unindent
  cases hcut : dropBytes? (sharedIndentation ls) l with
  | none =>
    have hinside : ¬ String.Pos.Raw.IsValid (String.ofList l) ⟨sharedIndentation ls⟩ := by
      rw [← dropBytes?_isSome_iff, hcut]
      simp
    refine ⟨⟨l.takeWhile isBlank, fun c hc => List.mem_takeWhile_imp hc, ?_, ?_⟩, fun _ => rfl⟩
    · exact List.takeWhile_append_dropWhile.symm
    · intro hvalid
      exact absurd hvalid hinside
  | some rest =>
    have hvalid : String.Pos.Raw.IsValid (String.ofList l) ⟨sharedIndentation ls⟩ := by
      rw [← dropBytes?_isSome_iff, hcut]
      rfl
    obtain ⟨front, hfront, hsize⟩ := dropBytes?_eq_some_iff.1 hcut
    refine ⟨⟨front, ?_, hfront, fun _ => ?_⟩, fun hinside => absurd hvalid hinside⟩
    · -- a blank line is blank all through; any other has at least the shared indentation
      cases hblank : allBlank l with
      | true =>
        intro c hc
        exact allBlank_eq_true_iff.1 hblank c (hfront ▸ List.mem_append_left rest hc)
      | false =>
        have hle : sharedIndentation ls ≤ indentation l :=
          (isLeast_sharedIndentation hl hblank).2 ⟨l, hl, hblank, rfl⟩
        rw [← hsize, hfront] at hle
        exact isBlank_of_byteSize_le hle
    · rw [utf8ByteSize_ofList_eq, hsize]

theorem Unindented.words_eq {line : List Char} (h : Unindented n line rest) :
    words rest = words line := by
  obtain ⟨front, hfront, hline, -⟩ := h.blanks
  rw [hline, words_blanks_append hfront]

theorem Unindented.mem_of_mem {line : List Char} {c : Char} (h : Unindented n line rest)
    (hc : c ∈ rest) : c ∈ line := by
  obtain ⟨front, -, hline, -⟩ := h.blanks
  rw [hline]
  exact List.mem_append_right front hc

theorem dedent_of_lines {first : List Char} (h : lines cs = first :: ls) : dedent cs =
    trim (joinWith ['\n'] (trim first :: ls.map (unindent (sharedIndentation ls)))) := by
  unfold dedent
  rw [h]

/-- Indentation is blank, and the line feeds stay, so words are neither lost nor joined. -/
theorem words_dedent (body : List Char) : words (dedent body) = words body := by
  rw [← words_lines body]
  cases hlines : lines body with
  | nil =>
    unfold dedent
    rw [hlines]
    rfl
  | cons first ls =>
    have hkept : ∀ l ∈ ls, words (unindent (sharedIndentation ls) l) = words l :=
      fun l hl => (unindented_of_mem hl).words_eq
    rw [dedent_of_lines hlines, words_trim, words_joinWith (by decide), List.flatMap_cons,
      words_trim, List.flatMap_map, List.flatMap_cons, List.flatMap_congr hkept]

/-! ## Spaces and tabs -/

/-- The lines that are not blank are indented with spaces and tabs. -/
def IsPlainlyIndented (ls : List (List Char)) : Prop :=
  ∀ l ∈ ls, allBlank l = false → ∀ c ∈ l.takeWhile isBlank, isIndent c = true

instance (ls : List (List Char)) : Decidable (IsPlainlyIndented ls) :=
  decidable_of_iff
    ((ls.all fun l => allBlank l || (l.takeWhile isBlank).all isIndent) = true) <| by
      simp only [IsPlainlyIndented, List.all_eq_true, Bool.or_eq_true, or_iff_not_imp_left,
        Bool.not_eq_true]

theorem byteSize_of_isIndent (h : ∀ c ∈ cs, isIndent c = true) : byteSize cs = cs.length := by
  induction cs with
  | nil => rfl
  | cons c cs ih =>
    have hc : c.utf8Size = 1 := by
      have hindent := h c List.mem_cons_self
      rw [isIndent, Bool.or_eq_true, beq_iff_eq, beq_iff_eq] at hindent
      rcases hindent with rfl | rfl <;> rfl
    rw [byteSize_cons, hc, ih fun d hd => h d (List.mem_cons_of_mem c hd), List.length_cons,
      Nat.add_comm]

section Plain
variable (hplain : IsPlainlyIndented ls)
include hplain

theorem isLeast_length_indents (hl : l ∈ ls) (hblank : allBlank l = false) :
    IsLeast (indents List.length ls) (sharedIndentation ls) := by
  have hsame : indents byteSize ls = indents List.length ls := by
    ext w
    refine exists_congr fun k => and_congr_right fun hk => and_congr_right fun hkblank => ?_
    rw [byteSize_of_isIndent (hplain k hk hkblank)]
  rw [← hsame]
  exact isLeast_sharedIndentation hl hblank

theorem unindent_eq_drop (hl : l ∈ ls) (hblank : allBlank l = false) :
    unindent (sharedIndentation ls) l = l.drop (sharedIndentation ls) := by
  have hle : sharedIndentation ls ≤ (l.takeWhile isBlank).length :=
    (isLeast_length_indents hplain hl hblank).2 ⟨l, hl, hblank, rfl⟩
  have htake : l.take (sharedIndentation ls) =
      (l.takeWhile isBlank).take (sharedIndentation ls) := by
    conv_lhs => rw [← List.takeWhile_append_dropWhile (p := isBlank) (l := l)]
    exact List.take_append_of_le_length hle
  have hindent : ∀ c ∈ l.take (sharedIndentation ls), isIndent c = true := by
    rw [htake]
    exact fun c hc => hplain l hl hblank c (List.mem_of_mem_take hc)
  have hsize : byteSize (l.take (sharedIndentation ls)) = sharedIndentation ls := by
    rw [byteSize_of_isIndent hindent, htake, List.length_take, Nat.min_eq_left hle]
  have hcut : dropBytes? (sharedIndentation ls) l = some (l.drop (sharedIndentation ls)) :=
    dropBytes?_eq_some_iff.2 ⟨_, (List.take_append_drop _ l).symm, hsize⟩
  rw [unindent, hcut, Option.getD_some]

end Plain

/-! ## Texts and their lines -/

theorem mem_of_mem_trim {c : Char} (h : c ∈ trim cs) : c ∈ cs := by
  obtain ⟨before, behind, -, -, hsplit⟩ := exists_trim_append cs
  rw [hsplit]
  simp [h]

theorem trimStart_trim_append (h : allBlank cs = false) (rest : List Char) :
    trimStart (trim cs ++ rest) = trim cs ++ rest := by
  cases htrim : trim cs with
  | nil =>
    obtain ⟨before, behind, hbefore, hbehind, hsplit⟩ := exists_trim_append cs
    have hall : allBlank cs = true := by
      rw [allBlank_eq_true_iff, hsplit, htrim]
      exact fun c hc => (List.mem_append.1 hc).elim (hbefore c) (hbehind c)
    rw [h] at hall
    cases hall
  | cons c tail =>
    have hc : isBlank c = false := isBlank_of_head?_trim (by rw [htrim]; rfl)
    rw [trimStart, List.cons_append, List.dropWhile_cons_of_neg (by simp [hc])]

theorem pieces_unindented {body first : List Char} (hlines : lines body = first :: ls) :
    pieces (· == '\n')
        (joinWith ['\n'] (trim first :: ls.map (unindent (sharedIndentation ls)))) =
      trim first :: ls.map (unindent (sharedIndentation ls)) := by
  have hfeed {l : List Char} (hl : l ∈ first :: ls) : '\n' ∉ l :=
    not_feed_of_mem_lines (hlines ▸ hl)
  refine pieces_joinWith '\n' (List.cons_ne_nil _ _) fun l hl c hc => ?_
  rw [beq_eq_false_iff_ne]
  rintro rfl
  rcases List.mem_cons.1 hl with rfl | hl
  · exact hfeed List.mem_cons_self (mem_of_mem_trim hc)
  · obtain ⟨k, hk, rfl⟩ := List.mem_map.1 hl
    exact hfeed (List.mem_cons_of_mem first hk) ((unindented_of_mem hk).mem_of_mem hc)

/-- What stands first is not blank, so only the end of the text is trimmed, and its lines are the
first one and what is left of the others. -/
theorem exists_pieces_dedent {body first : List Char} (hlines : lines body = first :: ls)
    (hfirst : allBlank first = false) :
    ∃ blanks, (∀ c ∈ blanks, isBlank c = true) ∧ pieces (· == '\n') (dedent body ++ blanks) =
      trim first :: ls.map (unindent (sharedIndentation ls)) := by
  have hpieces := pieces_unindented hlines
  have hdedent := dedent_of_lines hlines
  rw [joinWith_cons] at hpieces hdedent
  rw [trim, trimStart_trim_append hfirst] at hdedent
  obtain ⟨-, blanks, hblanks, hend⟩ := exists_trimEnd_append
    (trim first ++ (ls.map (unindent (sharedIndentation ls))).flatMap ('\n' :: ·))
  exact ⟨blanks, hblanks, by rw [hdedent, ← hend, hpieces]⟩

/-- A text without its indentation has the same words, so the same characters that are not blank, in
order. Of each line behind the first only blanks are lost, and no character is cut in two. If the
first line is not blank and the others are indented with spaces and tabs, the lines that come out,
but for blanks at the end of the text, are the first one trimmed and the others, each of which, if
it is not blank, has lost as many characters as the least indented of them has before its text. -/
theorem dedent_keeps (body : List Char) :
    letters (dedent body) = letters body ∧ words (dedent body) = words body ∧
      ∀ first ls, lines body = first :: ls →
        ∃ kept, dedent body = trim (joinWith ['\n'] (trim first :: kept)) ∧
          List.Forall₂ (Unindented (sharedIndentation ls)) ls kept ∧
          (allBlank first = false → IsPlainlyIndented ls →
            (∃ blanks, (∀ c ∈ blanks, isBlank c = true) ∧
              pieces (· == '\n') (dedent body ++ blanks) = trim first :: kept) ∧
            List.Forall₂ (fun l k => allBlank l = false →
              ∃ w, IsLeast (indents List.length ls) w ∧ k = l.drop w) ls kept) := by
  refine ⟨letters_eq_of_words (words_dedent body), words_dedent body, fun first ls hlines => ?_⟩
  refine ⟨ls.map (unindent (sharedIndentation ls)), dedent_of_lines hlines, ?_, ?_⟩
  · rw [List.forall₂_map_right_iff, List.forall₂_same]
    exact fun l hl => unindented_of_mem hl
  · intro hfirst hplain
    refine ⟨exists_pieces_dedent hlines hfirst, ?_⟩
    rw [List.forall₂_map_right_iff, List.forall₂_same]
    intro l hl hblank
    exact ⟨sharedIndentation ls, isLeast_length_indents hplain hl hblank,
      unindent_eq_drop hplain hl hblank⟩

namespace Paragraphs

def body : List Char :=
  "Returns a movie. \n \u2003\n \t Second\r\n \t   indented \n".toList

def continued : List (List Char) :=
  [" \u2003".toList, " \t Second".toList, " \t   indented ".toList]

end Paragraphs

/-- The lines of this description are indented by three and by five characters, and each of them
loses three. -/
theorem dedent_keeps_paragraphs :
    dedent Paragraphs.body = "Returns a movie.\n\nSecond\n  indented".toList ∧
      lines Paragraphs.body = "Returns a movie. ".toList :: Paragraphs.continued ∧
      allBlank "Returns a movie. ".toList = false ∧ IsPlainlyIndented Paragraphs.continued ∧
      ∃ kept, (∃ blanks, (∀ c ∈ blanks, isBlank c = true) ∧
          pieces (· == '\n') (dedent Paragraphs.body ++ blanks) =
            trim "Returns a movie. ".toList :: kept) ∧
        List.Forall₂ (fun l k => allBlank l = false →
          ∃ w, IsLeast (indents List.length Paragraphs.continued) w ∧ k = l.drop w)
            Paragraphs.continued kept := by
  have hlines : lines Paragraphs.body = "Returns a movie. ".toList :: Paragraphs.continued := by
    decide +kernel
  have hfirst : allBlank "Returns a movie. ".toList = false := by decide
  have hplain : IsPlainlyIndented Paragraphs.continued := by decide +kernel
  obtain ⟨kept, -, -, hkept⟩ := (dedent_keeps Paragraphs.body).2.2 _ _ hlines
  exact ⟨by decide +kernel, hlines, hfirst, hplain, kept, hkept hfirst hplain⟩

end VersionedApi.Text
