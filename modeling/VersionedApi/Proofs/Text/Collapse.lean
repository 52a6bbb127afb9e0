import VersionedApi.Proofs.Text.Cut
import VersionedApi.Text.Prose

/-!
# Descriptions on one line

* `trim_eq_self_iff` : a text is trimmed if it neither starts nor ends with a blank;
* `words_append_cons`, `words_trim`, `words_joinWith` : the words of a text do not depend on the
  blanks between them; `words_cases` : a text by its first word;
* `letters`, `flatten_words` : the characters of a text that are not blank are those of its words;
* `collapse_cases` : a description has no line break, or the last of its lines stands behind others;
* `not_feed_of_mem_collapse`, `trim_collapse`, `words_collapse` : a collapsed description has no line
  feed in it, is trimmed, and has the words of the text, so it is a normal form (`collapse_normal`);
* `IsLine` : the descriptions that are left as they are, and those that collapsing gives
  (`collapsed?_of_trim`, `isLine_of_collapsed?`).
-/

namespace VersionedApi.Text

/-! ## Trimmed texts -/

theorem trimStart_trim (cs : List Char) : trimStart (trim cs) = trim cs :=
  trimStart_trimEnd (List.dropWhile_idempotent isBlank cs)

theorem isBlank_of_head?_trim {cs : List Char} {c : Char} (h : (trim cs).head? = some c) :
    isBlank c = false := by
  obtain ⟨rest, hcons⟩ := List.head?_eq_some_iff.1 h
  have hstart := trimStart_trim cs
  rw [hcons] at hstart
  exact head_trimStart hstart

theorem isBlank_of_getLast?_trim {cs : List Char} {c : Char} (h : (trim cs).getLast? = some c) :
    isBlank c = false :=
  (exists_trimEnd_append (trimStart cs)).1 c h

theorem trim_eq_self_iff {cs : List Char} : trim cs = cs ↔
    (∀ c, cs.head? = some c → isBlank c = false) ∧
      ∀ c, cs.getLast? = some c → isBlank c = false := by
  constructor
  · intro h
    rw [← h]
    exact ⟨fun c => isBlank_of_head?_trim, fun c => isBlank_of_getLast?_trim⟩
  · rintro ⟨hhead, hlast⟩
    have hstart : trimStart cs = cs := by
      cases cs with
      | nil => rfl
      | cons c cs => rw [trimStart, List.dropWhile_cons_of_neg (by simp [hhead c rfl])]
    rw [trim, hstart, trimEnd_eq_self hlast]

theorem isBlank_of_getLast?_append_cons {xs ys : List Char} {m : Char} (hm : isBlank m = false)
    (hys : ∀ c, ys.getLast? = some c → isBlank c = false) {c : Char}
    (h : (xs ++ m :: ys).getLast? = some c) : isBlank c = false := by
  rw [List.getLast?_append, List.getLast?_cons, Option.some_or] at h
  cases hlast : ys.getLast? with
  | none =>
    rw [hlast] at h
    cases h
    exact hm
  | some d =>
    rw [hlast] at h
    cases h
    exact hys d hlast

theorem exists_trim_append (cs : List Char) : ∃ before behind : List Char,
    (∀ c ∈ before, isBlank c = true) ∧ (∀ c ∈ behind, isBlank c = true) ∧
      cs = before ++ (trim cs ++ behind) := by
  obtain ⟨-, behind, hbehind, hend⟩ := exists_trimEnd_append (trimStart cs)
  refine ⟨cs.takeWhile isBlank, behind, fun c hc => List.mem_takeWhile_imp hc, hbehind, ?_⟩
  rw [trim, ← hend]
  exact List.takeWhile_append_dropWhile.symm

theorem mem_of_mem_trimStart {cs : List Char} {c : Char} (h : c ∈ trimStart cs) : c ∈ cs :=
  (List.dropWhile_suffix isBlank).subset h

theorem trimStart_ne_nil {cs : List Char} {c : Char} (hc : c ∈ cs) (hblank : isBlank c = false) :
    trimStart cs ≠ [] := by
  intro hnil
  have hall := List.dropWhile_eq_nil_iff.1 hnil c hc
  rw [hblank] at hall
  cases hall

theorem trim_blanks_append {blanks cs : List Char} (h : ∀ c ∈ blanks, isBlank c = true) :
    trim (blanks ++ cs) = trim cs := by
  rw [trim, trimStart, List.dropWhile_append_of_pos h]
  rfl

theorem trim_append_blanks {blanks cs : List Char} (h : ∀ c ∈ blanks, isBlank c = true) :
    trim (cs ++ blanks) = trim cs := by
  unfold trim trimStart
  rw [List.dropWhile_append]
  split
  · rename_i hempty
    rw [List.isEmpty_iff.1 hempty, List.dropWhile_eq_nil_iff.2 h]
  · exact trimEnd_append_blanks h

/-! ## Words -/

theorem pieces_append {p : Char → Bool} {s : Char} (hs : p s = true) (xs ys : List Char) :
    pieces p (xs ++ s :: ys) = pieces p xs ++ pieces p ys := by
  induction xs with
  | nil => simp [pieces, hs]
  | cons c xs ih =>
    rw [List.cons_append, pieces, ih, pieces]
    cases hpieces : pieces p xs with
    | nil => exact absurd hpieces (pieces_ne_nil p xs)
    | cons q qs => cases p c <;> rfl

theorem words_append_cons {b : Char} (hb : isBlank b = true) (xs ys : List Char) :
    words (xs ++ b :: ys) = words xs ++ words ys := by
  rw [words, pieces_append hb, List.filter_append]
  rfl

theorem words_blanks_append {blanks : List Char} (h : ∀ c ∈ blanks, isBlank c = true)
    (cs : List Char) : words (blanks ++ cs) = words cs := by
  induction blanks with
  | nil => rfl
  | cons b blanks ih =>
    have hrest := words_append_cons (h b List.mem_cons_self) [] (blanks ++ cs)
    rw [List.cons_append]
    exact hrest.trans (ih fun c hc => h c (List.mem_cons_of_mem b hc))

theorem words_append_blanks {blanks : List Char} (h : ∀ c ∈ blanks, isBlank c = true)
    (cs : List Char) : words (cs ++ blanks) = words cs := by
  cases blanks with
  | nil => rw [List.append_nil]
  | cons b blanks =>
    have hblank : words (blanks ++ []) = [] :=
      words_blanks_append (fun c hc => h c (List.mem_cons_of_mem b hc)) []
    rw [List.append_nil] at hblank
    rw [words_append_cons (h b List.mem_cons_self), hblank, List.append_nil]

theorem words_trim (cs : List Char) : words (trim cs) = words cs := by
  obtain ⟨before, behind, hbefore, hbehind, hcs⟩ := exists_trim_append cs
  conv_rhs => rw [hcs]
  rw [words_blanks_append hbefore, words_append_blanks hbehind]

theorem words_trimStart (cs : List Char) : words (trimStart cs) = words cs := by
  conv_rhs => rw [← List.takeWhile_append_dropWhile (p := isBlank) (l := cs)]
  exact (words_blanks_append (fun c hc => List.mem_takeWhile_imp hc) _).symm

theorem words_joinWith {s : Char} (hs : isBlank s = true) (ps : List (List Char)) :
    words (joinWith [s] ps) = ps.flatMap words := by
  induction ps with
  | nil => rfl
  | cons p ps ih =>
    cases ps with
    | nil => simp [joinWith]
    | cons q ps =>
      rw [joinWith, List.append_assoc, List.singleton_append, words_append_cons hs, ih]
      rfl

theorem words_of_not {w : List Char} (hne : w ≠ []) (h : ∀ c ∈ w, isBlank c = false) :
    words w = [w] := by
  rw [words, pieces_of_not h]
  simpa using hne

/-- A text is blank, or it is its first word between blanks and what stands behind. -/
theorem words_cases (cs : List Char) : (∀ c ∈ cs, isBlank c = true) ∧ words cs = [] ∨
    ∃ blanks w rest : List Char, (∀ c ∈ blanks, isBlank c = true) ∧ w ≠ [] ∧
      cs = blanks ++ (w ++ rest) ∧ words cs = w :: words rest := by
  have hblanks : ∀ c ∈ cs.takeWhile isBlank, isBlank c = true := fun c hc =>
    List.mem_takeWhile_imp hc
  have hsplit : cs = cs.takeWhile isBlank ++ trimStart cs :=
    List.takeWhile_append_dropWhile.symm
  cases hstart : trimStart cs with
  | nil =>
    left
    rw [hstart, List.append_nil] at hsplit
    rw [hsplit]
    refine ⟨hblanks, ?_⟩
    have hwords := words_append_blanks hblanks []
    exact hwords
  | cons c tail =>
    right
    have hc : isBlank c = false := head_trimStart hstart
    let w := (c :: tail).takeWhile (!isBlank ·)
    let rest := (c :: tail).dropWhile (!isBlank ·)
    have hw : w ++ rest = c :: tail := List.takeWhile_append_dropWhile
    have hwne : w ≠ [] := by simp [w, hc]
    have hword : words w = [w] := words_of_not hwne fun d hd => by
      simpa using List.mem_takeWhile_imp hd
    refine ⟨cs.takeWhile isBlank, w, rest, hblanks, hwne, by rw [hw, ← hstart]; exact hsplit, ?_⟩
    rw [hsplit, words_blanks_append hblanks, hstart, ← hw]
    cases hrest : rest with
    | nil => rw [List.append_nil, hword]; rfl
    | cons b rest' =>
      have hb : isBlank b = true := by
        have hnot := List.head?_dropWhile_not (!isBlank ·) (c :: tail)
        rw [show (c :: tail).dropWhile (!isBlank ·) = b :: rest' from hrest] at hnot
        simpa using hnot
      have htail := words_append_cons hb [] rest'
      rw [words_append_cons hb, hword, List.singleton_append]
      exact congrArg (w :: ·) htail.symm

def letters (cs : List Char) : List Char := cs.filter (!isBlank ·)

theorem flatten_pieces (p : Char → Bool) (cs : List Char) :
    (pieces p cs).flatten = cs.filter (!p ·) := by
  induction cs with
  | nil => rfl
  | cons c cs ih =>
    rw [pieces, List.filter_cons, ← ih]
    cases hpieces : pieces p cs with
    | nil => exact absurd hpieces (pieces_ne_nil p cs)
    | cons q qs => cases p c <;> simp

theorem flatten_words (cs : List Char) : (words cs).flatten = letters cs := by
  rw [words, List.flatten_filter_not_isEmpty, flatten_pieces, letters]

theorem letters_eq_of_words {as bs : List Char} (h : words as = words bs) :
    letters as = letters bs := by
  rw [← flatten_words, h, flatten_words]

/-! ## Lines without their breaks -/

theorem isBlank_of_isIndent {cs : List Char} (h : ∀ c ∈ cs, isIndent c = true) :
    ∀ c ∈ cs, isBlank c = true := by
  intro c hc
  have hindent := h c hc
  rw [isIndent, Bool.or_eq_true, beq_iff_eq, beq_iff_eq] at hindent
  rcases hindent with rfl | rfl <;> decide

theorem exists_beforeBreak_append (l : List Char) :
    ∃ blanks : List Char, (∀ c ∈ blanks, isBlank c = true) ∧ l = beforeBreak l ++ blanks := by
  have hindent : ∀ c ∈ (dropReturn l).rtakeWhile isIndent, isBlank c = true :=
    isBlank_of_isIndent fun c hc => List.mem_rtakeWhile_imp hc
  have hsplit : dropReturn l = beforeBreak l ++ (dropReturn l).rtakeWhile isIndent :=
    List.rdropWhile_append_rtakeWhile.symm
  by_cases hreturn : l.getLast? = some '\r'
  · refine ⟨(dropReturn l).rtakeWhile isIndent ++ ['\r'], ?_, ?_⟩
    · intro c hc
      rcases List.mem_append.1 hc with hc | hc
      · exact hindent c hc
      · rw [List.mem_singleton.1 hc]
        decide
    · obtain ⟨front, rfl⟩ := List.getLast?_eq_some_iff.1 hreturn
      rw [← List.append_assoc, ← hsplit, dropReturn, if_pos hreturn, List.dropLast_concat]
  · refine ⟨(dropReturn l).rtakeWhile isIndent, hindent, ?_⟩
    rw [← hsplit, dropReturn_eq_self hreturn]

theorem words_beforeBreak (l : List Char) : words (beforeBreak l) = words l := by
  obtain ⟨blanks, hblanks, hl⟩ := exists_beforeBreak_append l
  conv_rhs => rw [hl]
  exact (words_append_blanks hblanks _).symm

theorem withoutBreaks_concat (ps : List (List Char)) (l : List Char) :
    withoutBreaks (ps ++ [l]) = ps.map beforeBreak ++ [l] := by
  induction ps with
  | nil => rfl
  | cons p ps ih =>
    cases ps with
    | nil => rfl
    | cons q ps =>
      rw [List.cons_append] at ih
      rw [List.cons_append, List.cons_append, withoutBreaks, ih]
      rfl

theorem joinWith_concat (s : Char) (ps : List (List Char)) (l : List Char) :
    joinWith [s] (ps ++ [l]) = ps.flatMap (· ++ [s]) ++ l := by
  induction ps with
  | nil => rfl
  | cons p ps ih =>
    cases ps with
    | nil => simp [joinWith]
    | cons q ps =>
      rw [List.cons_append] at ih
      rw [List.cons_append, List.cons_append, joinWith, ih]
      simp

/-! ## Collapsed descriptions -/

theorem collapse_of_line {cs : List Char} (h : '\n' ∉ trim cs) : collapse cs = trim cs := by
  have hpieces : pieces (· == '\n') (trim cs) = [trim cs] := by
    refine pieces_of_not fun c hc => ?_
    rw [beq_eq_false_iff_ne]
    rintro rfl
    exact h hc
  unfold collapse
  rw [hpieces]
  rfl

/-- The lines of a description that has a first one and a last one, as they are put together. -/
def putTogether (first : List Char) (between : List (List Char)) (last : List Char) : List Char :=
  (first :: (between.map trimStart).filter (!·.isEmpty)).flatMap (beforeBreak · ++ [' ']) ++
    trimStart last

theorem collapse_of_pieces {cs first last : List Char} {between : List (List Char)}
    (h : pieces (· == '\n') (trim cs) = first :: (between ++ [last]))
    (hlast : trimStart last ≠ []) : collapse cs = putTogether first between last := by
  have hkept : [trimStart last].filter (!·.isEmpty) = [trimStart last] := by simpa using hlast
  unfold collapse putTogether
  rw [h]
  dsimp only
  rw [List.map_append, List.map_singleton, List.filter_append, hkept, ← List.cons_append,
    withoutBreaks_concat, joinWith_concat, List.flatMap_map]

/-- The first of several lines of a trimmed text starts with no blank: an empty one would leave a
line feed in front. -/
theorem exists_head_first {cs first : List Char} {rest : List (List Char)} (hrest : rest ≠ [])
    (h : trim cs = joinWith ['\n'] (first :: rest)) :
    ∃ c, first.head? = some c ∧ isBlank c = false := by
  obtain ⟨next, rest, rfl⟩ := List.exists_cons_of_ne_nil hrest
  cases first with
  | nil =>
    have hhead : (trim cs).head? = some '\n' := by
      rw [h]
      rfl
    exact absurd (isBlank_of_head?_trim hhead) (by decide)
  | cons c first =>
    have hhead : (trim cs).head? = some c := by
      rw [h]
      rfl
    exact ⟨c, rfl, isBlank_of_head?_trim hhead⟩

theorem exists_getLast_last {cs last : List Char} {front : List (List Char)} (hfront : front ≠ [])
    (h : trim cs = joinWith ['\n'] (front ++ [last])) :
    ∃ c, last.getLast? = some c ∧ isBlank c = false := by
  obtain ⟨front, l, rfl⟩ := (List.eq_nil_or_concat' front).resolve_left hfront
  rw [joinWith_concat] at h
  cases hend : last.getLast? with
  | none =>
    have hfinal : (trim cs).getLast? = some '\n' := by
      rw [h, List.getLast?_eq_none_iff.1 hend, List.append_nil, List.flatMap_append,
        List.flatMap_singleton, ← List.append_assoc, List.getLast?_concat]
    exact absurd (isBlank_of_getLast?_trim hfinal) (by decide)
  | some c =>
    have hfinal : (trim cs).getLast? = some c := by
      rw [h, List.getLast?_append, hend, Option.some_or]
    exact ⟨c, rfl, isBlank_of_getLast?_trim hfinal⟩

/-- A description is one line, or it has a first and a last one. Neither of these is blank. -/
theorem collapse_cases (cs : List Char) : '\n' ∉ trim cs ∧ collapse cs = trim cs ∨
    ∃ (first : List Char) (between : List (List Char)) (last : List Char),
      trim cs = joinWith ['\n'] (first :: (between ++ [last])) ∧
      (∀ l ∈ first :: (between ++ [last]), '\n' ∉ l) ∧
      (∃ c, first.head? = some c ∧ isBlank c = false) ∧
      (∃ c, last.getLast? = some c ∧ isBlank c = false) ∧
      collapse cs = putTogether first between last := by
  obtain ⟨first, rest, hpieces⟩ :=
    List.exists_cons_of_ne_nil (pieces_ne_nil (· == '\n') (trim cs))
  have hfeed : ∀ l ∈ first :: rest, '\n' ∉ l := by
    intro l hl hmem
    rw [← hpieces] at hl
    exact absurd (not_of_mem_pieces hl '\n' hmem) (by decide)
  have hjoin : trim cs = joinWith ['\n'] (first :: rest) := by
    rw [← hpieces, joinWith_pieces]
  rcases List.eq_nil_or_concat' rest with rfl | ⟨between, last, rfl⟩
  · have hline : '\n' ∉ trim cs := by
      rw [hjoin]
      exact hfeed first List.mem_cons_self
    exact Or.inl ⟨hline, collapse_of_line hline⟩
  · obtain ⟨d, hd, hblank⟩ := exists_getLast_last (List.cons_ne_nil first between) hjoin
    refine Or.inr ⟨first, between, last, hjoin, hfeed, exists_head_first (by simp) hjoin,
      ⟨d, hd, hblank⟩, collapse_of_pieces hpieces ?_⟩
    exact trimStart_ne_nil (List.mem_of_getLast? hd) hblank

theorem mem_of_mem_putTogether {first last : List Char} {between : List (List Char)} {c : Char}
    (h : c ∈ putTogether first between last) :
    c = ' ' ∨ ∃ l ∈ first :: (between ++ [last]), c ∈ l := by
  have hbreak : ∀ l : List Char, c ∈ beforeBreak l → c ∈ l := by
    intro l hc
    obtain ⟨blanks, -, hl⟩ := exists_beforeBreak_append l
    rw [hl]
    exact List.mem_append_left _ hc
  rcases List.mem_append.1 h with h | h
  · obtain ⟨l, hl, hc⟩ := List.mem_flatMap.1 h
    rcases List.mem_append.1 hc with hc | hc
    · rcases List.mem_cons.1 hl with rfl | hl
      · exact Or.inr ⟨l, List.mem_cons_self, hbreak l hc⟩
      · obtain ⟨raw, hraw, rfl⟩ := List.mem_map.1 (List.mem_of_mem_filter hl)
        exact Or.inr ⟨raw, by simp [hraw], mem_of_mem_trimStart (hbreak _ hc)⟩
    · exact Or.inl (List.mem_singleton.1 hc)
  · exact Or.inr ⟨last, by simp, mem_of_mem_trimStart h⟩

theorem not_feed_of_mem_collapse (cs : List Char) : '\n' ∉ collapse cs := by
  rcases collapse_cases cs with ⟨hline, heq⟩ | ⟨first, between, last, -, hfeed, -, -, heq⟩
  · rwa [heq]
  · rw [heq]
    intro hmem
    rcases mem_of_mem_putTogether hmem with hspace | ⟨l, hl, hc⟩
    · exact absurd hspace (by decide)
    · exact hfeed l hl hc

theorem trim_collapse (cs : List Char) : trim (collapse cs) = collapse cs := by
  rcases collapse_cases cs with ⟨-, heq⟩ |
    ⟨first, between, last, -, -, ⟨c, hc, hcblank⟩, ⟨d, hd, hdblank⟩, heq⟩
  · rw [heq, trim_trim]
  · rw [heq, trim_eq_self_iff]
    constructor
    · intro e he
      obtain ⟨blanks, hblanks, hfirst⟩ := exists_beforeBreak_append first
      cases hbefore : beforeBreak first with
      | nil =>
        rw [hbefore, List.nil_append] at hfirst
        have hall := hblanks c (hfirst ▸ List.mem_of_head? hc)
        rw [hcblank] at hall
        cases hall
      | cons b rest =>
        rw [hfirst, hbefore] at hc
        rw [putTogether, List.flatMap_cons, hbefore] at he
        cases hc
        cases he
        exact hcblank
    · intro e he
      have hne : trimStart last ≠ [] := trimStart_ne_nil (List.mem_of_getLast? hd) hdblank
      have hend : (trimStart last).getLast? = some d := by
        rw [← hd]
        conv_rhs => rw [← List.takeWhile_append_dropWhile (p := isBlank) (l := last)]
        exact (List.getLast?_append_of_ne_nil _ hne).symm
      rw [putTogether, List.getLast?_append, hend, Option.some_or] at he
      cases he
      exact hdblank

theorem words_kept (ls : List (List Char)) :
    ((ls.map trimStart).filter (!·.isEmpty)).flatMap words = ls.flatMap words := by
  induction ls with
  | nil => rfl
  | cons l ls ih =>
    rw [List.map_cons, List.flatMap_cons, ← ih, ← words_trimStart l]
    cases hl : trimStart l with
    | nil => rfl
    | cons c cs => rfl

theorem words_collapse (cs : List Char) : words (collapse cs) = words cs := by
  rw [← words_trim cs]
  rcases collapse_cases cs with ⟨-, heq⟩ | ⟨first, between, last, hjoin, -, -, -, heq⟩
  · rw [heq]
  · have hbreaks (ls : List (List Char)) (rest : List Char) :
        words (ls.flatMap (beforeBreak · ++ [' ']) ++ rest) = ls.flatMap words ++ words rest := by
      induction ls with
      | nil => rfl
      | cons l ls ih =>
        rw [List.flatMap_cons, List.append_assoc, List.append_assoc, List.singleton_append,
          words_append_cons isBlank_space, words_beforeBreak, ih, List.flatMap_cons,
          List.append_assoc]
    rw [heq, hjoin, words_joinWith (by decide), putTogether, hbreaks, words_trimStart,
      List.flatMap_cons, words_kept, List.flatMap_cons, List.flatMap_append, List.flatMap_singleton,
      List.append_assoc]

/-- A collapsed description has no line feed in it and no blank at either end. It has the words of
the text, so the characters that are not blank in the same order, is the trimmed text if that has no
line feed in it, and is not changed if it is collapsed again. -/
theorem collapse_normal (cs : List Char) :
    '\n' ∉ collapse cs ∧
      (∀ c, (collapse cs).head? = some c ∨ (collapse cs).getLast? = some c → isBlank c = false) ∧
      letters (collapse cs) = letters cs ∧ words (collapse cs) = words cs ∧
      ('\n' ∉ trim cs → collapse cs = trim cs) ∧ collapse (collapse cs) = collapse cs := by
  have hfeed := not_feed_of_mem_collapse cs
  have htrim := trim_collapse cs
  have hwords := words_collapse cs
  obtain ⟨hhead, hlast⟩ := trim_eq_self_iff.1 htrim
  refine ⟨hfeed, fun c hc => hc.elim (hhead c) (hlast c), letters_eq_of_words hwords, hwords,
    collapse_of_line, ?_⟩
  calc collapse (collapse cs)
      = trim (collapse cs) := collapse_of_line (by rwa [htrim])
    _ = collapse cs := htrim

/-- A carriage return alone is no line break, so this text loses only its outer blanks. -/
theorem collapse_normal_return :
    '\n' ∉ trim "\u3000sold\r out \t\n".toList ∧
      collapse "\u3000sold\r out \t\n".toList = "sold\r out".toList := by
  have htrim : trim "\u3000sold\r out \t\n".toList = "sold\r out".toList := by decide
  have hline : '\n' ∉ trim "\u3000sold\r out \t\n".toList := by
    rw [htrim]
    decide
  exact ⟨hline, ((collapse_normal _).2.2.2.2.1 hline).trans htrim⟩

/-! ## Lines -/

/-- A description that stands on one line: it is not empty, trimmed, and has no line feed. -/
structure IsLine (s : String) : Prop where
  ne_empty : s ≠ ""
  trimmed : trim s.toList = s.toList
  feed : '\n' ∉ s.toList

theorem isLine_of_collapsed? {cs : List Char} {s : String} (h : collapsed? cs = some s) :
    IsLine s := by
  unfold collapsed? at h
  dsimp only at h
  split at h
  · cases h
  · rename_i hne
    cases h
    refine ⟨by simpa using hne, ?_, ?_⟩
    · rw [String.toList_ofList, trim_collapse]
    · rw [String.toList_ofList]
      exact not_feed_of_mem_collapse cs

theorem collapsed?_of_trim {cs : List Char} {s : String} (hs : IsLine s)
    (h : trim cs = s.toList) : collapsed? cs = some s := by
  have hline : '\n' ∉ trim cs := by
    rw [h]
    exact hs.feed
  have hne : s.toList.isEmpty = false := by
    rw [List.isEmpty_eq_false_iff]
    simpa using hs.ne_empty
  unfold collapsed?
  rw [collapse_of_line hline, h]
  simp [hne]

end VersionedApi.Text
