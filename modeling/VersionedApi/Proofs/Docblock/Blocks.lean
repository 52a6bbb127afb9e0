import VersionedApi.Docblock.Source
import VersionedApi.Proofs.Text.Cut

/-!
# The docblocks of a source text, by their lines

* `Segmented` : how lines of code and comments can follow each other; `segmented_segmentsFrom`,
  `flatMap_lines_segmentsFrom` : the segments of a text are such, and hold all its lines;
* `Block.linesIn` : the lines that a block stands for; `Block.IsComment` : they are those of one
  comment, which the text of the block repeats;
* `exists_segment` : a block stands for the lines of a segment;
* `scan_partitions` : the blocks of a text are its comments, in order and apart from each other, and
  each line that looks like the start of a comment is in one of them.
-/

namespace VersionedApi.Docblock

open VersionedApi.Text

theorem opensComment_iff {l : List Char} :
    opensComment l = true ↔ ['/', '*', '*'] <+: trimStart l := startsWith_iff

theorem closesComment_iff {l : List Char} : closesComment l = true ↔ ['*', '/'] <:+: l := occurs_iff

/-! ## Segments -/

/-- Lines of code do not start a comment. A comment is started by its first line and closed by no
line but its last, which does close it if anything follows. -/
inductive Segmented : List Segment → Prop
  | nil : Segmented []
  | code {l : List Char} {rest : List Segment} (hcode : opensComment l = false)
      (h : Segmented rest) : Segmented (.code l :: rest)
  | comment {ls : List (List Char)} {rest : List Segment}
      (hopens : ∃ l, ls.head? = some l ∧ opensComment l = true)
      (hinside : ∀ l ∈ ls.dropLast, closesComment l = false)
      (hcloses : rest = [] ∨ ∃ l, ls.getLast? = some l ∧ closesComment l = true)
      (h : Segmented rest) : Segmented (.comment ls :: rest)

theorem Segmented.of_append {before segs : List Segment} (h : Segmented (before ++ segs)) :
    Segmented segs := by
  induction before with
  | nil => exact h
  | cons seg before ih =>
    cases h with
    | code _ h => exact ih h
    | comment _ _ _ h => exact ih h

/-- One line behind an unfinished comment finishes it or makes it longer, so all lines fall into
segments. -/
theorem segmented_segmentsFrom (ls : List (List Char)) :
    Segmented (segmentsFrom none ls) ∧
      ∀ begun, (∃ l, begun.head? = some l ∧ opensComment l = true) →
        (∀ l ∈ begun, closesComment l = false) → Segmented (segmentsFrom (some begun) ls) := by
  induction ls with
  | nil =>
    refine ⟨.nil, fun begun hopens hinside => ?_⟩
    exact .comment hopens (fun l hl => hinside l (List.dropLast_subset begun hl)) (Or.inl rfl) .nil
  | cons l ls ih =>
    obtain ⟨hnone, hsome⟩ := ih
    refine ⟨?_, fun begun hopens hinside => ?_⟩
    · rw [segmentsFrom]
      split
      · rename_i hcode
        exact .code (by simpa using hcode) hnone
      · rename_i hopens
        have hopens : opensComment l = true := by simpa using hopens
        split
        · rename_i hcloses
          exact .comment ⟨l, rfl, hopens⟩ (by simp) (Or.inr ⟨l, rfl, hcloses⟩) hnone
        · rename_i hcloses
          exact hsome [l] ⟨l, rfl, hopens⟩ (by simpa using hcloses)
    · obtain ⟨first, hfirst, hopens⟩ := hopens
      have hhead : (begun ++ [l]).head? = some first := by simp [hfirst]
      rw [segmentsFrom]
      split
      · rename_i hcloses
        exact .comment ⟨first, hhead, hopens⟩ (by simpa using hinside)
          (Or.inr ⟨l, by simp, hcloses⟩) hnone
      · rename_i hcloses
        refine hsome (begun ++ [l]) ⟨first, hhead, hopens⟩ fun k hk => ?_
        rcases List.mem_append.1 hk with hk | hk
        · exact hinside k hk
        · rw [List.mem_singleton.1 hk]
          simpa using hcloses

theorem flatMap_lines_segmentsFrom (begun : Option (List (List Char))) (ls : List (List Char)) :
    (segmentsFrom begun ls).flatMap Segment.lines = begun.getD [] ++ ls := by
  induction ls generalizing begun with
  | nil => cases begun <;> simp [segmentsFrom, Segment.lines]
  | cons l ls ih =>
    cases begun with
    | none =>
      rw [segmentsFrom]
      split
      · simp [Segment.lines, ih]
      · split
        · simp [Segment.lines, ih]
        · simp [ih]
    | some begun =>
      rw [segmentsFrom]
      split
      · simp [Segment.lines, ih]
      · simp [ih]

/-! ## Blocks -/

/-- The lines that a block stands for. -/
def Block.linesIn (b : Block) (ls : List (List Char)) : List (List Char) :=
  (ls.drop (b.firstLine - 1)).take (b.lastLine + 1 - b.firstLine)

/-- A block stands for lines of a text that are one comment: the first of them starts it, none but
the last closes it, and the last does unless the text ends there. -/
structure Block.IsComment (b : Block) (ls : List (List Char)) : Prop where
  bounds : 1 ≤ b.firstLine ∧ b.firstLine ≤ b.lastLine ∧ b.lastLine ≤ ls.length
  text : b.text = String.ofList (joinWith ['\n'] (b.linesIn ls))
  opens : ∃ l, (b.linesIn ls).head? = some l ∧ ['/', '*', '*'] <+: trimStart l
  inside : ∀ l ∈ (b.linesIn ls).dropLast, ¬ ['*', '/'] <:+: l
  closes : b.lastLine ≠ ls.length → ∃ l, (b.linesIn ls).getLast? = some l ∧ ['*', '/'] <:+: l

section Blocks
variable {n : Nat} {owner : Option String} {segs : List Segment} {b : Block}

theorem exists_segment (hb : b ∈ blocksFrom n owner segs) :
    ∃ before ls behind, segs = before ++ .comment ls :: behind ∧
      b.firstLine = n + (before.flatMap Segment.lines).length ∧
      b.lastLine = b.firstLine + ls.length - 1 ∧ b.text = String.ofList (joinWith ['\n'] ls) := by
  induction segs generalizing n owner with
  | nil => cases hb
  | cons seg segs ih =>
    cases seg with
    | code line =>
      rw [blocksFrom] at hb
      obtain ⟨before, ls, behind, rfl, hfirst, hrest⟩ := ih hb
      refine ⟨.code line :: before, ls, behind, rfl, ?_, hrest⟩
      rw [hfirst, List.flatMap_cons, List.length_append]
      simp only [Segment.lines, List.length_singleton]
      omega
    | comment ls =>
      rw [blocksFrom] at hb
      rcases List.mem_cons.1 hb with rfl | hb
      · exact ⟨[], ls, segs, rfl, rfl, rfl, rfl⟩
      · obtain ⟨before, ls', behind, rfl, hfirst, hrest⟩ := ih hb
        refine ⟨.comment ls :: before, ls', behind, rfl, ?_, hrest⟩
        rw [hfirst, List.flatMap_cons, List.length_append]
        simp only [Segment.lines]
        omega

theorem le_firstLine (hb : b ∈ blocksFrom n owner segs) : n ≤ b.firstLine := by
  obtain ⟨before, ls, behind, -, hfirst, -⟩ := exists_segment hb
  omega

theorem pairwise_blocksFrom (h : Segmented segs) (n : Nat) (owner : Option String) :
    (blocksFrom n owner segs).Pairwise fun b c => b.lastLine < c.firstLine := by
  induction h generalizing n owner with
  | nil => exact List.Pairwise.nil
  | code _ _ ih =>
    rw [blocksFrom]
    exact ih _ _
  | @comment ls rest hopens _ _ _ ih =>
    rw [blocksFrom]
    refine List.pairwise_cons.2 ⟨fun c hc => ?_, ih _ _⟩
    obtain ⟨l, hl, -⟩ := hopens
    have hpos : 0 < ls.length := List.length_pos_of_mem (List.mem_of_head? hl)
    have hle := le_firstLine hc
    show n + ls.length - 1 < c.firstLine
    omega

theorem exists_block (h : Segmented segs) (n : Nat) (owner : Option String) {k : Nat} {l : List Char}
    (hl : (segs.flatMap Segment.lines)[k]? = some l) (hopens : opensComment l = true) :
    ∃ b ∈ blocksFrom n owner segs, b.firstLine ≤ n + k ∧ n + k ≤ b.lastLine := by
  induction h generalizing n owner k with
  | nil => simp at hl
  | @code line rest hcode _ ih =>
    cases k with
    | zero =>
      obtain rfl : line = l := Option.some.inj hl
      rw [hopens] at hcode
      cases hcode
    | succ k =>
      obtain ⟨b, hb, hfirst, hlast⟩ := ih (n + 1) ((className? line).or owner) hl
      exact ⟨b, hb, by omega, by omega⟩
  | @comment ls rest hstarts _ _ _ ih =>
    rw [List.flatMap_cons, Segment.lines] at hl
    rw [blocksFrom]
    by_cases hk : k < ls.length
    · refine ⟨_, List.mem_cons_self, ?_, ?_⟩
      · show n ≤ n + k
        omega
      · show n + k ≤ n + ls.length - 1
        omega
    · rw [List.getElem?_append_right (by omega)] at hl
      obtain ⟨b, hb, hfirst, hlast⟩ := ih (n + ls.length) owner hl
      exact ⟨b, List.mem_cons_of_mem _ hb, by omega, by omega⟩

theorem isComment_of_mem (h : Segmented segs) (hb : b ∈ blocksFrom 1 owner segs) :
    b.IsComment (segs.flatMap Segment.lines) := by
  obtain ⟨before, ls, behind, rfl, hfirst, hlast, htext⟩ := exists_segment hb
  cases h.of_append with
  | comment hopens hinside hcloses _ =>
    obtain ⟨l, hl, hopens⟩ := hopens
    have hpos : 0 < ls.length := List.length_pos_of_mem (List.mem_of_head? hl)
    have hlines : (before ++ .comment ls :: behind).flatMap Segment.lines =
        before.flatMap Segment.lines ++ (ls ++ behind.flatMap Segment.lines) := by
      simp [Segment.lines]
    have hlength : ((before ++ .comment ls :: behind).flatMap Segment.lines).length =
        (before.flatMap Segment.lines).length + ls.length +
          (behind.flatMap Segment.lines).length := by
      rw [hlines, List.length_append, List.length_append]
      omega
    have hspan : b.linesIn ((before ++ .comment ls :: behind).flatMap Segment.lines) = ls := by
      unfold Block.linesIn
      rw [hlines, show b.firstLine - 1 = (before.flatMap Segment.lines).length by omega,
        List.drop_left, show b.lastLine + 1 - b.firstLine = ls.length by omega, List.take_left]
    refine ⟨by omega, ?_, ?_, ?_, ?_⟩
    · rw [hspan]
      exact htext
    · rw [hspan]
      exact ⟨l, hl, opensComment_iff.1 hopens⟩
    · rw [hspan]
      intro k hk hclose
      have hnot := hinside k hk
      rw [closesComment_iff.2 hclose] at hnot
      cases hnot
    · rw [hspan]
      intro hne
      rcases hcloses with rfl | ⟨k, hk, hclose⟩
      · rw [List.flatMap_nil, List.length_nil] at hlength
        omega
      · exact ⟨k, hk, closesComment_iff.1 hclose⟩

end Blocks

/-- Two blocks that follow each other have no line in common. -/
theorem eq_of_pairwise {blocks : List Block} (h : blocks.Pairwise fun b c => b.lastLine < c.firstLine)
    {b c : Block} (hb : b ∈ blocks) (hc : c ∈ blocks) {k : Nat}
    (hbk : b.firstLine ≤ k ∧ k ≤ b.lastLine) (hck : c.firstLine ≤ k ∧ k ≤ c.lastLine) : b = c := by
  induction blocks with
  | nil => cases hb
  | cons first blocks ih =>
    obtain ⟨hfirst, hrest⟩ := List.pairwise_cons.1 h
    rcases List.mem_cons.1 hb with rfl | hb'
    · rcases List.mem_cons.1 hc with rfl | hc'
      · rfl
      · have hapart := hfirst c hc'
        omega
    · rcases List.mem_cons.1 hc with rfl | hc'
      · have hapart := hfirst b hb'
        omega
      · exact ih hrest hb' hc'

/-- The blocks of a source text are comments of its lines, in order and apart from each other, and
each line that looks like the start of a comment is in exactly one of them. -/
theorem scan_partitions (text : String) :
    (∀ b ∈ (scan text).blocks, b.IsComment (lines text.toList)) ∧
      (scan text).blocks.Pairwise (fun b c => b.lastLine < c.firstLine) ∧
      ∀ k l, (lines text.toList)[k]? = some l → ['/', '*', '*'] <+: trimStart l →
        ∃! b, b ∈ (scan text).blocks ∧ b.firstLine ≤ k + 1 ∧ k + 1 ≤ b.lastLine := by
  have hsegmented : Segmented (segments text) := (segmented_segmentsFrom _).1
  have hlines : (segments text).flatMap Segment.lines = lines text.toList :=
    flatMap_lines_segmentsFrom none _
  have hordered := pairwise_blocksFrom hsegmented 1 none
  refine ⟨fun b hb => ?_, hordered, fun k l hl hopens => ?_⟩
  · rw [← hlines]
    exact isComment_of_mem hsegmented hb
  · rw [← hlines] at hl
    obtain ⟨b, hb, hfirst, hlast⟩ :=
      exists_block hsegmented 1 none hl (opensComment_iff.2 hopens)
    refine ⟨b, ⟨hb, by omega, by omega⟩, ?_⟩
    rintro c ⟨hc, hfirst', hlast'⟩
    exact eq_of_pairwise hordered hc hb ⟨hfirst', hlast'⟩ ⟨by omega, by omega⟩

end VersionedApi.Docblock
