import Mathlib.Data.List.DropRight
import VersionedApi.Text.Cut

/-!
# Trimming and cutting

* `takeWhile_append_eq`, `dropWhile_append_eq` : a run at the start of a text and what follows it;
* `trimEnd_eq_self`, `exists_trimEnd_append`, `trim_eq_self`, `trim_trim` : what trimming leaves as it
  is, and what it takes away;
* `FirstCut` : a text falls into two parts at the first occurrence of a mark;
  `cutAt_eq_some_iff` and `cutAt_eq_none_iff` : `cutAt` finds these parts, or the mark does not
  occur; `cutAt_mark_eq_some_iff`, `cutAt_eq_none` : so it is with a mark of one letter;
* `startsWith_iff`, `occurs_iff` : a mark at the start of a text, or anywhere in it;
* `pieces_of_not`, `pieces_append_cons` : a text falls into pieces at its separators;
  `joinWith_pieces`, `pieces_joinWith` : a text and its pieces determine each other;
* `lines_joinWith` : lines put together with line feeds are the lines of what they make;
  `infix_of_mem_lines`, `not_feed_of_mem_lines` : a line is a part of its text without a line feed;
* `dotted_inj` : so a dotted name is known from its parts.
-/

namespace VersionedApi.Text

/-! ## Runs -/

section Runs
variable {α : Type} {p : α → Bool} {xs rest : List α}

/-- A run ends before the first element that does not belong to it. -/
theorem takeWhile_append_eq (h : ∀ x ∈ xs, p x = true)
    (hrest : ∀ r, rest.head? = some r → p r = false) : (xs ++ rest).takeWhile p = xs := by
  rw [List.takeWhile_append_of_pos h]
  cases rest with
  | nil => simp
  | cons r rest => simp [hrest r rfl]

theorem dropWhile_append_eq (h : ∀ x ∈ xs, p x = true)
    (hrest : ∀ r, rest.head? = some r → p r = false) : (xs ++ rest).dropWhile p = rest := by
  rw [List.dropWhile_append_of_pos h]
  cases rest with
  | nil => rfl
  | cons r rest => simp [hrest r rfl]

end Runs

theorem dropWhile_eq_self {p : Char → Bool} {cs : List Char} (h : ∀ c ∈ cs, p c = false) :
    cs.dropWhile p = cs := by
  cases cs with
  | nil => rfl
  | cons c cs => rw [List.dropWhile_cons_of_neg (by simp [h c (by simp)])]

/-! ## Trimming -/

theorem trimEnd_append_blanks {cs blanks : List Char} (h : ∀ c ∈ blanks, isBlank c = true) :
    trimEnd (cs ++ blanks) = trimEnd cs := by
  have hr : ∀ c ∈ blanks.reverse, isBlank c = true := fun c hc => h c (List.mem_reverse.1 hc)
  rw [trimEnd, List.reverse_append, List.dropWhile_append_of_pos hr, trimEnd]

theorem trimEnd_eq_self {cs : List Char} (h : ∀ c, cs.getLast? = some c → isBlank c = false) :
    trimEnd cs = cs := by
  show cs.rdropWhile isBlank = cs
  rw [List.rdropWhile_eq_self_iff]
  intro hne
  have hlast := h _ (List.getLast?_eq_some_getLast hne)
  simp [hlast]

theorem trimEnd_append_eq_self {cs es : List Char} {c : Char} (hlast : es.getLast? = some c)
    (hc : isBlank c = false) : trimEnd (cs ++ es) = cs ++ es := by
  apply trimEnd_eq_self
  intro d hd
  rw [List.getLast?_append, hlast, Option.some_or] at hd
  rwa [← Option.some.inj hd]

theorem exists_trimEnd_append (cs : List Char) :
    (∀ c, (trimEnd cs).getLast? = some c → isBlank c = false) ∧
      ∃ blanks, (∀ c ∈ blanks, isBlank c = true) ∧ cs = trimEnd cs ++ blanks := by
  constructor
  · intro c hc
    rw [trimEnd, List.getLast?_reverse] at hc
    have hnot := List.head?_dropWhile_not isBlank cs.reverse
    rw [hc] at hnot
    exact hnot
  · refine ⟨cs.rtakeWhile isBlank, fun c hc => List.mem_rtakeWhile_imp hc, ?_⟩
    exact List.rdropWhile_append_rtakeWhile.symm

theorem isBlank_space : isBlank ' ' = true := by decide

theorem trim_eq_self {cs : List Char} (h : ∀ c ∈ cs, isBlank c = false) : trim cs = cs := by
  have hr : ∀ c ∈ cs.reverse, isBlank c = false := fun c hc => h c (List.mem_reverse.1 hc)
  rw [trim, trimStart, dropWhile_eq_self h, trimEnd, dropWhile_eq_self hr, List.reverse_reverse]

theorem head_trimStart {c : Char} {cs rest : List Char} (h : trimStart cs = c :: rest) :
    isBlank c = false := by
  have hnot := List.head?_dropWhile_not isBlank cs
  rw [show cs.dropWhile isBlank = c :: rest from h] at hnot
  exact hnot

theorem trimStart_trimEnd {cs : List Char} (h : trimStart cs = cs) :
    trimStart (trimEnd cs) = trimEnd cs := by
  obtain ⟨blanks, hsplit⟩ := List.rdropWhile_prefix isBlank cs
  change trimEnd cs ++ blanks = cs at hsplit
  cases hend : trimEnd cs with
  | nil => rfl
  | cons c rest =>
    rw [hend] at hsplit
    rw [← hsplit, List.cons_append] at h
    rw [trimStart, List.dropWhile_cons_of_neg (by simp [head_trimStart h])]

theorem trim_trim (cs : List Char) : trim (trim cs) = trim cs := by
  have hstart : trimStart (trimStart cs) = trimStart cs := List.dropWhile_idempotent isBlank cs
  have hend : trimEnd (trimEnd (trimStart cs)) = trimEnd (trimStart cs) :=
    List.rdropWhile_idempotent isBlank (trimStart cs)
  unfold trim
  rw [trimStart_trimEnd hstart, hend]

/-! ## Cutting at a mark -/

theorem after?_eq_some_iff {mark cs rest : List Char} :
    after? mark cs = some rest ↔ cs = mark ++ rest := by
  induction mark generalizing cs with
  | nil => simp [after?]
  | cons m mark ih =>
    cases cs with
    | nil => simp [after?]
    | cons c cs =>
      rw [after?]
      split
      · rename_i hm
        rw [ih, List.cons_append, hm, List.cons_inj_right]
      · rename_i hm
        have hne : c :: cs ≠ m :: mark ++ rest := fun h => hm (List.cons.inj h).1.symm
        simp only [reduceCtorEq, false_iff]
        exact hne

/-- The text is `before`, the mark and `rest`, and the mark occurs nowhere earlier. -/
structure FirstCut (mark cs before rest : List Char) : Prop where
  eq : cs = before ++ mark ++ rest
  first : ∀ b r, cs = b ++ mark ++ r → before.length ≤ b.length

namespace FirstCut

variable {mark cs before rest : List Char}

theorem here (rest : List Char) : FirstCut mark (mark ++ rest) [] rest :=
  ⟨rfl, fun _ _ _ => Nat.zero_le _⟩

theorem cons {c : Char} (h : FirstCut mark cs before rest) (hc : after? mark (c :: cs) = none) :
    FirstCut mark (c :: cs) (c :: before) rest := by
  refine ⟨by rw [h.eq]; rfl, fun b r hb => ?_⟩
  cases b with
  | nil =>
    rw [List.nil_append] at hb
    rw [after?_eq_some_iff.2 hb] at hc
    cases hc
  | cons d b =>
    have htail := h.first b r (List.cons.inj hb).2
    simp only [List.length_cons]
    omega

theorem unique {before' rest' : List Char} (h : FirstCut mark cs before rest)
    (h' : FirstCut mark cs before' rest') : before' = before ∧ rest' = rest := by
  have hlength : before'.length = before.length :=
    Nat.le_antisymm (h'.first before rest h.eq) (h.first before' rest' h'.eq)
  have heq : before' ++ (mark ++ rest') = before ++ (mark ++ rest) := by
    rw [← List.append_assoc, ← List.append_assoc, ← h.eq, ← h'.eq]
  obtain ⟨hbefore, hbehind⟩ := List.append_inj heq hlength
  exact ⟨hbefore, List.append_cancel_left hbehind⟩

end FirstCut

theorem not_infix_nil {mark : List Char} (h : mark.isEmpty = false) : ¬ mark <:+: [] := by
  intro hmark
  rw [List.infix_nil.1 hmark] at h
  cases h

/-- What `cutAt` finds is the first cut, and it finds nothing only where there is no mark. -/
theorem cutAt_spec (mark cs : List Char) :
    match cutAt mark cs with
    | some (before, rest) => FirstCut mark cs before rest
    | none => ¬ mark <:+: cs := by
  induction cs with
  | nil =>
    rw [cutAt]
    by_cases hmark : mark.isEmpty = true
    · rw [if_pos hmark, List.isEmpty_iff.1 hmark]
      exact FirstCut.here []
    · rw [if_neg hmark]
      exact not_infix_nil (by simpa using hmark)
  | cons c cs ih =>
    rw [cutAt]
    cases hafter : after? mark (c :: cs) with
    | some rest =>
      rw [after?_eq_some_iff.1 hafter]
      exact FirstCut.here rest
    | none =>
      cases hcut : cutAt mark cs with
      | some parts =>
        rw [hcut] at ih
        exact FirstCut.cons ih hafter
      | none =>
        rw [hcut] at ih
        intro hmark
        rcases List.infix_cons_iff.1 hmark with ⟨rest, hrest⟩ | hmark
        · rw [after?_eq_some_iff.2 hrest.symm] at hafter
          cases hafter
        · exact ih hmark

theorem cutAt_eq_some_iff {mark cs before rest : List Char} :
    cutAt mark cs = some (before, rest) ↔ FirstCut mark cs before rest := by
  have hspec := cutAt_spec mark cs
  constructor
  · intro h
    rw [h] at hspec
    exact hspec
  · intro h
    cases hcut : cutAt mark cs with
    | some parts =>
      obtain ⟨before', rest'⟩ := parts
      rw [hcut] at hspec
      obtain ⟨rfl, rfl⟩ := h.unique hspec
      rfl
    | none =>
      rw [hcut] at hspec
      exact absurd ⟨before, rest, h.eq.symm⟩ hspec

theorem cutAt_eq_none_iff {mark cs : List Char} : cutAt mark cs = none ↔ ¬ mark <:+: cs := by
  have hspec := cutAt_spec mark cs
  constructor
  · intro h
    rw [h] at hspec
    exact hspec
  · intro h
    cases hcut : cutAt mark cs with
    | some parts =>
      rw [hcut] at hspec
      exact absurd ⟨_, _, hspec.eq.symm⟩ h
    | none => rfl

/-- A text is cut at the first occurrence of a one-letter mark. -/
theorem cutAt_mark {m : Char} {before : List Char} (rest : List Char) (h : m ∉ before) :
    cutAt [m] (before ++ m :: rest) = some (before, rest) := by
  induction before with
  | nil => simp [cutAt, after?]
  | cons c before ih =>
    have hc : m ≠ c := fun e => h (by simp [e])
    have ht : m ∉ before := fun e => h (List.mem_cons_of_mem c e)
    simp [cutAt, after?, hc, ih ht]

theorem cutAt_mark_eq_some_iff {m : Char} {cs before rest : List Char} :
    cutAt [m] cs = some (before, rest) ↔ m ∉ before ∧ cs = before ++ m :: rest := by
  constructor
  · intro h
    have hcut := cutAt_eq_some_iff.1 h
    refine ⟨fun hmem => ?_, by rw [hcut.eq]; simp⟩
    -- the mark in front would be an earlier occurrence
    obtain ⟨front, back, hbefore⟩ := List.append_of_mem hmem
    have hle := hcut.first front (back ++ m :: rest) (by rw [hcut.eq, hbefore]; simp)
    rw [hbefore, List.length_append, List.length_cons] at hle
    omega
  · rintro ⟨hbefore, rfl⟩
    exact cutAt_mark rest hbefore

/-- A mark does not occur if its first letter does not. -/
theorem cutAt_eq_none {m : Char} (ms : List Char) {cs : List Char} (h : m ∉ cs) :
    cutAt (m :: ms) cs = none := by
  induction cs with
  | nil => rfl
  | cons c cs ih =>
    have hc : m ≠ c := fun e => h (by simp [e])
    have ht : m ∉ cs := fun e => h (List.mem_cons_of_mem c e)
    simp [cutAt, after?, hc, ih ht]

theorem startsWith_iff {mark cs : List Char} : startsWith mark cs = true ↔ mark <+: cs := by
  unfold startsWith
  rw [Option.isSome_iff_exists]
  constructor
  · rintro ⟨rest, hrest⟩
    exact ⟨rest, (after?_eq_some_iff.1 hrest).symm⟩
  · rintro ⟨rest, hrest⟩
    exact ⟨rest, after?_eq_some_iff.2 hrest.symm⟩

theorem occurs_iff {mark cs : List Char} : occurs mark cs = true ↔ mark <:+: cs := by
  unfold occurs
  rw [Option.isSome_iff_ne_none, ne_eq, cutAt_eq_none_iff, not_not]

/-! ## Pieces -/

theorem pieces_of_not {p : Char → Bool} {cs : List Char} (h : ∀ c ∈ cs, p c = false) :
    pieces p cs = [cs] := by
  induction cs with
  | nil => rfl
  | cons c cs ih =>
    rw [pieces, h c List.mem_cons_self, ih fun d hd => h d (List.mem_cons_of_mem c hd)]

theorem pieces_append_cons {p : Char → Bool} {cs : List Char} (h : ∀ c ∈ cs, p c = false) {s : Char}
    (hs : p s = true) (rest : List Char) : pieces p (cs ++ s :: rest) = cs :: pieces p rest := by
  induction cs with
  | nil => rw [List.nil_append, pieces, hs]
  | cons c cs ih =>
    rw [List.cons_append, pieces, h c List.mem_cons_self,
      ih fun d hd => h d (List.mem_cons_of_mem c hd)]

theorem pieces_ne_nil (p : Char → Bool) (cs : List Char) : pieces p cs ≠ [] := by
  cases cs with
  | nil => exact List.cons_ne_nil _ _
  | cons c cs =>
    rw [pieces]
    split <;> exact List.cons_ne_nil _ _

theorem not_of_mem_pieces {p : Char → Bool} {cs piece : List Char} (h : piece ∈ pieces p cs) :
    ∀ c ∈ piece, p c = false := by
  induction cs generalizing piece with
  | nil =>
    rw [List.mem_singleton.1 h]
    intro c hc
    cases hc
  | cons d cs ih =>
    rw [pieces] at h
    split at h
    · rcases List.mem_cons.1 h with rfl | h
      · intro c hc
        cases hc
      · exact ih h
    · rename_i hd _
      rw [List.mem_singleton.1 h]
      simpa using hd
    · rename_i q ps hd hps
      rcases List.mem_cons.1 h with rfl | h
      · have hq : ∀ c ∈ q, p c = false := ih (by rw [hps]; exact List.mem_cons_self)
        simpa [hd] using hq
      · exact ih (by rw [hps]; exact List.mem_cons_of_mem q h)

theorem joinWith_pieces (s : Char) (cs : List Char) : joinWith [s] (pieces (· == s) cs) = cs := by
  induction cs with
  | nil => rfl
  | cons c cs ih =>
    rw [pieces]
    split
    · rename_i hc
      cases hps : pieces (· == s) cs with
      | nil => exact absurd hps (pieces_ne_nil _ cs)
      | cons q ps =>
        rw [hps] at ih
        rw [joinWith, ih, beq_iff_eq.1 hc]
        rfl
    · rename_i hps
      exact absurd hps (pieces_ne_nil _ cs)
    · rename_i q ps _ hps
      rw [hps] at ih
      cases ps with
      | nil =>
        rw [joinWith] at ih ⊢
        rw [ih]
      | cons q' ps =>
        rw [joinWith] at ih ⊢
        rw [← ih]
        rfl

theorem pieces_joinWith (s : Char) {ps : List (List Char)} (hne : ps ≠ [])
    (h : ∀ piece ∈ ps, ∀ c ∈ piece, (c == s) = false) : pieces (· == s) (joinWith [s] ps) = ps := by
  induction ps with
  | nil => exact absurd rfl hne
  | cons p ps ih =>
    have hp := h p List.mem_cons_self
    cases ps with
    | nil => exact pieces_of_not hp
    | cons q ps =>
      rw [joinWith, List.append_assoc, List.singleton_append,
        pieces_append_cons hp (beq_self_eq_true s),
        ih (List.cons_ne_nil q ps) fun piece hpiece => h piece (List.mem_cons_of_mem p hpiece)]

theorem joinWith_cons (s : Char) (p : List Char) (ps : List (List Char)) :
    joinWith [s] (p :: ps) = p ++ ps.flatMap (s :: ·) := by
  induction ps generalizing p with
  | nil => simp [joinWith]
  | cons q ps ih =>
    rw [joinWith, ih]
    simp

theorem infix_joinWith {sep p : List Char} {ps : List (List Char)} (h : p ∈ ps) :
    p <:+: joinWith sep ps := by
  induction ps with
  | nil => cases h
  | cons q ps ih =>
    cases ps with
    | nil =>
      rw [List.mem_singleton.1 h]
      exact List.infix_rfl
    | cons q' ps =>
      rw [joinWith]
      rcases List.mem_cons.1 h with rfl | h
      · exact ⟨[], sep ++ joinWith sep (q' :: ps), by simp⟩
      · exact (ih h).trans (List.suffix_append _ _).isInfix

/-! ## Lines -/

theorem dropReturn_eq_self {l : List Char} (h : l.getLast? ≠ some '\r') : dropReturn l = l := by
  rw [dropReturn, if_neg h]

theorem terminated_eq_self {ls : List (List Char)} (hreturn : ∀ l ∈ ls, l.getLast? ≠ some '\r')
    (hlast : ls.getLast? ≠ some []) : terminated ls = ls := by
  induction ls with
  | nil => rfl
  | cons l ls ih =>
    cases ls with
    | nil =>
      have hne : l ≠ [] := by simpa using hlast
      rw [terminated, if_neg (by simpa using hne)]
    | cons l' ls =>
      have hlast' : (l' :: ls).getLast? ≠ some [] := by rwa [List.getLast?_cons_cons] at hlast
      rw [terminated, dropReturn_eq_self (hreturn l (by simp)),
        ih (fun k hk => hreturn k (List.mem_cons_of_mem l hk)) hlast']

/-- Lines without a break in them or at their end are the lines of what line feeds make of them, if
the last one is not empty. -/
theorem lines_joinWith {ls : List (List Char)} (hfeed : ∀ l ∈ ls, '\n' ∉ l)
    (hreturn : ∀ l ∈ ls, l.getLast? ≠ some '\r') (hlast : ls.getLast? ≠ some []) :
    lines (joinWith ['\n'] ls) = ls := by
  by_cases hne : ls = []
  · rw [hne]
    rfl
  · have hpieces : pieces (· == '\n') (joinWith ['\n'] ls) = ls := by
      refine pieces_joinWith '\n' hne fun l hl c hc => ?_
      rw [beq_eq_false_iff_ne]
      rintro rfl
      exact hfeed l hl hc
    rw [lines, hpieces, terminated_eq_self hreturn hlast]

theorem infix_of_mem_terminated {l : List Char} {ps : List (List Char)} (h : l ∈ terminated ps) :
    ∃ p ∈ ps, l <:+: p := by
  induction ps with
  | nil => cases h
  | cons p ps ih =>
    cases ps with
    | nil =>
      rw [terminated] at h
      split at h
      · cases h
      · have hl : l = p := List.mem_singleton.1 h
        exact ⟨p, List.mem_cons_self, hl ▸ List.infix_rfl⟩
    | cons p' ps =>
      rw [terminated] at h
      rcases List.mem_cons.1 h with rfl | h
      · refine ⟨p, List.mem_cons_self, ?_⟩
        unfold dropReturn
        split
        · exact (List.dropLast_prefix p).isInfix
        · exact List.infix_rfl
      · obtain ⟨q, hq, hl⟩ := ih h
        exact ⟨q, List.mem_cons_of_mem p hq, hl⟩

theorem infix_of_mem_lines {l cs : List Char} (h : l ∈ lines cs) : l <:+: cs := by
  obtain ⟨p, hp, hl⟩ := infix_of_mem_terminated h
  have hpiece : p <:+: joinWith ['\n'] (pieces (· == '\n') cs) := infix_joinWith hp
  rw [joinWith_pieces] at hpiece
  exact hl.trans hpiece

theorem not_feed_of_mem_lines {l cs : List Char} (h : l ∈ lines cs) : '\n' ∉ l := by
  obtain ⟨p, hp, hl⟩ := infix_of_mem_terminated h
  intro hmem
  exact absurd (not_of_mem_pieces hp '\n' (hl.subset hmem)) (by decide)

/-! ## Dotted names -/

theorem dotted_ne_nil (name : String) : dotted name ≠ [] := by
  unfold dotted
  rw [ne_eq, List.map_eq_nil_iff]
  exact pieces_ne_nil _ _

theorem dotted_joinWith {ps : List (List Char)} (hne : ps ≠ [])
    (h : ∀ piece ∈ ps, ∀ c ∈ piece, (c == '.') = false) :
    dotted (String.ofList (joinWith ['.'] ps)) = ps.map String.ofList := by
  unfold dotted
  rw [String.toList_ofList, pieces_joinWith '.' hne h]

theorem dotted_inj {a b : String} : dotted a = dotted b ↔ a = b := by
  constructor
  · intro h
    have hpieces : pieces (· == '.') a.toList = pieces (· == '.') b.toList :=
      List.map_injective_iff.2 (fun _ _ => String.ofList_inj.1) h
    rw [← String.toList_inj, ← joinWith_pieces '.' a.toList, hpieces, joinWith_pieces]
  · rintro rfl
    rfl

end VersionedApi.Text
