import VersionedApi.Field
import VersionedApi.Proofs.Text.Collapse

/-!
# Shorthands

The parts that the shorthands of fields and responses share, as they are written and as they are
read:

* `IsToken` : what may stand between the commas of a shorthand; `isToken_of_mem_tokens`,
  `tokens_commaSeparated` : such are the tokens that are read, and those that are written are read
  back;
* `parenthesized?_eq_some_iff`, `parenthesized?_parenthesized` : the text between parentheses reaches
  to the first closing one;
* `dashed?_dashed`, `exists_dashed?_dashedLine` : a description is written behind a dash, and read
  back without the blanks around it.
-/

namespace VersionedApi.Text

/-! ## Tokens -/

/-- What may stand between the commas of a shorthand: it is there, trimmed, and ends neither the
token nor the shorthand. -/
structure IsToken (cs : List Char) : Prop where
  ne_nil : cs ≠ []
  trimmed : trim cs = cs
  comma : ',' ∉ cs
  paren : ')' ∉ cs

theorem not_comma_of_mem_tokens {cs t : List Char} (h : t ∈ tokens cs) : ',' ∉ t := by
  obtain ⟨piece, hpiece, rfl⟩ := List.mem_map.1 h
  intro hcomma
  obtain ⟨before, behind, -, -, hsplit⟩ := exists_trim_append piece
  have hmem : ',' ∈ piece := by
    rw [hsplit]
    simp [hcomma]
  exact absurd (not_of_mem_pieces hpiece ',' hmem) (by decide)

/-- The letters of a token are letters of the text. -/
theorem mem_of_mem_tokens {cs t : List Char} (h : t ∈ tokens cs) {c : Char} (hc : c ∈ t) :
    c ∈ cs := by
  obtain ⟨piece, hpiece, rfl⟩ := List.mem_map.1 h
  obtain ⟨before, behind, -, -, hsplit⟩ := exists_trim_append piece
  have hmem : c ∈ piece := by
    rw [hsplit]
    simp [hc]
  have hinfix : piece <:+: joinWith [','] (pieces (· == ',') cs) := infix_joinWith hpiece
  rw [joinWith_pieces] at hinfix
  exact hinfix.subset hmem

theorem isToken_of_mem_tokens {cs t : List Char} (h : t ∈ tokens cs) (hne : t ≠ [])
    (hparen : ')' ∉ cs) : IsToken t where
  ne_nil := hne
  trimmed := by
    obtain ⟨piece, -, rfl⟩ := List.mem_map.1 h
    exact trim_trim piece
  comma := not_comma_of_mem_tokens h
  paren hmem := hparen (mem_of_mem_tokens h hmem)

def commaSeparated (ts : List (List Char)) : List Char := joinWith [',', ' '] ts

theorem tokens_space_cons (cs : List Char) : tokens (' ' :: cs) = tokens cs := by
  unfold tokens
  rw [pieces]
  cases hpieces : pieces (· == ',') cs with
  | nil => exact absurd hpieces (pieces_ne_nil _ cs)
  | cons q ps => rfl

theorem tokens_commaSeparated {ts : List (List Char)} (hne : ts ≠ []) (h : ∀ t ∈ ts, IsToken t) :
    tokens (commaSeparated ts) = ts := by
  unfold commaSeparated
  induction ts with
  | nil => exact absurd rfl hne
  | cons t ts ih =>
    have ht := h t List.mem_cons_self
    have hcomma : ∀ c ∈ t, (c == ',') = false := by
      intro c hc
      rw [beq_eq_false_iff_ne]
      rintro rfl
      exact ht.comma hc
    cases ts with
    | nil => rw [joinWith, tokens, pieces_of_not hcomma, List.map_singleton, ht.trimmed]
    | cons u ts =>
      have hrest := ih (List.cons_ne_nil u ts) fun v hv => h v (List.mem_cons_of_mem t hv)
      rw [joinWith, List.append_assoc, tokens, List.cons_append, List.singleton_append,
        pieces_append_cons hcomma rfl, List.map_cons, ht.trimmed]
      exact congrArg (t :: ·) ((tokens_space_cons _).trans hrest)

theorem not_paren_of_mem_commaSeparated {ts : List (List Char)} (h : ∀ t ∈ ts, IsToken t) :
    ')' ∉ commaSeparated ts := by
  unfold commaSeparated
  induction ts with
  | nil => exact List.not_mem_nil
  | cons t ts ih =>
    have ht := h t List.mem_cons_self
    cases ts with
    | nil => exact ht.paren
    | cons u ts =>
      have hrest := ih fun v hv => h v (List.mem_cons_of_mem t hv)
      rw [joinWith, List.mem_append, List.mem_append]
      rintro ((hmem | hmem) | hmem)
      · exact ht.paren hmem
      · exact absurd hmem (by decide)
      · exact hrest hmem

end VersionedApi.Text

namespace VersionedApi.Field

open VersionedApi.Text

/-! ## Parentheses and what is dashed behind them -/

theorem parenthesized?_eq_some_iff {cs inner : List Char} {description : Option (List Char)} :
    parenthesized? cs = some (inner, description) ↔
      ∃ rest, cs = '(' :: (inner ++ ')' :: rest) ∧ ')' ∉ inner ∧
        dashed? rest = some description := by
  constructor
  · intro h
    unfold parenthesized? at h
    split at h
    · rename_i cs
      obtain ⟨⟨inner', rest⟩, hcut, hdashed⟩ := Option.bind_eq_some_iff.1 h
      obtain ⟨description', hrest, heq⟩ := Option.map_eq_some_iff.1 hdashed
      cases heq
      obtain ⟨hinner, rfl⟩ := cutAt_mark_eq_some_iff.1 hcut
      exact ⟨rest, rfl, hinner, hrest⟩
    · cases h
  · rintro ⟨rest, rfl, hinner, hrest⟩
    rw [parenthesized?, cutAt_mark rest hinner]
    simp [hrest]

/-- Tokens as they are written between parentheses, and what stands behind them. -/
def parenthesized (ts : List (List Char)) (behind : List Char) : List Char :=
  '(' :: (commaSeparated ts ++ ')' :: behind)

theorem parenthesized?_parenthesized {ts : List (List Char)} (hts : ∀ t ∈ ts, IsToken t)
    {behind : List Char} {description : Option (List Char)}
    (hbehind : dashed? behind = some description) :
    parenthesized? (parenthesized ts behind) = some (commaSeparated ts, description) :=
  parenthesized?_eq_some_iff.2 ⟨behind, rfl, not_paren_of_mem_commaSeparated hts, hbehind⟩

theorem isBlank_of_getLast?_parenthesized {ts : List (List Char)} {behind : List Char}
    (hbehind : ∀ c, behind.getLast? = some c → isBlank c = false) {c : Char}
    (h : (parenthesized ts behind).getLast? = some c) : isBlank c = false := by
  rw [parenthesized, ← List.cons_append] at h
  exact isBlank_of_getLast?_append_cons (by decide) hbehind h

def dashed (text : List Char) : List Char := [' ', '-', ' '] ++ text

theorem dashed?_dashed (text : List Char) : dashed? (dashed text) = some (some (trim text)) := by
  have hspace : ∀ c ∈ [' '], isBlank c = true := by simp [isBlank_space]
  rw [← trim_blanks_append hspace]
  rfl

theorem isBlank_of_getLast?_dashed {text : List Char} (hne : text ≠ []) (htrim : trim text = text)
    {c : Char} (hc : (dashed text).getLast? = some c) : isBlank c = false := by
  rw [dashed, List.getLast?_append_of_ne_nil _ hne] at hc
  exact (trim_eq_self_iff.1 htrim).2 c hc

def dashedLine (description : Option String) : List Char :=
  (description.map fun d => dashed d.toList).getD []

section Line
variable {description : Option String} (h : ∀ d ∈ description, IsLine d)
include h

theorem exists_dashed?_dashedLine : ∃ raw, dashed? (dashedLine description) = some raw ∧
    raw.bind collapsed? = description := by
  cases description with
  | none => exact ⟨none, rfl, rfl⟩
  | some d =>
    have hline := h d rfl
    have htrim : trim (trim d.toList) = d.toList := by rw [trim_trim, hline.trimmed]
    refine ⟨some (trim d.toList), dashed?_dashed d.toList, ?_⟩
    rw [Option.bind_some]
    exact collapsed?_of_trim hline htrim

theorem isBlank_of_getLast?_dashedLine {c : Char}
    (hc : (dashedLine description).getLast? = some c) : isBlank c = false := by
  cases description with
  | none => cases hc
  | some d =>
    have hline := h d rfl
    exact isBlank_of_getLast?_dashed (by simpa using hline.ne_empty) hline.trimmed hc

end Line

end VersionedApi.Field
