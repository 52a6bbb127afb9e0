import VersionedApi.Proofs.Docblock.Classes
import VersionedApi.Proofs.Text.Cut

/-!
# Lines that open and close tags

* `Opening` : the grammar of a line that opens a tag; `opening?_eq_some_iff` : what the reader finds
  in such a line;
* `IsOpener`, `IsCloser`, `IsPlain` : the three classes of lines; `roleOf_eq_opens_iff`,
  `roleOf_eq_closes_iff`, `roleOf_eq_continues_iff` : the role of a line is its class.
-/

namespace VersionedApi.Docblock

open VersionedApi.Text

/-! ## Characters of tags -/

theorem isBlank_of_isTagChar {c : Char} (h : isTagChar c = true) : isBlank c = false := by
  rw [isTagChar, Bool.or_eq_true, beq_iff_eq] at h
  rcases h with h | rfl
  · exact isBlank_of_isWord h
  · decide

theorem isTagChar_of_isAsciiLetter {c : Char} (h : isAsciiLetter c = true) :
    isTagChar c = true := by
  have hplain : c.toNat < 0x80 := by
    simp only [isAsciiLetter, Bool.or_eq_true, Bool.and_eq_true, decide_eq_true_eq] at h
    rcases h with ⟨-, h⟩ | ⟨-, h⟩
    · exact Nat.lt_of_le_of_lt (show c.toNat ≤ 'Z'.toNat from h) (by decide)
    · exact Nat.lt_of_le_of_lt (show c.toNat ≤ 'z'.toNat from h) (by decide)
  simp [isTagChar, isWord, hplain, h]

theorem isTagChar_of_isTagName {name : List Char} (h : isTagName name = true) :
    ∀ c ∈ name, isTagChar c = true := by
  cases name with
  | nil => cases h
  | cons d rest =>
    rw [isTagName, Bool.and_eq_true, List.all_eq_true] at h
    intro c hc
    rcases List.mem_cons.1 hc with rfl | hc
    · exact isTagChar_of_isAsciiLetter h.1
    · exact h.2 c hc

theorem isTagChar_of_isDecorator {d : List Char} (h : isDecorator d = true) :
    ∀ c ∈ d, isTagChar c = true := by
  rw [isDecorator, Bool.and_eq_true, List.all_eq_true] at h
  exact h.2

theorem ne_colon_of_isTagChar {c : Char} (h : isTagChar c = true) : (c == ':') = false := by
  rw [beq_eq_false_iff_ne]
  rintro rfl
  exact absurd h (by decide)

/-! ## The grammar of an opening -/

/-- A text that opens a tag: the marker, a name, decorators behind colons and, unless the text ends
there, blanks and what the line says. -/
structure Opening (bare name : List Char) (decorators : List (List Char)) (said : List Char) :
    Prop where
  named : isTagName name = true
  decorated : ∀ d ∈ decorators, isDecorator d = true
  starts : ∀ c, said.head? = some c → isBlank c = false
  written : ∃ blanks, (∀ c ∈ blanks, isBlank c = true) ∧ (blanks = [] → said = []) ∧
    bare = marker ++ (name ++ decorators.flatMap (':' :: ·) ++ (blanks ++ said))

namespace Opening

variable {bare name said : List Char} {decorators : List (List Char)}

theorem isBlank_of_mem (h : Opening bare name decorators said) {c : Char}
    (hc : c ∈ name ++ decorators.flatMap (':' :: ·)) : isBlank c = false := by
  rcases List.mem_append.1 hc with hc | hc
  · exact isBlank_of_isTagChar (isTagChar_of_isTagName h.named c hc)
  · obtain ⟨d, hd, hc⟩ := List.mem_flatMap.1 hc
    rcases List.mem_cons.1 hc with rfl | hc
    · decide
    · exact isBlank_of_isTagChar (isTagChar_of_isDecorator (h.decorated d hd) c hc)

theorem pieces_eq (h : Opening bare name decorators said) :
    pieces (· == ':') (name ++ decorators.flatMap (':' :: ·)) = name :: decorators := by
  rw [← joinWith_cons]
  refine pieces_joinWith ':' (List.cons_ne_nil _ _) fun piece hpiece c hc => ?_
  apply ne_colon_of_isTagChar
  rcases List.mem_cons.1 hpiece with rfl | hpiece
  · exact isTagChar_of_isTagName h.named c hc
  · exact isTagChar_of_isDecorator (h.decorated piece hpiece) c hc

theorem opening?_eq (h : Opening bare name decorators said) :
    opening? bare = some (.opens name decorators said) := by
  obtain ⟨blanks, hblanks, hsaid, hbare⟩ := h.written
  have hfirst : ∀ c ∈ name ++ decorators.flatMap (':' :: ·), (!isBlank c) = true := by
    intro c hc
    simp [h.isBlank_of_mem hc]
  -- what follows is empty or starts with a blank, so the first run without blanks ends there
  have hbehind : ∀ c, (blanks ++ said).head? = some c → (!isBlank c) = false := by
    intro c hc
    cases blanks with
    | nil => simp [hsaid rfl] at hc
    | cons d blanks =>
      obtain rfl : d = c := by simpa using hc
      simp [hblanks d (by simp)]
  have htrim : trimStart (blanks ++ said) = said := dropWhile_append_eq hblanks h.starts
  have hgood : (isTagName name && decorators.all isDecorator) = true := by
    rw [Bool.and_eq_true, List.all_eq_true]
    exact ⟨h.named, h.decorated⟩
  unfold opening?
  rw [after?_eq_some_iff.2 hbare, Option.bind_some, takeWhile_append_eq hfirst hbehind,
    dropWhile_append_eq hfirst hbehind, htrim, h.pieces_eq]
  simp only [hgood, if_true]

theorem startsTag (h : Opening bare name decorators said) : startsTag bare = true := by
  obtain ⟨blanks, -, -, rfl⟩ := h.written
  rfl

end Opening

/-- The reader accepts the openings, and takes them apart. -/
theorem opening?_eq_some_iff {bare : List Char} {role : LineRole} :
    opening? bare = some role ↔
      ∃ name decorators said, role = .opens name decorators said ∧
        Opening bare name decorators said := by
  constructor
  · intro h
    unfold opening? at h
    obtain ⟨rest, hrest, h⟩ := Option.bind_eq_some_iff.1 h
    split at h
    · cases h
    · rename_i name decorators hpieces
      split at h
      · rename_i hgood
        cases h
        rw [Bool.and_eq_true, List.all_eq_true] at hgood
        have hhead : rest.takeWhile (!isBlank ·) = name ++ decorators.flatMap (':' :: ·) := by
          rw [← joinWith_cons, ← hpieces, joinWith_pieces]
        refine ⟨name, decorators, _, rfl, hgood.1, hgood.2, ?_, ?_⟩
        · intro c hc
          obtain ⟨behind, hbehind⟩ := List.head?_eq_some_iff.1 hc
          exact head_trimStart hbehind
        · refine ⟨(rest.dropWhile (!isBlank ·)).takeWhile isBlank, ?_, ?_, ?_⟩
          · intro c hc
            exact List.mem_takeWhile_imp hc
          · intro hnil
            -- the rest starts with a blank if it is not empty
            cases htail : rest.dropWhile (!isBlank ·) with
            | nil => rfl
            | cons c tail =>
              have hblank := List.head?_dropWhile_not (!isBlank ·) rest
              rw [htail] at hblank hnil
              simp only [List.head?_cons, Bool.not_eq_false'] at hblank
              simp [hblank] at hnil
          · rw [trimStart, List.takeWhile_append_dropWhile, ← hhead,
              List.takeWhile_append_dropWhile]
            exact after?_eq_some_iff.1 hrest
      · cases h
  · rintro ⟨name, decorators, said, rfl, h⟩
    exact h.opening?_eq

/-! ## Classes of lines -/

/-- After its blanks the line opens a tag. -/
def IsOpener (line : List Char) : Prop :=
  ∃ name decorators said, Opening (trimStart line) name decorators said

/-- After its blanks the line starts with an at sign and a letter, but opens no tag. -/
def IsCloser (line : List Char) : Prop :=
  ¬ IsOpener line ∧ ∃ c rest, trimStart line = '@' :: c :: rest ∧ isAsciiLetter c = true

def IsPlain (line : List Char) : Prop := ¬ IsOpener line ∧ ¬ IsCloser line

section Roles
variable {line name said : List Char} {decorators : List (List Char)}

theorem startsTag_iff {bare : List Char} :
    startsTag bare = true ↔ ∃ c rest, bare = '@' :: c :: rest ∧ isAsciiLetter c = true := by
  unfold startsTag
  split
  · simp
  · rename_i hnot
    constructor
    · intro h
      cases h
    · rintro ⟨c, rest, rfl, -⟩
      exact absurd rfl (hnot c rest)

theorem roleOf_eq_opens_iff : roleOf line = .opens name decorators said ↔
    Opening (trimStart line) name decorators said := by
  constructor
  · intro h
    unfold roleOf at h
    dsimp only at h
    split at h
    · rename_i role hopening
      obtain ⟨_, _, _, rfl, hopens⟩ := opening?_eq_some_iff.1 hopening
      cases h
      exact hopens
    · split at h <;> cases h
  · intro h
    unfold roleOf
    dsimp only
    rw [h.opening?_eq]

theorem opening?_eq_none_iff : opening? (trimStart line) = none ↔ ¬ IsOpener line := by
  constructor
  · rintro h ⟨name, decorators, said, hopens⟩
    rw [hopens.opening?_eq] at h
    cases h
  · intro h
    cases hopening : opening? (trimStart line) with
    | none => rfl
    | some role =>
      obtain ⟨name, decorators, said, -, hopens⟩ := opening?_eq_some_iff.1 hopening
      exact absurd ⟨name, decorators, said, hopens⟩ h

theorem roleOf_of_not_isOpener (h : ¬ IsOpener line) :
    roleOf line = if startsTag (trimStart line) then .closes else .continues := by
  unfold roleOf
  dsimp only
  rw [opening?_eq_none_iff.2 h]

theorem roleOf_eq_closes_iff : roleOf line = .closes ↔ IsCloser line := by
  constructor
  · intro h
    have hnot : ¬ IsOpener line := by
      rintro ⟨name, decorators, said, hopens⟩
      rw [roleOf_eq_opens_iff.2 hopens] at h
      cases h
    refine ⟨hnot, startsTag_iff.1 ?_⟩
    rw [roleOf_of_not_isOpener hnot] at h
    by_contra hstarts
    simp [hstarts] at h
  · rintro ⟨hnot, hstarts⟩
    rw [roleOf_of_not_isOpener hnot, if_pos (startsTag_iff.2 hstarts)]

theorem roleOf_eq_continues_iff : roleOf line = .continues ↔ IsPlain line := by
  constructor
  · intro h
    refine ⟨?_, fun hcloser => ?_⟩
    · rintro ⟨name, decorators, said, hopens⟩
      rw [roleOf_eq_opens_iff.2 hopens] at h
      cases h
    · rw [roleOf_eq_closes_iff.2 hcloser] at h
      cases h
  · rintro ⟨hnot, hcloser⟩
    rw [roleOf_of_not_isOpener hnot, if_neg]
    exact fun hstarts => hcloser ⟨hnot, startsTag_iff.1 hstarts⟩

/-- A line is plain exactly if it does not start with an at sign and a letter after its blanks. -/
theorem isPlain_iff : IsPlain line ↔ startsTag (trimStart line) = false := by
  constructor
  · rintro ⟨hnot, hcloser⟩
    rw [← Bool.not_eq_true]
    exact fun hstarts => hcloser ⟨hnot, startsTag_iff.1 hstarts⟩
  · intro h
    refine ⟨?_, ?_⟩
    · rintro ⟨name, decorators, said, hopens⟩
      rw [hopens.startsTag] at h
      cases h
    · rintro ⟨-, hstarts⟩
      rw [startsTag_iff.2 hstarts] at h
      cases h

end Roles

end VersionedApi.Docblock
