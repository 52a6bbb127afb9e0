import VersionedApi.Json.Read
import VersionedApi.Json.Text
import VersionedApi.Proofs.Json.Canonical
import VersionedApi.Proofs.Version.Written

/-!
# A value is known from its text

* `stringBody?_flatMap_escaped` : the characters of a string are read back from their escaped form;
* `Settled` : nothing with another meaning has the same text. What follows must not go on with a
  digit (`EndsNumber`), which could belong to a number;
* `settled_quoted`, `settled_number` : this holds of strings and of integers, and
  `Settled.joinWith_inj` : lists of settled parts between commas are known from their texts;
* `Value.Exact` : no number in the value is a double; `Value.settled` : exact values are settled,
  so `Value.compact_inj` : different exact values have different texts.
-/

namespace VersionedApi.Json

open VersionedApi.Text

/-! ## Strings -/

theorem hexNumber?_hexDigit :
    ∀ n < 32, hexNumber? ['0', '0', hexDigit (n / 16), hexDigit (n % 16)] = some n := by
  decide

/-- A control character is read back from its code. -/
theorem stringBody?_code {c : Char} (h : c.toNat < 32) (cs : List Char) :
    stringBody?
        ('\\' :: 'u' :: '0' :: '0' :: hexDigit (c.toNat / 16) :: hexDigit (c.toNat % 16) :: cs) =
      (stringBody? cs).map fun (s, rest) => (c :: s, rest) := by
  have hplain : plainUnit? c.toNat = some c := by
    rw [plainUnit?, if_neg (by simp; omega), Char.ofNat_toNat]
  simp only [stringBody?, hexNumber?_hexDigit c.toNat h, Option.bind_some, hplain]

theorem stringBody?_plain {c : Char} (hquote : c ≠ '\"') (hback : c ≠ '\\') (h : ¬ c.toNat < 32)
    (cs : List Char) :
    stringBody? (c :: cs) = (stringBody? cs).map fun (s, rest) => (c :: s, rest) := by
  rw [stringBody?]
  · rw [if_neg (by simp [hback]; omega)]
  · exact hquote
  · exact fun _ _ _ _ _ heq _ => hback heq
  · exact fun _ _ heq _ => hback heq

theorem stringBody?_escaped (c : Char) (cs : List Char) :
    stringBody? (escaped c ++ cs) = (stringBody? cs).map fun (s, rest) => (c :: s, rest) := by
  have hchar {n : Nat} (h : c.toNat = n) : c = Char.ofNat n := by rw [← h, Char.ofNat_toNat]
  unfold escaped
  split
  · rfl
  · rfl
  · rfl
  · rfl
  · rfl
  · rename_i hquote hback _ _ _
    split_ifs with hb hf hcontrol
    · rw [hchar hb]
      rfl
    · rw [hchar hf]
      rfl
    · exact stringBody?_code hcontrol cs
    · exact stringBody?_plain hquote hback hcontrol cs

theorem stringBody?_flatMap_escaped (s rest : List Char) :
    stringBody? (s.flatMap escaped ++ '\"' :: rest) = some (s, rest) := by
  induction s with
  | nil => rfl
  | cons c s ih => rw [List.flatMap_cons, List.append_assoc, stringBody?_escaped, ih, Option.map_some]

/-! ## Texts that settle what they are the text of -/

/-- A number ends before this text. -/
def EndsNumber (rest : List Char) : Prop := ∀ c, rest.head? = some c → isAsciiDigit c = false

theorem endsNumber_cons {c : Char} (h : isAsciiDigit c = false) (cs : List Char) :
    EndsNumber (c :: cs) := by
  intro d hd
  rwa [← Option.some.inj hd]

theorem endsNumber_nil : EndsNumber [] := by
  intro c hc
  cases hc

/-- Of all that satisfies `P`, nothing but `a` has the text `f a`, and that text does not go on in
what follows it. -/
def Settled {α : Type} (f : α → List Char) (P : α → Prop) (a : α) : Prop :=
  ∀ ⦃b rest rest'⦄, P b → EndsNumber rest → EndsNumber rest' → f a ++ rest = f b ++ rest' →
    a = b ∧ rest = rest'

theorem settled_quoted (s : String) : Settled quoted (fun _ => True) s := by
  intro t rest rest' _ _ _ h
  simp only [quoted, List.cons_append, List.append_assoc, List.nil_append, List.cons.injEq,
    true_and] at h
  have hread := congrArg stringBody? h
  rw [stringBody?_flatMap_escaped, stringBody?_flatMap_escaped, Option.some_inj, Prod.mk.injEq]
    at hread
  exact ⟨String.toList_inj.1 hread.1, hread.2⟩

theorem digits_append_inj {m n : Nat} {rest rest' : List Char} (hrest : EndsNumber rest)
    (hrest' : EndsNumber rest') (h : digits m ++ rest = digits n ++ rest') :
    m = n ∧ rest = rest' := by
  have hrun (k : Nat) {cs : List Char} (hcs : EndsNumber cs) :
      (digits k ++ cs).takeWhile isAsciiDigit = digits k :=
    takeWhile_append_eq (fun c => isAsciiDigit_of_mem_digits) hcs
  have hdigits : digits m = digits n := by rw [← hrun m hrest, h, hrun n hrest']
  rw [hdigits] at h
  exact ⟨by rw [← value_digits m, hdigits, value_digits], List.append_cancel_left h⟩

theorem minus_ne_digits (n : Nat) (cs rest : List Char) : '-' :: cs ≠ digits n ++ rest := by
  intro h
  cases hd : digits n with
  | nil => exact absurd hd Nat.toDigits_ne_nil
  | cons d ds =>
    have hdigit : isAsciiDigit d = true := isAsciiDigit_of_mem_digits (hd ▸ List.mem_cons_self)
    rw [hd, List.cons_append, List.cons.injEq] at h
    rw [← h.1] at hdigit
    exact absurd hdigit (by decide)

theorem settled_number (n : Int) : Settled (fun n => (Number.integer n).text) (fun _ => True) n := by
  intro m rest rest' _ hrest hrest' h
  by_cases hn : n < 0
  · by_cases hm : m < 0
    · simp only [Number.text, hn, hm, if_true, List.cons_append,
        List.cons.injEq, true_and] at h
      have hsize := digits_append_inj hrest hrest' h
      exact ⟨by omega, hsize.2⟩
    · simp only [Number.text, hn, hm, if_true, if_false, List.cons_append,
        List.nil_append] at h
      exact absurd h (minus_ne_digits _ _ _)
  · by_cases hm : m < 0
    · simp only [Number.text, hn, hm, if_true, if_false, List.cons_append,
        List.nil_append] at h
      exact absurd h.symm (minus_ne_digits _ _ _)
    · simp only [Number.text, hn, hm, if_false, List.nil_append] at h
      have hsize := digits_append_inj hrest hrest' h
      exact ⟨by omega, hsize.2⟩

namespace Settled

variable {α : Type} {f : α → List Char} {P : α → Prop} {as bs : List α} {close : Char}
  {rest rest' : List Char} (hclose : close ≠ ',') (hdigit : isAsciiDigit close = false)
include hdigit

omit hclose in
theorem endsNumber_behind (as : List α) (rest : List Char) :
    EndsNumber (as.flatMap (fun a => ',' :: f a) ++ close :: rest) := by
  cases as with
  | nil => exact endsNumber_cons hdigit rest
  | cons a as => exact endsNumber_cons (by decide) _

variable (has : ∀ a ∈ as, Settled f P a) (hbs : ∀ b ∈ bs, P b)
include hclose has hbs

theorem flatMap_inj
    (h : as.flatMap (fun a => ',' :: f a) ++ close :: rest =
      bs.flatMap (fun b => ',' :: f b) ++ close :: rest') : as = bs ∧ rest = rest' := by
  induction as generalizing bs with
  | nil =>
    cases bs with
    | nil => exact ⟨rfl, by simpa using h⟩
    | cons b bs => simp [hclose] at h
  | cons a as ih =>
    cases bs with
    | nil => simp [hclose.symm] at h
    | cons b bs =>
      simp only [List.flatMap_cons, List.cons_append, List.append_assoc, List.cons.injEq,
        true_and] at h
      obtain ⟨rfl, htail⟩ := has a (by simp) (hbs b (by simp)) (endsNumber_behind hdigit as rest)
        (endsNumber_behind hdigit bs rest') h
      obtain ⟨rfl, rfl⟩ := ih (fun x hx => has x (by simp [hx])) (fun x hx => hbs x (by simp [hx]))
        htail
      exact ⟨rfl, rfl⟩

/-- Settled parts between commas are known from their text, if no part starts like the end. -/
theorem joinWith_inj (hne : ∀ a, P a → ∀ cs cs', f a ++ cs ≠ close :: cs') (hP : ∀ a ∈ as, P a)
    (h : joinWith [','] (as.map f) ++ close :: rest =
      joinWith [','] (bs.map f) ++ close :: rest') : as = bs ∧ rest = rest' := by
  cases as with
  | nil =>
    cases bs with
    | nil => exact ⟨rfl, by simpa using h⟩
    | cons b bs =>
      rw [List.map_cons, joinWith_cons, List.append_assoc] at h
      exact absurd h.symm (hne b (hbs b (by simp)) _ _)
  | cons a as =>
    cases bs with
    | nil =>
      rw [List.map_cons, joinWith_cons, List.append_assoc] at h
      exact absurd h (hne a (hP a (by simp)) _ _)
    | cons b bs =>
      simp only [List.map_cons, joinWith_cons, List.append_assoc, List.flatMap_map] at h
      obtain ⟨rfl, htail⟩ := has a (by simp) (hbs b (by simp)) (endsNumber_behind hdigit as rest)
        (endsNumber_behind hdigit bs rest') h
      obtain ⟨rfl, rfl⟩ := flatMap_inj hclose hdigit (fun x hx => has x (by simp [hx]))
        (fun x hx => hbs x (by simp [hx])) htail
      exact ⟨rfl, rfl⟩

end Settled

/-! ## Values -/

namespace Value

/-- No number in the value is a double. -/
inductive Exact : Value → Prop
  | null : Exact null
  | bool (b : Bool) : Exact (bool b)
  | integer (n : Int) : Exact (number (.integer n))
  | string (s : String) : Exact (string s)
  | array {items : List Value} (h : ∀ v ∈ items, Exact v) : Exact (array items)
  | object {entries : List (String × Value)} (h : ∀ e ∈ entries, Exact e.2) :
      Exact (object entries)

def entryChars (e : String × Value) : List Char := quoted e.1 ++ ':' :: compactChars e.2

theorem compactItems_eq (items : List Value) :
    compactItems items = joinWith [','] (items.map compactChars) := by
  induction items with
  | nil => rfl
  | cons v vs ih =>
    cases vs with
    | nil => rfl
    | cons w vs => simpa [compactItems, joinWith] using ih

theorem compactEntries_eq (entries : List (String × Value)) :
    compactEntries entries = joinWith [','] (entries.map entryChars) := by
  induction entries with
  | nil => rfl
  | cons e es ih =>
    cases es with
    | nil => rfl
    | cons d es => simpa [compactEntries, joinWith, entryChars] using ih

/-- The forms of values, by the characters that their texts start with. -/
inductive Form where
  | null
  | bool (b : Bool)
  | number
  | string
  | array
  | object
deriving DecidableEq

def form : Value → Form
  | null => .null
  | bool b => .bool b
  | number _ => .number
  | string _ => .string
  | array _ => .array
  | object _ => .object

/-- The form of what starts with a character. -/
def Form.ofInitial? (c : Char) : Option Form :=
  if c = 'n' then some .null
  else if c = 't' then some (.bool true)
  else if c = 'f' then some (.bool false)
  else if c = '\"' then some .string
  else if c = '[' then some .array
  else if c = '\x7b' then some .object
  else if c = '-' || isAsciiDigit c then some .number
  else none

theorem Form.ofInitial?_digit {c : Char} (h : isAsciiDigit c = true) :
    ofInitial? c = some .number := by
  have hne {d : Char} (hd : isAsciiDigit d = false) : c ≠ d := by
    rintro rfl
    rw [h] at hd
    cases hd
  simp [ofInitial?, h, hne (d := 'n') (by decide), hne (d := 't') (by decide),
    hne (d := 'f') (by decide), hne (d := '\"') (by decide), hne (d := '[') (by decide),
    hne (d := '\x7b') (by decide)]

namespace Exact

/-- The text of an exact value starts with a character of its form. -/
theorem exists_initial {v : Value} (hv : v.Exact) :
    ∃ c cs, v.compactChars = c :: cs ∧ Form.ofInitial? c = some v.form := by
  cases hv with
  | null => exact ⟨_, _, rfl, rfl⟩
  | bool b => cases b <;> exact ⟨_, _, rfl, rfl⟩
  | integer n =>
    rw [compactChars, Number.text]
    split
    · exact ⟨_, _, rfl, rfl⟩
    · rw [List.nil_append]
      cases hd : digits n.natAbs with
      | nil => exact absurd hd Nat.toDigits_ne_nil
      | cons d ds =>
        have hdigit : isAsciiDigit d = true := isAsciiDigit_of_mem_digits (hd ▸ List.mem_cons_self)
        exact ⟨d, ds, rfl, Form.ofInitial?_digit hdigit⟩
  | string s => exact ⟨_, _, rfl, rfl⟩
  | array => exact ⟨_, _, rfl, rfl⟩
  | object => exact ⟨_, _, rfl, rfl⟩

theorem form_eq {v w : Value} (hv : v.Exact) (hw : w.Exact) {rest rest' : List Char}
    (h : v.compactChars ++ rest = w.compactChars ++ rest') : v.form = w.form := by
  obtain ⟨c, cs, hc, hform⟩ := hv.exists_initial
  obtain ⟨d, ds, hd, hform'⟩ := hw.exists_initial
  rw [hc, hd, List.cons_append, List.cons_append, List.cons.injEq] at h
  rw [h.1, hform', Option.some_inj] at hform
  exact hform.symm

theorem ne_bracket {v : Value} (hv : v.Exact) (cs cs' : List Char) :
    v.compactChars ++ cs ≠ ']' :: cs' := by
  obtain ⟨c, ds, hc, hform⟩ := hv.exists_initial
  intro h
  rw [hc, List.cons_append, List.cons.injEq] at h
  rw [h.1] at hform
  exact absurd hform (by simp [Form.ofInitial?, isAsciiDigit])

end Exact

theorem settled_entry {e : String × Value} (he : Settled compactChars Exact e.2) :
    Settled entryChars (fun e => e.2.Exact) e := by
  intro d rest rest' hd hrest hrest' h
  have hcolon (v : Value) (cs : List Char) : EndsNumber (':' :: v.compactChars ++ cs) :=
    endsNumber_cons (by decide) _
  simp only [entryChars, List.append_assoc] at h
  obtain ⟨hkey, h⟩ := settled_quoted e.1 trivial (hcolon _ _) (hcolon _ _) h
  rw [List.cons_append, List.cons_append, List.cons.injEq] at h
  obtain ⟨hvalue, hrest⟩ := he hd hrest hrest' h.2
  exact ⟨Prod.ext hkey hvalue, hrest⟩

/-- An exact value and what follows it are known from their text. -/
theorem settled {v : Value} (hv : v.Exact) : Settled compactChars Exact v := by
  -- the first character tells the form of the other value, and the parts settle the rest
  induction hv with
  | null =>
    intro w rest rest' hw _ _ h
    have hform := Exact.null.form_eq hw h
    cases hw <;> cases hform
    exact ⟨rfl, List.append_cancel_left h⟩
  | bool b =>
    intro w rest rest' hw _ _ h
    have hform := (Exact.bool b).form_eq hw h
    cases hw <;> cases hform
    exact ⟨rfl, List.append_cancel_left h⟩
  | integer n =>
    intro w rest rest' hw hrest hrest' h
    have hform := (Exact.integer n).form_eq hw h
    cases hw <;> cases hform
    obtain ⟨rfl, hrest⟩ := settled_number n trivial hrest hrest' h
    exact ⟨rfl, hrest⟩
  | string s =>
    intro w rest rest' hw hrest hrest' h
    have hform := (Exact.string s).form_eq hw h
    cases hw <;> cases hform
    obtain ⟨rfl, hrest⟩ := settled_quoted s trivial hrest hrest' h
    exact ⟨rfl, hrest⟩
  | array hitems ih =>
    intro w rest rest' hw _ _ h
    have hform := (Exact.array hitems).form_eq hw h
    cases hw <;> cases hform
    rename_i hitems'
    simp only [compactChars, compactItems_eq, List.cons_append, List.append_assoc,
      List.nil_append, List.cons.injEq, true_and] at h
    obtain ⟨rfl, hrest⟩ := Settled.joinWith_inj (by decide) (by decide) ih hitems'
      (fun v hv cs cs' => hv.ne_bracket cs cs') hitems h
    exact ⟨rfl, hrest⟩
  | object hentries ih =>
    intro w rest rest' hw _ _ h
    have hform := (Exact.object hentries).form_eq hw h
    cases hw <;> cases hform
    rename_i hentries'
    simp only [compactChars, compactEntries_eq, List.cons_append, List.append_assoc,
      List.nil_append, List.cons.injEq, true_and] at h
    obtain ⟨rfl, hrest⟩ := Settled.joinWith_inj (by decide) (by decide)
      (fun e he => settled_entry (ih e he)) hentries' (fun e _ cs cs' => by simp [entryChars, quoted])
      hentries h
    exact ⟨rfl, hrest⟩

theorem compact_inj {v w : Value} (hv : v.Exact) (hw : w.Exact) (h : v.compact = w.compact) :
    v = w := by
  have hchars : v.compactChars = w.compactChars := String.ofList_injective h
  have happend : v.compactChars ++ [] = w.compactChars ++ [] := by rw [hchars]
  exact (settled hv hw endsNumber_nil endsNumber_nil happend).1

theorem Exact.canonical {v : Value} (hv : v.Exact) : v.canonical.Exact := by
  induction hv with
  | null => exact .null
  | bool b => exact .bool b
  | integer n => exact .integer n
  | string s => exact .string s
  | array hitems ih =>
    rw [Value.canonical, canonicalItems_eq]
    refine .array fun v hv => ?_
    obtain ⟨u, hu, rfl⟩ := List.mem_map.1 hv
    exact ih u hu
  | object hentries ih =>
    rw [Value.canonical]
    refine .object fun e he => ?_
    have hmem := SortedMap.mem_of_mem_ofList compares_lt he
    rw [canonicalEntries_eq] at hmem
    obtain ⟨d, hd, rfl⟩ := List.mem_map.1 hmem
    exact ih d hd

theorem plainZerosItems_eq (items : List Value) : plainZerosItems items = items.map plainZeros := by
  induction items with
  | nil => rfl
  | cons v vs ih => rw [plainZerosItems, ih, List.map_cons]

theorem plainZerosEntries_eq (entries : List (String × Value)) :
    plainZerosEntries entries = entries.map fun e => (e.1, e.2.plainZeros) := by
  induction entries with
  | nil => rfl
  | cons e es ih => rw [plainZerosEntries, ih, List.map_cons]

theorem Exact.plainZeros_eq {v : Value} (hv : v.Exact) : v.plainZeros = v := by
  induction hv with
  | null => rfl
  | bool b => rfl
  | integer n => rfl
  | string s => rfl
  | array _ ih => rw [plainZeros, plainZerosItems_eq, List.map_congr_left ih, List.map_id']
  | object _ ih =>
    rw [plainZeros, plainZerosEntries_eq, List.map_congr_left fun e he => by rw [ih e he],
      List.map_id']

end Value

end VersionedApi.Json
