import VersionedApi.Decimal.Ratio

/-!
# JSON values

* `SortedMap` : association lists in the order of their keys;
* `Number` : an integer, or a decimal that stands for a double;
* `Value` : objects are lists of entries in the order in which they are written;
* `Value.canonical` : all objects with their keys in order, the last of equal keys counting;
* `Value.plainZeros` : the value as far as equality of doubles goes, which does not see the sign of
  a zero;
* `Value.get?`, `Value.set` : the entry of a key, a new one in its place.
-/

namespace VersionedApi

/-! ## Association lists in the order of their keys -/

namespace SortedMap

variable {κ α β : Type}

/-- The entry of `k` becomes `f` of what it was; the entries stay in the order of `cmp`. -/
def alter (cmp : κ → κ → Ordering) (k : κ) (f : Option α → α) : List (κ × α) → List (κ × α)
  | [] => [(k, f none)]
  | (k', v) :: rest =>
    match cmp k k' with
    | .lt => (k, f none) :: (k', v) :: rest
    | .eq => (k', f (some v)) :: rest
    | .gt => (k', v) :: alter cmp k f rest

def insert (cmp : κ → κ → Ordering) (k : κ) (v : α) (entries : List (κ × α)) : List (κ × α) :=
  alter cmp k (fun _ => v) entries

/-- The map of a list of entries; of equal keys the last counts. -/
def ofList (cmp : κ → κ → Ordering) (entries : List (κ × α)) : List (κ × α) :=
  entries.foldl (fun m e => insert cmp e.1 e.2 m) []

/-- What is listed under `k` becomes `f` of it; under a key that is new nothing is listed. -/
def modify (cmp : κ → κ → Ordering) (k : κ) (f : List α → List α) (m : List (κ × List α)) :
    List (κ × List α) :=
  alter cmp k (fun old => f (old.getD [])) m

def flatMap (m : List (κ × α)) (f : κ → α → List β) : List β := m.flatMap fun e => f e.1 e.2

end SortedMap

/-! ## Values -/

namespace Json

/-- A JSON number: an integer, or the shortest decimal that denotes a double. -/
inductive Number where
  | integer (n : Int)
  | double (d : Decimal)
deriving DecidableEq, Repr

/-- Zero and minus zero are equal as doubles. -/
def Number.plainZero : Number → Number
  | double d => double (if d.digits = 0 then { d with negative := false } else d)
  | n => n

inductive Value where
  | null
  | bool (b : Bool)
  | number (n : Number)
  | string (s : String)
  | array (items : List Value)
  | object (entries : List (String × Value))
deriving Repr, Inhabited

namespace Value

mutual

def decEq : (a b : Value) → Decidable (a = b)
  | null, null => isTrue rfl
  | bool a, bool b => if h : a = b then isTrue (by rw [h]) else isFalse (by simpa using h)
  | number a, number b => if h : a = b then isTrue (by rw [h]) else isFalse (by simpa using h)
  | string a, string b => if h : a = b then isTrue (by rw [h]) else isFalse (by simpa using h)
  | array a, array b =>
    match decEqItems a b with
    | isTrue h => isTrue (by rw [h])
    | isFalse h => isFalse (by simpa using h)
  | object a, object b =>
    match decEqEntries a b with
    | isTrue h => isTrue (by rw [h])
    | isFalse h => isFalse (by simpa using h)
  | null, bool _ | null, number _ | null, string _ | null, array _ | null, object _
  | bool _, null | bool _, number _ | bool _, string _ | bool _, array _ | bool _, object _
  | number _, null | number _, bool _ | number _, string _ | number _, array _
  | number _, object _
  | string _, null | string _, bool _ | string _, number _ | string _, array _
  | string _, object _
  | array _, null | array _, bool _ | array _, number _ | array _, string _ | array _, object _
  | object _, null | object _, bool _ | object _, number _ | object _, string _
  | object _, array _ => isFalse (by simp)

def decEqItems : (a b : List Value) → Decidable (a = b)
  | [], [] => isTrue rfl
  | [], _ :: _ => isFalse (by simp)
  | _ :: _, [] => isFalse (by simp)
  | a :: as, b :: bs =>
    match decEq a b, decEqItems as bs with
    | isTrue h, isTrue hs => isTrue (by rw [h, hs])
    | isFalse h, _ => isFalse (by simp [h])
    | _, isFalse hs => isFalse (by simp [hs])

def decEqEntries : (a b : List (String × Value)) → Decidable (a = b)
  | [], [] => isTrue rfl
  | [], _ :: _ => isFalse (by simp)
  | _ :: _, [] => isFalse (by simp)
  | (k, a) :: as, (l, b) :: bs =>
    match decEq a b, decEqEntries as bs with
    | isTrue h, isTrue hs =>
      if hk : k = l then isTrue (by rw [hk, h, hs]) else isFalse (by simp [hk])
    | isFalse h, _ => isFalse (by simp [h])
    | _, isFalse hs => isFalse (by simp [hs])

end

instance : DecidableEq Value := decEq

mutual

/-- The value with the keys of every object in order; of equal keys the last counts. -/
def canonical : Value → Value
  | array items => array (canonicalItems items)
  | object entries => object (SortedMap.ofList compare (canonicalEntries entries))
  | v => v

def canonicalItems : List Value → List Value
  | [] => []
  | v :: vs => canonical v :: canonicalItems vs

def canonicalEntries : List (String × Value) → List (String × Value)
  | [] => []
  | (k, v) :: es => (k, canonical v) :: canonicalEntries es

end

mutual

/-- The value with no sign at a zero. -/
def plainZeros : Value → Value
  | number n => number n.plainZero
  | array items => array (plainZerosItems items)
  | object entries => object (plainZerosEntries entries)
  | v => v

def plainZerosItems : List Value → List Value
  | [] => []
  | v :: vs => plainZeros v :: plainZerosItems vs

def plainZerosEntries : List (String × Value) → List (String × Value)
  | [] => []
  | (k, v) :: es => (k, plainZeros v) :: plainZerosEntries es

end

/-- The value of the last entry with this key; of what is not an object there is none. -/
def get? (v : Value) (key : String) : Option Value :=
  match v with
  | object entries => entries.reverse.lookup key
  | _ => none

/-- The object with `w` under a key, in the place of what was there; what is not an object stays as
it is. -/
def set (v : Value) (key : String) (w : Value) : Value :=
  match v with
  | object entries => object (entries.filter (·.1 != key) ++ [(key, w)])
  | _ => v

def ofInt (n : Int) : Value := number (.integer n)

def ofNat (n : Nat) : Value := ofInt n

def ofString? : Option String → Value
  | some s => string s
  | none => null

def ofStrings (ss : List String) : Value := array (ss.map string)

/-- `null`, or the value of what there is. -/
def ofOption {α : Type} (f : α → Value) : Option α → Value
  | some a => f a
  | none => null

/-- The object with the entries of a map, keys and values written by the two functions. -/
def ofMap {κ α : Type} (name : κ → String) (f : α → Value) (m : List (κ × α)) : Value :=
  object (m.map fun e => (name e.1, f e.2))

end Value

end Json

end VersionedApi
