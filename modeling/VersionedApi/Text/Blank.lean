/-!
# Blank characters

* `isBlank` : the characters that separate words and that trimming removes;
* `trimStart`, `trimEnd`, `trim` : a text without its outer blanks; `trimmed` on strings;
* `words` : the maximal blank-free runs of a text.

Texts are lists of characters here; the domain types hold strings and convert at their readers.
-/

namespace VersionedApi.Text

/-- Characters with the Unicode property `White_Space`. -/
def isBlank (c : Char) : Bool :=
  let n := c.toNat
  (9 ≤ n && n ≤ 13) || n == 0x20 || n == 0x85 || n == 0xA0 || n == 0x1680 ||
    (0x2000 ≤ n && n ≤ 0x200A) || n == 0x2028 || n == 0x2029 || n == 0x202F || n == 0x205F ||
    n == 0x3000

def trimStart (cs : List Char) : List Char := cs.dropWhile isBlank

def trimEnd (cs : List Char) : List Char := (cs.reverse.dropWhile isBlank).reverse

def trim (cs : List Char) : List Char := trimEnd (trimStart cs)

def trimmed (s : String) : String := String.ofList (trim s.toList)

/-- Nothing but blanks, or nothing at all. -/
def allBlank (cs : List Char) : Bool := cs.all isBlank

/-- The pieces between the characters that satisfy `p`; a text without any is one piece. -/
def pieces (p : Char → Bool) : List Char → List (List Char)
  | [] => [[]]
  | c :: cs =>
    match p c, pieces p cs with
    | true, ps => [] :: ps
    | false, [] => [[c]]
    | false, q :: ps => (c :: q) :: ps

/-- The maximal blank-free runs, in order. -/
def words (cs : List Char) : List (List Char) := (pieces isBlank cs).filter (!·.isEmpty)

end VersionedApi.Text
