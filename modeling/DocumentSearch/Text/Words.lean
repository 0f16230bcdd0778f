/-!
# Words

A text falls into words at white space, which is every character with the Unicode property
White_Space.
-/

namespace DocumentSearch.Text

/-- The characters with the property White_Space, as ranges. -/
def blankRanges : List (Nat × Nat) :=
  [(0x9, 0xD), (0x20, 0x20), (0x85, 0x85), (0xA0, 0xA0), (0x1680, 0x1680), (0x2000, 0x200A),
    (0x2028, 0x2029), (0x202F, 0x202F), (0x205F, 0x205F), (0x3000, 0x3000)]

def isBlank (c : Char) : Bool := blankRanges.any fun r => r.1 ≤ c.toNat && c.toNat ≤ r.2

/-- The words of `rest`, the first of them beginning with `word`. No word is empty. -/
def wordsFrom (word : List Char) : List Char → List (List Char)
  | [] => if word = [] then [] else [word]
  | c :: rest =>
    if isBlank c then
      if word = [] then wordsFrom [] rest else word :: wordsFrom [] rest
    else wordsFrom (word ++ [c]) rest

/-- The words of a text, in order. -/
def words (s : String) : List String := (wordsFrom [] s.toList).map String.ofList

end DocumentSearch.Text
