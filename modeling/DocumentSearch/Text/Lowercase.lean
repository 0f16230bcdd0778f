import DocumentSearch.Text.CaseTable

/-!
# Lower case

The full lower-case form of a text. Each character is taken on its own, except that a capital
sigma at the end of a word becomes the final sigma. It ends a word when a cased letter stands
before it and none after it, looking past the characters that case ignores.
-/

namespace DocumentSearch.Text

/-- The lower-case form of a character, whatever stands around it. -/
def lowerChar (c : Char) : List Char :=
  if c = '\u0130' then ['i', '\u0307']
  else
    let n := c.toNat
    match lowerRanges.find? fun (first, last, step, _) =>
        first ≤ n && n ≤ last && (n - first) % step == 0 with
    | some (first, _, _, lower) => [Char.ofNat (lower + (n - first))]
    | none => [c]

def isCased (c : Char) : Bool := casedRanges.any fun r => r.1 ≤ c.toNat && c.toNat ≤ r.2

def isCaseIgnorable (c : Char) : Bool :=
  caseIgnorableRanges.any fun r => r.1 ≤ c.toNat && c.toNat ≤ r.2

/-- Whether the first character that case does not ignore is a cased letter. -/
def beginsCased (cs : List Char) : Bool :=
  match cs.dropWhile isCaseIgnorable with
  | [] => false
  | c :: _ => isCased c

/-- The lower-case form of `rest`, which stands after `before`, the latest character first. -/
def lowerFrom (before : List Char) : List Char → List Char
  | [] => []
  | c :: rest =>
    let lower :=
      if c = 'Σ' then
        if beginsCased before && !beginsCased rest then ['ς'] else ['σ']
      else lowerChar c
    lower ++ lowerFrom (c :: before) rest

/-- The lower-case form of a text. -/
def lowercase (s : String) : String := String.ofList (lowerFrom [] s.toList)

end DocumentSearch.Text
