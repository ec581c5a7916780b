/-
  White space, blank texts and leading words.

  Key definitions include:
    * `Text.isSpace`
    * `Text.isBlank`
    * `Text.firstWord?`
    * `Text.sameIgnoringCase`
-/

namespace GraphBag

namespace Text

/- The code points with the Unicode property White_Space. -/
def spaces : List (Nat × Nat) :=
  [(0x09, 0x0D), (0x20, 0x20), (0x85, 0x85), (0xA0, 0xA0),
   (0x1680, 0x1680), (0x2000, 0x200A), (0x2028, 0x2029),
   (0x202F, 0x202F), (0x205F, 0x205F), (0x3000, 0x3000)]

/- A white-space character. -/
def isSpace (c : Char) : Bool :=
  spaces.any fun (lo, hi) => lo ≤ c.toNat && c.toNat ≤ hi

/- Nothing is left when white space is trimmed. -/
def isBlank (s : String) : Bool :=
  s.toList.all isSpace

/- The first maximal run without white space, if there is one. -/
def firstWord? (s : String) : Option String :=
  match (s.toList.dropWhile isSpace).takeWhile (!isSpace ·) with
  | [] => none
  | cs => some (String.ofList cs)

/- Equal when the ASCII letters are taken without case. -/
def sameIgnoringCase (s t : String) : Bool :=
  s.toList.map Char.toLower == t.toList.map Char.toLower

end Text

end GraphBag
