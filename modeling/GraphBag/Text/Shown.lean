import GraphBag.Text.Unprinted

/-
  Text as it is shown inside a message: in double quotes, with
  every character that would not be visible spelled out.

  Key definitions include:
    * `Text.shown`
-/

namespace GraphBag

namespace Text

/- One character of a shown text. -/
def shownChar (c : Char) : List Char :=
  if c = '"' ∨ c = '\\' then ['\\', c]
  else if c = '\n' then ['\\', 'n']
  else if c = '\r' then ['\\', 'r']
  else if c = '\t' then ['\\', 't']
  else if c.toNat = 0 then ['\\', '0']
  else if isUnprinted c then
    ['\\', 'u', '\x7b'] ++ Nat.toDigits 16 c.toNat ++ ['\x7d']
  else [c]

/- A text in double quotes with hidden characters spelled out. -/
def shown (s : String) : String :=
  String.ofList ('"' :: s.toList.flatMap shownChar ++ ['"'])

end Text

end GraphBag
