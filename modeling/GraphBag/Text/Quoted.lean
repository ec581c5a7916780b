/-
  Text in single quotes.  A quote, a backslash, a line feed and
  a carriage return inside are written as escapes, so a quoted
  text ends at its first bare quote and stays on one line.

  Key definitions include:
    * `Text.quoteChars`
    * `Text.quote`
-/

namespace GraphBag

namespace Text

/- One character inside single quotes. -/
def quoteChar (c : Char) : List Char :=
  if c = '\'' ∨ c = '\\' then ['\\', c]
  else if c = '\n' then ['\\', 'n']
  else if c = '\r' then ['\\', 'r']
  else [c]

/- A text in single quotes, as characters. -/
def quoteChars (cs : List Char) : List Char :=
  '\'' :: cs.flatMap quoteChar ++ ['\'']

/- A text in single quotes. -/
def quote (s : String) : String :=
  String.ofList (quoteChars s.toList)

end Text

end GraphBag
