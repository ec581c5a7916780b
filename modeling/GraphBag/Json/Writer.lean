import GraphBag.Json.Token

/-
  Writing JSON trees, on one line without blanks or indented.

  Key definitions include:
    * `Json.tokens`
    * `Json.render`
    * `Json.renderPretty`
-/

namespace GraphBag

namespace Json

------------------------------------------------------------
-- Compact Form
------------------------------------------------------------

mutual

/- The tokens of a tree in written order. -/
def tokens : Json → List Token
  | .scalar s => [.scalar s]
  | .array items =>
      .openBracket :: itemTokens items ++ [.closeBracket]
  | .object fields =>
      .openBrace :: fieldTokens fields ++ [.closeBrace]

/- The tokens of array items with commas between. -/
def itemTokens : List Json → List Token
  | [] => []
  | [item] => item.tokens
  | item :: rest => item.tokens ++ .comma :: itemTokens rest

/- The tokens of object fields with commas between. -/
def fieldTokens : List (String × Json) → List Token
  | [] => []
  | [(key, value)] =>
      .scalar (.string key) :: .colon :: value.tokens
  | (key, value) :: rest =>
      .scalar (.string key) :: .colon ::
        value.tokens ++ .comma :: fieldTokens rest

end

/- The text of a tree without blanks, as characters. -/
def chars (j : Json) : List Char :=
  j.tokens.flatMap Token.chars

/- The text of a tree without blanks. -/
def render (j : Json) : String :=
  String.ofList j.chars

------------------------------------------------------------
-- Indented Form
------------------------------------------------------------

/- A line break and the indentation of a level. -/
def lineBreak (level : Nat) : List Char :=
  '\n' :: List.replicate (2 * level) ' '

mutual

/- The text of a tree with one part a line. -/
def prettyChars (level : Nat) : Json → List Char
  | .scalar s => Token.scalarChars s
  | .array [] => ['[', ']']
  | .array items =>
      '[' :: prettyItems (level + 1) items ++
        lineBreak level ++ [']']
  | .object [] => ['\x7b', '\x7d']
  | .object fields =>
      '\x7b' :: prettyFields (level + 1) fields ++
        lineBreak level ++ ['\x7d']

/- Array items, each on a line of its own. -/
def prettyItems (level : Nat) : List Json → List Char
  | [] => []
  | [item] => lineBreak level ++ prettyChars level item
  | item :: rest =>
      lineBreak level ++ prettyChars level item ++
        ',' :: prettyItems level rest

/- Object fields, each on a line of its own. -/
def prettyFields (level : Nat) : List (String × Json) → List Char
  | [] => []
  | [(key, value)] =>
      lineBreak level ++ Token.stringChars key ++
        [':', ' '] ++ prettyChars level value
  | (key, value) :: rest =>
      lineBreak level ++ Token.stringChars key ++
        [':', ' '] ++ prettyChars level value ++
        ',' :: prettyFields level rest

end

/- The text of a tree indented by two blanks a level. -/
def renderPretty (j : Json) : String :=
  String.ofList (j.prettyChars 0)

end Json

end GraphBag
