import Cvere.Json.Basic

/-!
# Writing JSON

Two forms: the compact one has no blanks, the indented one has a line for each item and two spaces
for each level. An array or object with nothing in it stays on its line in both.
-/

namespace Cvere

namespace Json

/-- A character inside a string. Quotes, backslashes and control characters are escaped; all other
characters stand for themselves. -/
def escapeChar (c : Char) : Text :=
  if c = '"' then "\\\"".toList
  else if c = '\\' then "\\\\".toList
  else if c = '\x08' then "\\b".toList
  else if c = '\x0c' then "\\f".toList
  else if c = '\n' then "\\n".toList
  else if c = '\r' then "\\r".toList
  else if c = '\t' then "\\t".toList
  else if c.toNat < 0x20 then "\\u".toList ++ (Numeral.lowerHex c.toNat).leftpad 4 '0'
  else [c]

/-- A text between quotes. -/
def quote (t : Text) : Text :=
  '"' :: t.flatMap escapeChar ++ ['"']

/-- A string between quotes. The mark for a missing partner stands for the whole string. -/
def quoteString : Option Text → Text
  | some t => quote t
  | none => quote ['\ufffd']

/-- A value that is no array and no object. -/
def scalarText : Json → Text
  | bool true => "true".toList
  | bool false => "false".toList
  | number literal => literal
  | string value => quoteString value
  | _ => "null".toList

/-- A new line, indented by so many levels. -/
def newline (level : Nat) : Text :=
  '\n' :: List.replicate (2 * level) ' '

mutual

/-- The compact form. -/
def compact : Json → Text
  | array items => '[' :: compactItems items ++ [']']
  | object members => '\x7b' :: compactMembers members ++ ['\x7d']
  | j => scalarText j

/-- The compact form of items with commas between them. -/
def compactItems : List Json → Text
  | [] => []
  | [j] => compact j
  | j :: rest => compact j ++ ',' :: compactItems rest

/-- The compact form of members with commas between them. -/
def compactMembers : List (Option Text × Json) → Text
  | [] => []
  | [(k, j)] => quoteString k ++ ':' :: compact j
  | (k, j) :: rest => quoteString k ++ ':' :: compact j ++ ',' :: compactMembers rest

end

mutual

/-- The indented form of a value that begins at a level. -/
def indented (level : Nat) : Json → Text
  | array [] => "[]".toList
  | array items => '[' :: indentedItems (level + 1) items ++ newline level ++ [']']
  | object [] => ['\x7b', '\x7d']
  | object members =>
    '\x7b' :: indentedMembers (level + 1) members ++ newline level ++ ['\x7d']
  | j => scalarText j

/-- The indented form of items, each on a line of its own. -/
def indentedItems (level : Nat) : List Json → Text
  | [] => []
  | [j] => newline level ++ indented level j
  | j :: rest => newline level ++ indented level j ++ ',' :: indentedItems level rest

/-- The indented form of members, each on a line of its own. -/
def indentedMembers (level : Nat) : List (Option Text × Json) → Text
  | [] => []
  | [(k, j)] => newline level ++ quoteString k ++ ": ".toList ++ indented level j
  | (k, j) :: rest =>
    newline level ++ quoteString k ++ ": ".toList ++ indented level j ++
      ',' :: indentedMembers level rest

end

/-- The indented form. -/
def pretty (j : Json) : Text :=
  indented 0 j

end Json

end Cvere
