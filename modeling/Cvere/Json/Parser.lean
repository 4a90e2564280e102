import Cvere.Json.Token

/-!
# Reading JSON

A text holds one JSON value when its tokens do. The tokens are read one at a time with a stack of
the arrays and objects that are still open, so that no nesting is too deep.
-/

namespace Cvere

namespace Json

/-- An array or an object that is still open. What it holds is kept last first. -/
inductive Frame where
  | array (items : List Json)
  /-- An object whose next value belongs to `key`. -/
  | object (members : List (Option Text × Json)) (key : Option Text)

/-- What has been read, and what may come next. -/
inductive Progress where
  /-- A value comes next. -/
  | value (stack : List Frame)
  /-- An array was opened: a value or its end comes next. -/
  | firstItem (stack : List Frame)
  /-- An object was opened: a key or its end comes next. -/
  | firstKey (stack : List Frame)
  /-- A key comes next. -/
  | key (members : List (Option Text × Json)) (stack : List Frame)
  /-- A colon comes next. -/
  | colon (members : List (Option Text × Json)) (key : Option Text) (stack : List Frame)
  /-- A value is complete: the array or object around it goes on or ends. -/
  | after (value : Json) (stack : List Frame)

namespace Progress

/-- Read the token that begins a value. -/
def begin (stack : List Frame) : Token → Option Progress
  | .null => some (.after .null stack)
  | .bool b => some (.after (.bool b) stack)
  | .number n => some (.after (.number n) stack)
  | .string s => some (.after (.string s) stack)
  | .openArray => some (.firstItem stack)
  | .openObject => some (.firstKey stack)
  | _ => none

/-- Read one token. -/
def step : Progress → Token → Option Progress
  | .value stack, t => begin stack t
  | .firstItem stack, .closeArray => some (.after (.array []) stack)
  | .firstItem stack, t => begin (.array [] :: stack) t
  | .firstKey stack, .closeObject => some (.after (.object []) stack)
  | .firstKey stack, .string k => some (.colon [] k stack)
  | .key members stack, .string k => some (.colon members k stack)
  | .colon members k stack, .colon => some (.value (.object members k :: stack))
  | .after j (.array items :: stack), .comma => some (.value (.array (j :: items) :: stack))
  | .after j (.array items :: stack), .closeArray =>
    some (.after (.array (j :: items).reverse) stack)
  | .after j (.object members k :: stack), .comma => some (.key ((k, j) :: members) stack)
  | .after j (.object members k :: stack), .closeObject =>
    some (.after (.object ((k, j) :: members).reverse) stack)
  | _, _ => none

/-- The value, when it is complete and nothing is open. -/
def finish : Progress → Option Json
  | .after j [] => some j
  | _ => none

end Progress

/-- The value of a sequence of tokens. -/
def ofTokens? (tokens : List Token) : Option Json :=
  (tokens.foldlM Progress.step (.value [])).bind Progress.finish

/-- The value that a text holds. -/
def parse? (t : Text) : Option Json :=
  (tokens? t).bind ofTokens?

end Json

end Cvere
