import Cvere.Json.Basic

/-!
# JSON tokens

The tokens of a JSON text, found by a machine that reads one character at a time. A number or a
word ends where a character cannot continue it, and that character is then read anew.

Strings are first collected as pieces, plain characters and escaped UTF-16 units, and the units are
paired when the string ends.
-/

namespace Cvere

namespace Json

/-- A token. -/
inductive Token where
  | openArray
  | closeArray
  | openObject
  | closeObject
  | comma
  | colon
  | null
  | bool (value : Bool)
  | number (literal : Text)
  | string (value : Option Text)
  deriving DecidableEq, Repr

/-! ## Strings -/

/-- A piece of a string. -/
inductive Piece where
  | char (c : Char)
  /-- An escaped UTF-16 unit. -/
  | unit (n : Nat)
  deriving DecidableEq, Repr

/-- The first half of a surrogate pair. -/
def isHighSurrogate (n : Nat) : Bool := 0xD800 ≤ n && n ≤ 0xDBFF

/-- The second half of a surrogate pair. -/
def isLowSurrogate (n : Nat) : Bool := 0xDC00 ≤ n && n ≤ 0xDFFF

/-- The character that a surrogate pair stands for. -/
def pairedChar (high low : Nat) : Char :=
  Char.ofNat (0x10000 + (high - 0xD800) * 0x400 + (low - 0xDC00))

/-- The text of a string. There is none when a surrogate has no partner. -/
def textOfPieces? : List Piece → Option Text
  | [] => some []
  | .char c :: rest => (textOfPieces? rest).map (c :: ·)
  | .unit high :: .unit low :: rest =>
    if isHighSurrogate high then
      if isLowSurrogate low then (textOfPieces? rest).map (pairedChar high low :: ·) else none
    else if isLowSurrogate high then none
    else (textOfPieces? (.unit low :: rest)).map (Char.ofNat high :: ·)
  | .unit n :: rest =>
    if isHighSurrogate n || isLowSurrogate n then none
    else (textOfPieces? rest).map (Char.ofNat n :: ·)

/-- The character after a backslash, the start of an escaped unit aside. -/
def escaped? : Char → Option Char
  | '"' => some '"'
  | '\\' => some '\\'
  | '/' => some '/'
  | 'b' => some '\x08'
  | 'f' => some '\x0c'
  | 'n' => some '\n'
  | 'r' => some '\r'
  | 't' => some '\t'
  | _ => none

/-! ## Numbers and words -/

/-- What a number may be continued with. -/
def isNumberChar (c : Char) : Bool :=
  c.isDigit || c == '+' || c == '-' || c == '.' || c == 'e' || c == 'E'

/-- Digits, at least one. -/
def isDigits (t : Text) : Bool :=
  !t.isEmpty && t.all Char.isDigit

/-- A whole number without needless zeros at the front. -/
def isWhole (t : Text) : Bool :=
  isDigits t && (t.length ≤ 1 || t.head? != some '0')

/-- An exponent: digits after an optional sign. -/
def isExponent : Text → Bool
  | '+' :: t => isDigits t
  | '-' :: t => isDigits t
  | t => isDigits t

/-- A number without its sign. -/
def isMagnitude (t : Text) : Bool :=
  let (mantissa, exponent) := match Text.cut? (fun c => c == 'e' || c == 'E') t with
    | some (m, e) => (m, isExponent e)
    | none => (t, true)
  let whole := match Text.cut? (· == '.') mantissa with
    | some (w, f) => isWhole w && isDigits f
    | none => isWhole mantissa
  whole && exponent

/-- A number. -/
def isNumber : Text → Bool
  | '-' :: t => isMagnitude t
  | t => isMagnitude t

/-- The token that a word is. -/
def wordToken? (t : Text) : Option Token :=
  if t = "null".toList then some .null
  else if t = "true".toList then some (.bool true)
  else if t = "false".toList then some (.bool false)
  else none

/-! ## The machine -/

/-- What the machine is in the middle of. Characters and pieces are kept last first. -/
inductive Mode where
  | between
  | number (done : Text)
  | word (done : Text)
  | string (done : List Piece)
  /-- After a backslash. -/
  | escape (done : List Piece)
  /-- In an escaped unit, with the value and the number of its digits so far. -/
  | unit (done : List Piece) (value count : Nat)
  deriving DecidableEq, Repr

/-- The state of the machine: its mode and the tokens found, last first. -/
abbrev Scan := Mode × List Token

/-- Read a character that begins something. -/
def Scan.start (tokens : List Token) (c : Char) : Option Scan :=
  match c with
  | ' ' | '\n' | '\t' | '\r' => some (.between, tokens)
  | '[' => some (.between, .openArray :: tokens)
  | ']' => some (.between, .closeArray :: tokens)
  | '\x7b' => some (.between, .openObject :: tokens)
  | '\x7d' => some (.between, .closeObject :: tokens)
  | ',' => some (.between, .comma :: tokens)
  | ':' => some (.between, .colon :: tokens)
  | '"' => some (.string [], tokens)
  | c =>
    if c.isDigit || c == '-' then some (.number [c], tokens)
    else if c.isLower then some (.word [c], tokens)
    else none

/-- End a number or a word. -/
def Scan.finish : Scan → Option (List Token)
  | (.between, tokens) => some tokens
  | (.number done, tokens) =>
    if isNumber done.reverse then some (.number done.reverse :: tokens) else none
  | (.word done, tokens) => (wordToken? done.reverse).map (· :: tokens)
  | _ => none

/-- Read one character. -/
def Scan.step (scan : Scan) (c : Char) : Option Scan :=
  match scan with
  | (.between, tokens) => Scan.start tokens c
  | (.number done, tokens) =>
    if isNumberChar c then some (.number (c :: done), tokens)
    else (Scan.finish scan).bind (Scan.start · c)
  | (.word done, tokens) =>
    if c.isLower then some (.word (c :: done), tokens)
    else (Scan.finish scan).bind (Scan.start · c)
  | (.string done, tokens) =>
    if c = '"' then some (.between, .string (textOfPieces? done.reverse) :: tokens)
    else if c = '\\' then some (.escape done, tokens)
    else if c.toNat < 0x20 then none
    else some (.string (.char c :: done), tokens)
  | (.escape done, tokens) =>
    if c = 'u' then some (.unit done 0 0, tokens)
    else (escaped? c).map fun e => (.string (.char e :: done), tokens)
  | (.unit done value count, tokens) =>
    (Numeral.digit? 16 c).map fun d =>
      if count = 3 then (.string (.unit (value * 16 + d) :: done), tokens)
      else (.unit done (value * 16 + d) (count + 1), tokens)

/-- The tokens of a text, when it is made of tokens. -/
def tokens? (t : Text) : Option (List Token) := do
  let scan ← t.foldlM Scan.step (.between, [])
  let tokens ← Scan.finish scan
  return tokens.reverse

end Json

end Cvere
