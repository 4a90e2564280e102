import Cvere.Numeral
import Cvere.Text.Blank
import Cvere.Text.Line
import Cvere.Word

/-!
# Program images

A program is stored in one of two forms: as bytes, two to a word and the low one first, or as a
hexadecimal listing with one word to a line.

**Main results.** `ofBytes_toBytes_append`: words survive the trip through bytes, also with one
stray byte after them, and `toBytes_ofBytes` is the way back.
-/

namespace Cvere

namespace Image

/-! ## Bytes -/

/-- The bytes of a program, low byte first. -/
def toBytes (words : List Word) : List UInt8 :=
  words.flatMap fun w => [UInt8.ofBitVec w.lowByte, UInt8.ofBitVec w.highByte]

/-- The words of a program. A last byte without a partner is dropped. -/
def ofBytes : List UInt8 → List Word
  | low :: high :: rest => Word.ofBytes high.toBitVec low.toBitVec :: ofBytes rest
  | _ => []

theorem toBytes_cons (w : Word) (ws : List Word) :
    toBytes (w :: ws) =
      UInt8.ofBitVec w.lowByte :: UInt8.ofBitVec w.highByte :: toBytes ws := rfl

/-- Words survive the trip through bytes, also with one stray byte after them. -/
theorem ofBytes_toBytes_append (words : List Word) {t : List UInt8} (h : t.length ≤ 1) :
    ofBytes (toBytes words ++ t) = words := by
  induction words with
  | nil =>
    match t, h with
    | [], _ => rfl
    | [_], _ => rfl
  | cons w ws ih =>
    rw [toBytes_cons, List.cons_append, List.cons_append, ofBytes, ih]
    exact congrArg (· :: ws) (Word.ofBytes_fields w)

/-- Bytes survive the trip through words, but for a last byte without a partner. -/
theorem toBytes_ofBytes (bytes : List UInt8) :
    toBytes (ofBytes bytes) = bytes.take (2 * (bytes.length / 2)) := by
  fun_induction ofBytes bytes with
  | case1 low high rest ih =>
    have hlen : 2 * ((rest.length + 1 + 1) / 2) = 2 * (rest.length / 2) + 1 + 1 := by omega
    rw [toBytes_cons, ih, Word.lowByte_ofBytes, Word.highByte_ofBytes, List.length_cons,
      List.length_cons, hlen, List.take_succ_cons, List.take_succ_cons]
  | case2 bytes h =>
    match bytes with
    | [] => rfl
    | [_] => simp [toBytes]
    | low :: high :: rest => exact absurd rfl (h low high rest)

/-! ## Hexadecimal listings -/

/-- A word as listings write it: the mark `0x` and four digits. -/
def wordText (w : Word) : Text :=
  "0x".toList ++ Numeral.hex 4 w.toNat

/-- One word to a line. -/
def toListing (words : List Word) : Text :=
  Text.unlines (words.map wordText)

/-- A line of a listing that is no word. -/
structure ListingError where
  /-- The number of the line, counted from one over all lines. -/
  line : Nat
  /-- The trimmed line. -/
  text : Text
  deriving DecidableEq, Repr

/-- The wording of a listing error. -/
def ListingError.message (e : ListingError) : Text :=
  "line ".toList ++ Numeral.decimal e.line ++ ": invalid hex word `".toList ++ e.text ++ "`".toList

/-- Empty lines and lines that start with `;` or `#` carry no word. -/
def isRemark (line : Text) : Bool :=
  match line with
  | [] => true
  | c :: _ => c == ';' || c == '#'

/-- The word on a trimmed line: hexadecimal digits, with or without the mark `0x`. -/
def parseWord? (line : Text) : Option Word :=
  let digits := (Numeral.hexMarked? line).getD line
  (Numeral.read 16 Word.count digits).toOption.map (BitVec.ofNat 16)

/-- The words on lines that are counted from `n`. The first bad line stops the reading. -/
def parseLines (n : Nat) : List Text → Except ListingError (List Word)
  | [] => .ok []
  | line :: rest =>
    let t := Text.trim line
    if isRemark t then parseLines (n + 1) rest
    else match parseWord? t with
      | none => .error { line := n, text := t }
      | some w => (parseLines (n + 1) rest).map (w :: ·)

/-- The words of a listing. -/
def parseListing (t : Text) : Except ListingError (List Word) :=
  parseLines 1 (Text.lines t)

end Image

end Cvere
