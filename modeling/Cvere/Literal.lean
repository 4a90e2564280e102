import Cvere.Numeral
import Cvere.Text.Alphabetic
import Cvere.Text.Blank

/-!
# Integer literals

An immediate operand writes an integer of any length: an optional sign, then hexadecimal digits
after `0x`, binary digits after `0b`, or decimal digits. Its value is kept to sixty-four bits while
it is read, and an instruction keeps as many of the low bits as its field has.

**Main results.** `wrapping?_eq_map_natural?`: reading digit by digit in sixty-four bits gives the
low bits of the exact number. `parse?_eq_map_integer?`: a literal stands for the exact integer it
writes, reduced to sixty-four bits.
-/

namespace Cvere

/-- The low sixty-four bits of an integer. -/
abbrev Literal := BitVec 64

namespace Literal

/-- What follows the mark `0b` of a binary literal, in either case. -/
def binaryMarked? : Text → Option Text
  | '0' :: 'b' :: digits => some digits
  | '0' :: 'B' :: digits => some digits
  | _ => none

/-- The low sixty-four bits of the number written by one or more digits. Each digit is taken in with
arithmetic of sixty-four bits, which drops what does not fit. -/
def wrapping? (radix : Nat) (t : Text) : Option Literal :=
  if t.isEmpty then none
  else t.foldlM (fun v c => (Numeral.digit? radix c).map fun d =>
    v * BitVec.ofNat 64 radix + BitVec.ofNat 64 d) 0

/-- What `read` makes of the digits of a number without a sign, in the radix of its mark. -/
def unsigned? {α : Type} (read : Nat → Text → Option α) (t : Text) : Option α :=
  match Numeral.hexMarked? t, binaryMarked? t with
  | some digits, _ => read 16 digits
  | none, some digits => read 2 digits
  | none, none => read 10 t

/-- What `read` makes of the digits of a number, negated behind a minus sign. -/
def signed? {α : Type} [Neg α] (read : Nat → Text → Option α) : Text → Option α
  | '-' :: t => (unsigned? read t).map fun a => -a
  | '+' :: t => unsigned? read t
  | t => unsigned? read t

/-- The exact integer that a trimmed literal writes. -/
def integer? (t : Text) : Option Int :=
  signed? (fun radix digits => (Numeral.natural? radix digits).map Int.ofNat) t

/-- The literal that an operand writes, with blanks around it allowed. -/
def parse? (token : Text) : Option Literal :=
  signed? wrapping? (Text.trim token)

/-! ## Exact and wrapped values -/

/-- Digits that are taken in one after another leave the low bits of the number they continue. -/
theorem foldlM_digits (radix n : Nat) (t : Text) :
    t.foldlM (fun v c => (Numeral.digit? radix c).map fun d =>
        v * BitVec.ofNat 64 radix + BitVec.ofNat 64 d) (BitVec.ofNat 64 n) =
      (t.mapM (Numeral.digit? radix)).map fun ds =>
        BitVec.ofNat 64 (Numeral.valueFrom radix n ds) := by
  induction t generalizing n with
  | nil => rfl
  | cons c t ih =>
    rw [List.foldlM_cons, List.mapM_cons]
    cases Numeral.digit? radix c with
    | none => rfl
    | some d =>
      have hstep : BitVec.ofNat 64 n * BitVec.ofNat 64 radix + BitVec.ofNat 64 d =
          BitVec.ofNat 64 (n * radix + d) := by
        rw [BitVec.ofNat_add, BitVec.ofNat_mul]
      simp only [Option.map_some, hstep, bind, Option.bind_some, ih]
      cases t.mapM (Numeral.digit? radix) <;> rfl

theorem wrapping?_eq_map_natural? (radix : Nat) (t : Text) :
    wrapping? radix t = (Numeral.natural? radix t).map (BitVec.ofNat 64) := by
  unfold wrapping? Numeral.natural?
  split
  · rfl
  · rw [Option.map_map]
    exact foldlM_digits radix 0 t

theorem unsigned?_map {α β : Type} (f : α → β) (read : Nat → Text → Option α) (t : Text) :
    unsigned? (fun radix digits => (read radix digits).map f) t = (unsigned? read t).map f := by
  unfold unsigned?
  split <;> rfl

/-- A map that keeps negation may be applied to the digits or to the whole literal. -/
theorem signed?_map {α β : Type} [Neg α] [Neg β] {f : α → β} (hf : ∀ a, f (-a) = -f a)
    (read : Nat → Text → Option α) (t : Text) :
    signed? (fun radix digits => (read radix digits).map f) t = (signed? read t).map f := by
  unfold signed?
  split
  · rw [unsigned?_map, Option.map_map, Option.map_map]
    congr 1
    funext a
    exact (hf a).symm
  · exact unsigned?_map f read _
  · exact unsigned?_map f read _

/-- A literal stands for the exact integer that it writes, reduced to sixty-four bits. -/
theorem parse?_eq_map_integer? (token : Text) :
    parse? token = (integer? (Text.trim token)).map (BitVec.ofInt 64) := by
  have hread : wrapping? = fun radix digits =>
      ((Numeral.natural? radix digits).map Int.ofNat).map (BitVec.ofInt 64) := by
    funext radix digits
    have hcast : BitVec.ofNat 64 = BitVec.ofInt 64 ∘ Int.ofNat :=
      funext fun n => (BitVec.ofInt_natCast 64 n).symm
    rw [wrapping?_eq_map_natural?, Option.map_map, hcast]
  rw [parse?, hread, signed?_map fun a => BitVec.ofInt_neg]
  rfl

end Literal

/-- An operand that is neither a known label nor a literal is taken for an unknown label when it
begins like a name: with an alphabetic character, an underscore or a point. -/
def looksLikeLabel (token : Text) : Bool :=
  match token with
  | [] => false
  | c :: _ => Text.isAlphabetic c || c == '_' || c == '.'

end Cvere
