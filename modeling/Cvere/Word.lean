/-!
# Machine words

A word has sixteen bits and is read as four nibbles, or as nibbles followed by a wider field. The
fields are put together with `++`, so that a word is what its layout says, most significant field
first.

**Main results.** Each field of a word that was put together from fields is the field that went in
(`top_ofNibbles`, `second_ofNibbles`, ...), and a word is put together from its own fields
(`ofNibbles_fields`).
-/

namespace Cvere

/-- A machine word. -/
abbrev Word := BitVec 16

/-- A byte address. Addresses wrap around at thirty-two bits. -/
abbrev Address := BitVec 32

/-- The number of words. -/
abbrev Word.count : Nat := 0x10000

/-- The number of addresses. -/
abbrev Address.count : Nat := 0x100000000

/-- A four-bit field of a word. -/
abbrev Nibble := BitVec 4

namespace Word

/-- Bits 15 to 12, which select the family of most words. -/
def top (w : Word) : Nibble := w.extractLsb' 12 4

/-- Bits 11 to 8. -/
def second (w : Word) : Nibble := w.extractLsb' 8 4

/-- Bits 7 to 4. -/
def third (w : Word) : Nibble := w.extractLsb' 4 4

/-- Bits 3 to 0. -/
def fourth (w : Word) : Nibble := w.extractLsb' 0 4

/-- Bits 15 to 8. -/
def highByte (w : Word) : BitVec 8 := w.extractLsb' 8 8

/-- Bits 7 to 0. -/
def lowByte (w : Word) : BitVec 8 := w.extractLsb' 0 8

/-- Bits 11 to 0. -/
def tail (w : Word) : BitVec 12 := w.extractLsb' 0 12

/-- The word with four given nibbles. -/
def ofNibbles (a b c d : Nibble) : Word := a ++ b ++ c ++ d

/-- The word with two given nibbles above a byte. -/
def ofNibblesByte (a b : Nibble) (low : BitVec 8) : Word := a ++ b ++ low

/-- The word with a given nibble above a twelve-bit field. -/
def ofNibbleTail (a : Nibble) (low : BitVec 12) : Word := a ++ low

/-- The word with two given bytes. -/
def ofBytes (high low : BitVec 8) : Word := high ++ low

/-! ## Words and fields as numbers -/

/-- A field above another counts with the other's range as its weight. -/
theorem toNat_append_eq {m n : Nat} (x : BitVec m) (y : BitVec n) :
    (x ++ y).toNat = x.toNat <<< n + y.toNat := by
  rw [BitVec.toNat_append, Nat.shiftLeft_add_eq_or_of_lt y.isLt]

theorem toNat_ofNibbles (a b c d : Nibble) :
    (ofNibbles a b c d).toNat =
      a.toNat * 0x1000 + b.toNat * 0x100 + c.toNat * 0x10 + d.toNat := by
  change ((a ++ b ++ c) ++ d).toNat = _
  simp only [toNat_append_eq, Nat.shiftLeft_eq]
  omega

theorem toNat_ofNibblesByte (a b : Nibble) (low : BitVec 8) :
    (ofNibblesByte a b low).toNat = a.toNat * 0x1000 + b.toNat * 0x100 + low.toNat := by
  change ((a ++ b) ++ low).toNat = _
  simp only [toNat_append_eq, Nat.shiftLeft_eq]
  omega

theorem toNat_ofNibbleTail (a : Nibble) (low : BitVec 12) :
    (ofNibbleTail a low).toNat = a.toNat * 0x1000 + low.toNat :=
  (toNat_append_eq a low).trans (by rw [Nat.shiftLeft_eq])

theorem toNat_ofBytes (high low : BitVec 8) :
    (ofBytes high low).toNat = high.toNat * 0x100 + low.toNat :=
  (toNat_append_eq high low).trans (by rw [Nat.shiftLeft_eq])

theorem toNat_top (w : Word) : w.top.toNat = w.toNat / 0x1000 := by
  have := w.isLt
  simp only [top, BitVec.extractLsb'_toNat, Nat.shiftRight_eq_div_pow]
  omega

theorem toNat_second (w : Word) : w.second.toNat = w.toNat / 0x100 % 0x10 := by
  simp only [second, BitVec.extractLsb'_toNat, Nat.shiftRight_eq_div_pow]

theorem toNat_third (w : Word) : w.third.toNat = w.toNat / 0x10 % 0x10 := by
  simp only [third, BitVec.extractLsb'_toNat, Nat.shiftRight_eq_div_pow]

theorem toNat_fourth (w : Word) : w.fourth.toNat = w.toNat % 0x10 := by
  simp only [fourth, BitVec.extractLsb'_toNat, Nat.shiftRight_zero]

theorem toNat_highByte (w : Word) : w.highByte.toNat = w.toNat / 0x100 := by
  have := w.isLt
  simp only [highByte, BitVec.extractLsb'_toNat, Nat.shiftRight_eq_div_pow]
  omega

theorem toNat_lowByte (w : Word) : w.lowByte.toNat = w.toNat % 0x100 := by
  simp only [lowByte, BitVec.extractLsb'_toNat, Nat.shiftRight_zero]

theorem toNat_tail (w : Word) : w.tail.toNat = w.toNat % 0x1000 := by
  simp only [tail, BitVec.extractLsb'_toNat, Nat.shiftRight_zero]

/-! ## Fields of assembled words -/

section Fields

variable (a b c d : Nibble) (high low : BitVec 8) (t : BitVec 12)

@[simp] theorem top_ofNibbles : (ofNibbles a b c d).top = a := by
  apply BitVec.eq_of_toNat_eq
  rw [toNat_top, toNat_ofNibbles]
  have := b.isLt; have := c.isLt; have := d.isLt
  omega

@[simp] theorem second_ofNibbles : (ofNibbles a b c d).second = b := by
  apply BitVec.eq_of_toNat_eq
  rw [toNat_second, toNat_ofNibbles]
  have := b.isLt; have := c.isLt; have := d.isLt
  omega

@[simp] theorem third_ofNibbles : (ofNibbles a b c d).third = c := by
  apply BitVec.eq_of_toNat_eq
  rw [toNat_third, toNat_ofNibbles]
  have := c.isLt; have := d.isLt
  omega

@[simp] theorem fourth_ofNibbles : (ofNibbles a b c d).fourth = d := by
  apply BitVec.eq_of_toNat_eq
  rw [toNat_fourth, toNat_ofNibbles]
  have := d.isLt
  omega

@[simp] theorem top_ofNibblesByte : (ofNibblesByte a b low).top = a := by
  apply BitVec.eq_of_toNat_eq
  rw [toNat_top, toNat_ofNibblesByte]
  have := b.isLt; have := low.isLt
  omega

@[simp] theorem second_ofNibblesByte : (ofNibblesByte a b low).second = b := by
  apply BitVec.eq_of_toNat_eq
  rw [toNat_second, toNat_ofNibblesByte]
  have := b.isLt; have := low.isLt
  omega

@[simp] theorem lowByte_ofNibblesByte : (ofNibblesByte a b low).lowByte = low := by
  apply BitVec.eq_of_toNat_eq
  rw [toNat_lowByte, toNat_ofNibblesByte]
  have := low.isLt
  omega

@[simp] theorem top_ofNibbleTail : (ofNibbleTail a t).top = a := by
  apply BitVec.eq_of_toNat_eq
  rw [toNat_top, toNat_ofNibbleTail]
  have := t.isLt
  omega

@[simp] theorem tail_ofNibbleTail : (ofNibbleTail a t).tail = t := by
  apply BitVec.eq_of_toNat_eq
  rw [toNat_tail, toNat_ofNibbleTail]
  have := t.isLt
  omega

@[simp] theorem highByte_ofBytes : (ofBytes high low).highByte = high := by
  apply BitVec.eq_of_toNat_eq
  rw [toNat_highByte, toNat_ofBytes]
  have := low.isLt
  omega

@[simp] theorem lowByte_ofBytes : (ofBytes high low).lowByte = low := by
  apply BitVec.eq_of_toNat_eq
  rw [toNat_lowByte, toNat_ofBytes]
  have := low.isLt
  omega

end Fields

/-! ## A word is made of its fields -/

theorem ofNibbles_fields (w : Word) : ofNibbles w.top w.second w.third w.fourth = w := by
  apply BitVec.eq_of_toNat_eq
  rw [toNat_ofNibbles, toNat_top, toNat_second, toNat_third, toNat_fourth]
  omega

theorem ofNibblesByte_fields (w : Word) : ofNibblesByte w.top w.second w.lowByte = w := by
  apply BitVec.eq_of_toNat_eq
  rw [toNat_ofNibblesByte, toNat_top, toNat_second, toNat_lowByte]
  omega

theorem ofNibbleTail_fields (w : Word) : ofNibbleTail w.top w.tail = w := by
  apply BitVec.eq_of_toNat_eq
  rw [toNat_ofNibbleTail, toNat_top, toNat_tail]
  omega

theorem ofBytes_fields (w : Word) : ofBytes w.highByte w.lowByte = w := by
  apply BitVec.eq_of_toNat_eq
  rw [toNat_ofBytes, toNat_highByte, toNat_lowByte]
  omega

end Word

end Cvere
