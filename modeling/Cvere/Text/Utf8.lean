import Cvere.Text.Basic

/-!
# Text in files

Files hold bytes, and a text file is the UTF-8 encoding of its characters.

**Main result.** `ofUtf8?_toUtf8`: a text that was written can be read back.
-/

namespace Cvere

namespace Text

/-- The bytes of a text in UTF-8. -/
def toUtf8 (t : Text) : List UInt8 :=
  t.flatMap String.utf8EncodeChar

/-- The text with the given bytes, when they are valid UTF-8. -/
def ofUtf8? (bytes : List UInt8) : Option Text :=
  bytes.toByteArray.utf8Decode?.map Array.toList

/-- A text that was written can be read back. -/
@[simp] theorem ofUtf8?_toUtf8 (t : Text) : ofUtf8? (toUtf8 t) = some t := by
  have h : (toUtf8 t).toByteArray = t.utf8Encode := rfl
  rw [ofUtf8?, h, List.utf8Decode?_utf8Encode]
  rfl

end Text

end Cvere
