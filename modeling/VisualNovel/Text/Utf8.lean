/-!
# Text as bytes

Text is stored in UTF-8. Bytes that are not well formed stand for no text.
-/

namespace VisualNovel.Text

/-- The bytes of a text. -/
def toBytes (s : String) : List UInt8 := s.toByteArray.data.toList

/-- The text of some bytes. -/
def ofBytes? (bytes : List UInt8) : Option String := String.fromUTF8? (ByteArray.mk bytes.toArray)

/-- A text is read back from its bytes. -/
theorem ofBytes?_toBytes (s : String) : ofBytes? (toBytes s) = some s := by
  have h : ofBytes? (toBytes s) = String.fromUTF8? s.toByteArray := by
    simp [ofBytes?, toBytes]
  rw [h, String.fromUTF8?, dif_pos s.isValidUTF8]
  rfl

/-- The pieces of a byte stream that end with a line feed, and what follows the last
one unless it is empty. The line feeds are left out. -/
def byteLines : List UInt8 → List (List UInt8)
  | [] => []
  | b :: bs =>
    if b = 10 then [] :: byteLines bs
    else match byteLines bs with
      | [] => [[b]]
      | l :: ls => (b :: l) :: ls

end VisualNovel.Text
