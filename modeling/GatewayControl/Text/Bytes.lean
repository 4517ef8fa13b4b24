/-!
# `GatewayControl.Text.Bytes` -- byte strings and the texts they hold

Stored values, keys and files are byte strings. A text is written as its UTF-8 bytes, and reading
those bytes gives the text back.
-/

namespace GatewayControl

/-- A byte string. -/
abbrev Bytes := List UInt8

namespace Bytes

/-- The UTF-8 bytes of a text. -/
def ofText (s : String) : Bytes := s.toByteArray.data.toList

/-- The text whose UTF-8 bytes these are, if there is one. -/
def toText? (b : Bytes) : Option String := String.fromUTF8? ⟨b.toArray⟩

/-- A text is read back from its bytes. -/
@[simp] theorem toText?_ofText (s : String) : toText? (ofText s) = some s := by
  have h : String.fromUTF8? s.toByteArray = some s := by
    unfold String.fromUTF8?
    rw [dif_pos s.isValidUTF8]
    rfl
  simpa [toText?, ofText] using h

theorem ofText_inj {s t : String} : ofText s = ofText t ↔ s = t :=
  ⟨fun h => Option.some.inj (by rw [← toText?_ofText s, ← toText?_ofText t, h]),
   fun h => h ▸ rfl⟩

/-- The bytes of a text are those of its characters, one after the other. -/
theorem ofText_ofList (cs : List Char) :
    ofText (String.ofList cs) = cs.flatMap String.utf8EncodeChar := by
  unfold ofText
  rw [String.toByteArray_ofList, List.utf8Encode, List.toList_data_toByteArray]

/-- The byte of an ASCII character. -/
def ascii (c : Char) : UInt8 := c.toNat.toUInt8

end Bytes

end GatewayControl
