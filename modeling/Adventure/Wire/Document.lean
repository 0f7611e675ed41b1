import Adventure.Wire.Codec
import Adventure.Wire.Json.Reader
import Adventure.Wire.Json.Writer

/-!
# Documents

Typed data as the text of a JSON document, and as the bytes of such a text.
-/

namespace Adventure.Wire

/-- Reads a value of a type from the text of a JSON document. -/
def ofDocument? {α : Type} [Wire α] (text : String) : Option α :=
  (Json.read? text).bind (decode? .document)

/-- The text of a JSON document. -/
def toDocument {α : Type} [Wire α] (a : α) : String := Json.compact (encode a)

/-- The bytes of a text. -/
def bytesOfText (text : String) : List UInt8 := text.toUTF8.toList

/-- Reads a value of a type from the bytes of a JSON document. -/
def ofDocumentBytes? {α : Type} [Wire α] (bytes : List UInt8) : Option α :=
  (Json.readBytes? bytes).bind (decode? .document)

/-- The bytes of a JSON document. -/
def toDocumentBytes {α : Type} [Wire α] (a : α) : List UInt8 := bytesOfText (toDocument a)

end Adventure.Wire
