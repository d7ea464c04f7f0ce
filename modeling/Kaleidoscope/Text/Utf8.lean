/-!
# UTF-8

## Texts as bytes

Reading the bytes of a text gives the text back; bytes that are no valid
encoding have no text.
-/

namespace Kaleidoscope
namespace Text

def utf8 (text : String) : List UInt8 :=
  text.toUTF8.data.toList

def ofUtf8? (bytes : List UInt8) : Option String :=
  String.fromUTF8? ⟨bytes.toArray⟩

end Text
end Kaleidoscope
