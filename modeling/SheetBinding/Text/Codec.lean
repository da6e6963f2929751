import SheetBinding.Proofs.Text.Encoding

/-!
Codecs, by which texts are written as bytes and read again. Of a codec nothing
is asked but that it reads what it wrote. The encodings that are told in full
are codecs.
-/

namespace SheetBinding.Text

/-- A way of writing texts as bytes, if they can be written, and of reading
bytes as texts, if they can be read. -/
structure Codec where
  encode? : String → Option (List Byte)
  decode? : List Byte → Option String
  /-- What was written is read again. -/
  decode?_of_encode? {s : String} {bytes : List Byte} :
    encode? s = some bytes → decode? bytes = some s

/-- The codec of an encoding. -/
def Encoding.codec (e : Encoding) : Codec :=
  ⟨e.encode?, e.decode?, decode?_of_encode?⟩

/-- The codec of a name, if it names an encoding that is told in full. -/
def Codec.ofName? (name : String) : Option Codec :=
  (Encoding.ofName? name).map Encoding.codec

end SheetBinding.Text
