import SheetBinding.Log
import SheetBinding.Sheet
import SheetBinding.Text.Codec

/-!
Loading sheets. A sheet is loaded from a text, from bytes, or from the bytes of
a file, whose line ends are unified first.
-/

namespace SheetBinding

/-- Where a sheet is loaded from. -/
inductive Source where
  | text (content : String)
  | bytes (content : List Text.Byte)
  | file (name : String) (content : List Text.Byte)
  deriving Repr

/-- Why bytes are no text. -/
inductive DecodeError where
  | unknownEncoding
  | undecodable
  deriving DecidableEq, Repr

/-- Why a sheet cannot be loaded. -/
inductive LoadError where
  | decode (cause : DecodeError)
  | read (cause : ReadError)
  deriving DecidableEq, Repr

namespace LoadError

/-- Whether a failure is one that sheets are expected to have. -/
def isExpected : LoadError → Bool
  | read e => e.isExpected
  | decode _ => false

/-- What a command tells of a failure. -/
def summary : LoadError → String
  | read e => e.summary
  | decode .unknownEncoding => "unknown encoding"
  | decode .undecodable => "undecodable bytes"

end LoadError

/-- What was logged while a sheet was loaded, and the sheet. -/
structure Loaded where
  log : List Event
  result : Except LoadError Sheet

/-- The codecs that there are, by their names. -/
abbrev Codecs := String → Option Text.Codec

/-- The text that bytes stand for in the encoding of a name. -/
def decodeBytes (codecs : Codecs) (encoding : String) (bytes : List Text.Byte) :
    Except DecodeError String :=
  match codecs encoding with
  | none => .error .unknownEncoding
  | some codec =>
    match codec.decode? bytes with
    | none => .error .undecodable
    | some s => .ok s

/-- The text of a file of bytes. -/
def decodeFile (codecs : Codecs) (encoding : String) (bytes : List Text.Byte) :
    Except DecodeError String :=
  (decodeBytes codecs encoding bytes).map fun s =>
    String.ofList (Text.unifyLineEnds s.toList)

/-- A path without the parts that lead nowhere. -/
def plainPath (path : String) : String :=
  let parts := (path.splitOn "/").filter fun part => part != "" && part != "."
  let start := if path.startsWith "//" && !path.startsWith "///" then "//"
    else if path.startsWith "/" then "/" else ""
  let joined := start ++ "/".intercalate parts
  if joined == "" then "." else joined

namespace Sheet

/-- Loads a sheet from a text. -/
def loadText (s : String) : Loaded :=
  match Sheet.read s with
  | .error e => ⟨[], .error (.read e)⟩
  | .ok sheet => ⟨[.loaded sheet.rules.length], .ok sheet⟩

/-- Loads a sheet from a text that may have failed to be decoded. -/
def loadDecoded (decoded : Except DecodeError String) : Loaded :=
  match decoded with
  | .error e => ⟨[], .error (.decode e)⟩
  | .ok s => loadText s

/-- Loads a sheet from any source, the encoding being one of some codecs. -/
def loadWith (codecs : Codecs) (source : Source) (encoding : String) : Loaded :=
  match source with
  | .text s => loadText s
  | .bytes content => loadDecoded (decodeBytes codecs encoding content)
  | .file name content =>
    let loaded := loadDecoded (decodeFile codecs encoding content)
    { loaded with log := .reading (plainPath name) :: loaded.log }

/-- Loads a sheet from any source, in an encoding that is told in full. -/
def load (source : Source) (encoding : String) : Loaded :=
  loadWith Text.Codec.ofName? source encoding

end Sheet

end SheetBinding
