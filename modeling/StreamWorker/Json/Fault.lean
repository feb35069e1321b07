import StreamWorker.Text.Quoted
import StreamWorker.Text.Utf8
import StreamWorker.Json.Figure
import StreamWorker.Json.Value

/-! Why a text is not a JSON document, or not one of the wanted shape, and where. A fault is placed by
line and column; the column counts the bytes of the line up to the place. -/

namespace StreamWorker.Json

/-- What was found where another kind of value was wanted. -/
inductive Found where
  | null
  | bool (b : Bool)
  | number (n : Number)
  | string (s : String)
  | sequence
  | map
  deriving Repr, DecidableEq

def Found.describe : Found → String
  | .null => "null"
  | .bool b => s!"boolean `{b}`"
  | .number (.integer i) => s!"integer `{i}`"
  | .number (.real x) => s!"floating point `{String.ofList (realText x)}`"
  | .string s => "string " ++ Text.quoted s
  | .sequence => "sequence"
  | .map => "map"

inductive Cause where
  | endInValue
  | endInString
  | endInList
  | endInObject
  | expectedValue
  | expectedWord
  | expectedColon
  | expectedCommaOrBracket
  | expectedCommaOrBrace
  | nameNotString
  | trailingComma
  | trailingCharacters
  | invalidNumber
  | numberOutOfRange
  | invalidEscape
  | halfSurrogatePair
  | loneSurrogate
  | controlCharacter
  | invalidCodePoint
  | tooDeep
  | wrongType (found : Found) (expected : String)
  | wrongValue (found : Found) (expected : String)
  | wrongLength (length : Nat) (expected : String)
  | missingField (name : String)
  | duplicateField (name : String)
  deriving Repr, DecidableEq

def Cause.describe : Cause → String
  | .endInValue => "EOF while parsing a value"
  | .endInString => "EOF while parsing a string"
  | .endInList => "EOF while parsing a list"
  | .endInObject => "EOF while parsing an object"
  | .expectedValue => "expected value"
  | .expectedWord => "expected ident"
  | .expectedColon => "expected `:`"
  | .expectedCommaOrBracket => "expected `,` or `]`"
  | .expectedCommaOrBrace => "expected `,` or `\x7d`"
  | .nameNotString => "key must be a string"
  | .trailingComma => "trailing comma"
  | .trailingCharacters => "trailing characters"
  | .invalidNumber => "invalid number"
  | .numberOutOfRange => "number out of range"
  | .invalidEscape => "invalid escape"
  | .halfSurrogatePair => "unexpected end of hex escape"
  | .loneSurrogate => "lone leading surrogate in hex escape"
  | .controlCharacter => "control character (\\u0000-\\u001F) found while parsing a string"
  | .invalidCodePoint => "invalid unicode code point"
  | .tooDeep => "recursion limit exceeded"
  | .wrongType found expected => s!"invalid type: {found.describe}, expected {expected}"
  | .wrongValue found expected => s!"invalid value: {found.describe}, expected {expected}"
  | .wrongLength n expected => s!"invalid length {n}, expected {expected}"
  | .missingField name => s!"missing field `{name}`"
  | .duplicateField name => s!"duplicate field `{name}`"

structure Position where
  line : Nat
  column : Nat
  deriving Repr, DecidableEq

/-- The place just after the given bytes. -/
def Position.after (consumed : Bytes) : Position :=
  consumed.foldl (fun p b => if b = 10 then ⟨p.line + 1, 0⟩ else ⟨p.line, p.column + 1⟩) ⟨1, 0⟩

structure Fault where
  cause : Cause
  position : Position
  deriving Repr, DecidableEq

def Fault.message (f : Fault) : String :=
  s!"{f.cause.describe} at line {f.position.line} column {f.position.column}"

/-- Reading stopped for a cause with `left` bytes of the document after the place. -/
structure Stop where
  cause : Cause
  left : Nat
  deriving Repr, DecidableEq

def Stop.fault (s : Stop) (document : Bytes) : Fault :=
  ⟨s.cause, .after (document.take (document.length - s.left))⟩

/-- What a reader gives: a result and the bytes that follow it. -/
abbrev Reading (α : Type) := Except Stop (α × Bytes)

/-- Stops just before the bytes that are left. -/
def stopBefore {α : Type} (cause : Cause) (rest : Bytes) : Reading α :=
  .error ⟨cause, rest.length⟩

/-- Stops at the next byte, counting it in, or at the end of the document. -/
def stopAt {α : Type} (cause : Cause) (rest : Bytes) : Reading α :=
  .error ⟨cause, rest.length - 1⟩

end StreamWorker.Json
