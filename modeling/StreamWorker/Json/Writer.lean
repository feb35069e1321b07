import StreamWorker.Json.Figure
import StreamWorker.Json.Value

/-! The compact text of a JSON document: no blanks, members by increasing name, and within strings
escapes only where the grammar demands them. -/

namespace StreamWorker.Json

/-- The hexadecimal digit for what a number leaves over 16. -/
def nibble (n : Nat) : Char := Nat.digitChar (n % 16)

/-- How one character is written inside a string. -/
def stringChar (c : Char) : List Char :=
  if c = '"' then ['\\', '"']
  else if c = '\\' then ['\\', '\\']
  else if c.toNat = 8 then ['\\', 'b']
  else if c.toNat = 9 then ['\\', 't']
  else if c.toNat = 10 then ['\\', 'n']
  else if c.toNat = 12 then ['\\', 'f']
  else if c.toNat = 13 then ['\\', 'r']
  else if c.toNat < 0x20 then ['\\', 'u', '0', '0', nibble (c.toNat / 16), nibble c.toNat]
  else [c]

def stringText (s : String) : List Char :=
  '"' :: s.toList.flatMap stringChar ++ ['"']

def integerText (i : Int) : List Char :=
  if i < 0 then '-' :: Nat.toDigits 10 i.natAbs else Nat.toDigits 10 i.natAbs

def Number.text : Number → List Char
  | .integer i => integerText i
  | .real x => realText x

/-- Texts with commas between them. -/
def commaSeparated : List (List Char) → List Char
  | [] => []
  | [t] => t
  | t :: ts => t ++ ',' :: commaSeparated ts

mutual

def Value.text : Value → List Char
  | .null => "null".toList
  | .bool true => "true".toList
  | .bool false => "false".toList
  | .number n => n.text
  | .string s => stringText s
  | .array items => '[' :: commaSeparated (itemTexts items) ++ [']']
  | .object members => '\x7b' :: commaSeparated (memberTexts members) ++ ['\x7d']

def itemTexts : List Value → List (List Char)
  | [] => []
  | v :: vs => v.text :: itemTexts vs

def memberTexts : List (String × Value) → List (List Char)
  | [] => []
  | (k, v) :: ms => (stringText k ++ ':' :: v.text) :: memberTexts ms

end

/-- The compact text of a document. -/
def Value.render (v : Value) : String := String.ofList v.text

end StreamWorker.Json
