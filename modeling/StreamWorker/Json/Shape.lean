import StreamWorker.Json.Reader
import StreamWorker.Json.Skip

/-! JSON documents of a known shape: texts, numbers of 32 bits, lists, and records given by their fields
either as an object, where unknown members are passed over, or in order as a list. -/

namespace StreamWorker.Json

/-- What stands at the beginning of the bytes, where something else was expected. Brackets are not
entered. -/
def mismatch {α : Type} (expected : String) (s : Bytes) : Reading α :=
  let report (found : Reading Found) : Reading α :=
    match found with
    | .error stop => .error stop
    | .ok (f, rest) => stopBefore (.wrongType f expected) rest
  match s with
  | [] => stopAt .endInValue []
  | b :: rest =>
    if b = byte 'n' then report (Reading.mapValue (fun _ => .null) (nullWord rest))
    else if b = byte 't' then report (Reading.mapValue .bool (trueWord rest))
    else if b = byte 'f' then report (Reading.mapValue .bool (falseWord rest))
    else if b = byte '-' then report (Reading.mapValue .number (number true rest))
    else if isDigit b then report (Reading.mapValue .number (number false s))
    else if b = byte '"' then report (Reading.mapValue .string (string rest))
    else if b = byte '[' then stopBefore (.wrongType .sequence expected) s
    else if b = byte '\x7b' then stopBefore (.wrongType .map expected) s
    else stopAt .expectedValue s

def textShape (s : Bytes) : Reading String :=
  match skipBlanks s with
  | [] => stopAt .endInValue []
  | b :: rest => if b = byte '"' then string rest else mismatch "a string" (b :: rest)

/-- A number from 0 to `2 ^ 32 - 1`. -/
def wordShape (s : Bytes) : Reading UInt32 :=
  match skipBlanks s with
  | [] => stopAt .endInValue []
  | b :: rest =>
    let read := if b = byte '-' then some (number true rest)
      else if isDigit b then some (number false (b :: rest))
      else none
    match read with
    | none => mismatch "u32" (b :: rest)
    | some (.error stop) => .error stop
    | some (.ok (.real x, rest)) => stopBefore (.wrongType (.number (.real x)) "u32") rest
    | some (.ok (.integer i, rest)) =>
      if 0 ≤ i ∧ i.toNat < UInt32.size then .ok (UInt32.ofNat i.toNat, rest)
      else stopBefore (.wrongValue (.number (.integer i)) "u32") rest

def listShape {α : Type} (item : Bytes → Reading α) (s : Bytes) : Reading (List α) :=
  match skipBlanks s with
  | [] => stopAt .endInValue []
  | b :: rest =>
    if b = byte '[' then items item rest.length.succ true rest
    else mismatch "a sequence" (b :: rest)

/-- The end of a list from which no further item is wanted. -/
private def listEnd (s : Bytes) : Reading Unit :=
  match skipBlanks s with
  | [] => stopAt .endInList []
  | b :: rest =>
    if b = byte ']' then .ok ((), rest)
    else if b = byte ',' then
      match skipBlanks rest with
      | [] => stopAt .trailingCharacters []
      | c :: after =>
        stopAt (if c = byte ']' then .trailingComma else .trailingCharacters) (c :: after)
    else stopAt .trailingCharacters (b :: rest)

/-- One more item of a list, or none if the list ends here; then the bytes start after its bracket. -/
private def nextItem {α : Type} (item : Bytes → Reading α) (first : Bool) (s : Bytes) :
    Reading (Option α) :=
  match skipBlanks s with
  | [] => stopAt .endInList []
  | b :: rest =>
    if b = byte ']' then .ok (none, rest)
    else if first then Reading.mapValue some (item (b :: rest))
    else if b = byte ',' then
      match skipBlanks rest with
      | [] => stopAt .endInValue []
      | c :: after =>
        if c = byte ']' then stopAt .trailingComma (c :: after)
        else Reading.mapValue some (item (c :: after))
    else stopAt .expectedCommaOrBracket (b :: rest)

/-- A unit of work, as producers describe it. -/
structure Job where
  name : String
  weight : UInt32
  deriving Repr, DecidableEq

private def jobFromList (s : Bytes) : Reading Job :=
  match nextItem textShape true s with
  | .error stop => .error stop
  | .ok (none, rest) => stopBefore (.wrongLength 0 "struct Job with 2 elements") rest
  | .ok (some name, rest) =>
    match nextItem wordShape false rest with
    | .error stop => .error stop
    | .ok (none, rest) => stopBefore (.wrongLength 1 "struct Job with 2 elements") rest
    | .ok (some weight, rest) => Reading.mapValue (fun _ => ⟨name, weight⟩) (listEnd rest)

/-- The fields of a job that were read so far. -/
structure JobFields where
  name : Option String := none
  weight : Option UInt32 := none

/-- A repeated field is refused at its second name. The place counts the blanks after it, and a brace
that closes the object there. -/
private def duplicate {α : Type} (field : String) (s : Bytes) : Reading α :=
  match skipBlanks s with
  | b :: rest => stopBefore (.duplicateField field) (if b = byte '\x7d' then rest else b :: rest)
  | [] => stopBefore (.duplicateField field) []

def jobMember (fields : JobFields) (name : String) (s : Bytes) : Reading JobFields :=
  if name = "name" ∧ fields.name.isSome then duplicate name s
  else if name = "weight" ∧ fields.weight.isSome then duplicate name s
  else match colon s with
    | .error stop => .error stop
    | .ok (_, s) =>
      if name = "name" then
        Reading.mapValue (fun t => { fields with name := some t }) (textShape s)
      else if name = "weight" then
        Reading.mapValue (fun w => { fields with weight := some w }) (wordShape s)
      else Reading.mapValue (fun _ => fields) (skipValue s)

def jobFromObject (s : Bytes) : Reading Job :=
  match members jobMember s.length.succ true {} s with
  | .error stop => .error stop
  | .ok (fields, rest) =>
    match fields.name, fields.weight with
    | some name, some weight => .ok (⟨name, weight⟩, rest)
    | none, _ => stopBefore (.missingField "name") rest
    | _, none => stopBefore (.missingField "weight") rest

def jobShape (s : Bytes) : Reading Job :=
  match skipBlanks s with
  | [] => stopAt .endInValue []
  | b :: rest =>
    if b = byte '[' then jobFromList rest
    else if b = byte '\x7b' then jobFromObject rest
    else mismatch "struct Job" (b :: rest)

end StreamWorker.Json
