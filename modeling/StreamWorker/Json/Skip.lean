import StreamWorker.Json.Token

/-! Passing over a value that nobody asked for. Its words, numbers and brackets have to be well formed,
but its depth has no limit, its numbers no range, and its strings may hold any bytes but controls. -/

namespace StreamWorker.Json

private def skipDigits (s : Bytes) : Bytes := s.dropWhile isDigit

private def skipExponent (s : Bytes) : Reading Unit :=
  let s := if s.head? = some (byte '-') ∨ s.head? = some (byte '+') then s.tail else s
  match s with
  | [] => stopBefore .invalidNumber []
  | b :: rest => if isDigit b then .ok ((), skipDigits rest) else stopBefore .invalidNumber rest

private def skipFraction (s : Bytes) : Reading Unit :=
  if (s.head?.map isDigit).getD false then
    match skipDigits s with
    | b :: rest => if b = byte 'e' ∨ b = byte 'E' then skipExponent rest else .ok ((), b :: rest)
    | [] => .ok ((), [])
  else stopAt .invalidNumber s

/-- A number after its sign. -/
private def skipNumber (s : Bytes) : Reading Unit :=
  match s with
  | [] => stopBefore .invalidNumber []
  | b :: after =>
    if ¬isDigit b then stopBefore .invalidNumber after
    else if b = byte '0' ∧ (after.head?.map isDigit).getD false then stopAt .invalidNumber after
    else match (if b = byte '0' then after else skipDigits after) with
      | c :: rest =>
        if c = byte '.' then skipFraction rest
        else if c = byte 'e' ∨ c = byte 'E' then skipExponent rest
        else .ok ((), c :: rest)
      | [] => .ok ((), [])

/-- A string after its opening quote, with `pending` bytes left of an escape. -/
private def skipString : Nat → Bytes → Reading Unit
  | _, [] => stopBefore .endInString []
  | pending + 1, _ :: rest => skipString pending rest
  | 0, b :: rest =>
    if b = byte '"' then .ok ((), rest)
    else if b = byte '\\' then
      match rest with
      | [] => stopBefore .endInString []
      | e :: after =>
        if e = byte 'u' then
          match hexUnit after with
          | .ok _ => skipString 5 rest
          | .error stop => .error stop
        else if (letterEscape? e).isSome then skipString 1 rest
        else stopBefore .invalidEscape after
    else if b < 0x20 then stopBefore .controlCharacter (b :: rest)
    else skipString 0 rest

private inductive Bracket where
  | square
  | curly
  deriving DecidableEq

private def Bracket.close : Bracket → UInt8
  | .square => byte ']'
  | .curly => byte '\x7d'

/-- Where skipping stands: at the beginning of a value, at the beginning of a member or an item of the
innermost bracket, or after a value within it. -/
private inductive Place where
  | value
  | inside
  | after

/-- A member's name and colon, or nothing before an item of a list. -/
private def skipName (b : Bracket) (s : Bytes) : Reading Unit :=
  match b with
  | .square => .ok ((), s)
  | .curly =>
    match skipBlanks s with
    | [] => stopAt .endInObject []
    | q :: rest =>
      if q ≠ byte '"' then stopAt .nameNotString (q :: rest)
      else match skipString 0 rest with
        | .error stop => .error stop
        | .ok (_, rest) =>
          match skipBlanks rest with
          | [] => stopAt .endInObject []
          | c :: rest => if c = byte ':' then .ok ((), rest) else stopAt .expectedColon (c :: rest)

/-- One value without brackets, or the opening of one with brackets. -/
private def skipStart (s : Bytes) : Reading (Option Bracket) :=
  let plain (r : Reading Unit) : Reading (Option Bracket) := r.map (fun p => (none, p.2))
  match s with
  | [] => stopAt .endInValue []
  | b :: rest =>
    if b = byte 'n' then plain (nullWord rest)
    else if b = byte 't' then (trueWord rest).map (fun p => (none, p.2))
    else if b = byte 'f' then (falseWord rest).map (fun p => (none, p.2))
    else if b = byte '-' then plain (skipNumber rest)
    else if isDigit b then plain (skipNumber s)
    else if b = byte '"' then plain (skipString 0 rest)
    else if b = byte '[' then .ok (some .square, rest)
    else if b = byte '\x7b' then .ok (some .curly, rest)
    else stopAt .expectedValue s

private def endInside : Bracket → Cause
  | .square => .endInList
  | .curly => .endInObject

private def expectedIn : Bracket → Cause
  | .square => .expectedCommaOrBracket
  | .curly => .expectedCommaOrBrace

/-- Goes on from a place, with the open brackets from the innermost to the outermost. Every two rounds
read at least one byte. -/
private def skipFrom : Nat → Place → List Bracket → Bytes → Reading Unit
  | 0, _, _, s => stopAt .endInValue s
  | n + 1, .value, stack, s =>
    match skipStart (skipBlanks s) with
    | .error stop => .error stop
    | .ok (some b, rest) => skipFrom n .inside (b :: stack) rest
    | .ok (none, rest) => skipFrom n .after stack rest
  | _ + 1, .after, [], s => .ok ((), s)
  | _ + 1, .inside, [], s => .ok ((), s)
  | n + 1, .inside, b :: stack, s =>
    match skipBlanks s with
    | [] => stopAt (endInside b) []
    | c :: rest =>
      if c = b.close then skipFrom n .after stack rest
      else match skipName b (c :: rest) with
        | .error stop => .error stop
        | .ok (_, rest) => skipFrom n .value (b :: stack) rest
  | n + 1, .after, b :: stack, s =>
    match skipBlanks s with
    | [] => stopAt (endInside b) []
    | c :: rest =>
      if c = byte ',' then
        match skipName b rest with
        | .error stop => .error stop
        | .ok (_, rest) => skipFrom n .value (b :: stack) rest
      else if c = b.close then skipFrom n .after stack rest
      else stopAt (expectedIn b) (c :: rest)

/-- Passes over one value. -/
def skipValue (s : Bytes) : Reading Unit := skipFrom (2 * s.length + 2) .value [] s

end StreamWorker.Json
