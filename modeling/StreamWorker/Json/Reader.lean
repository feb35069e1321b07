import StreamWorker.Json.Token

/-! Whole JSON documents read from bytes. Values nest at most 127 deep. Within an object a later member
replaces an earlier one of the same name. -/

namespace StreamWorker.Json

/-- Items after the opening bracket of a list, or after a comma: `first` says which. Every item takes
at least one byte, so `fuel` need not exceed the number of bytes. -/
def items {α : Type} (item : Bytes → Reading α) : Nat → Bool → Bytes → Reading (List α)
  | 0, _, s => stopAt .endInList s
  | fuel + 1, first, s =>
    match skipBlanks s with
    | [] => stopAt .endInList []
    | b :: rest =>
      if b = byte ']' then .ok ([], rest)
      else if first then next (items item fuel false) (b :: rest)
      else if b = byte ',' then
        match skipBlanks rest with
        | [] => stopAt .endInValue []
        | c :: after =>
          if c = byte ']' then stopAt .trailingComma (c :: after) else next (items item fuel false) (c :: after)
      else stopAt .expectedCommaOrBracket (b :: rest)
where
  next (more : Bytes → Reading (List α)) (s : Bytes) : Reading (List α) :=
    match item s with
    | .error stop => .error stop
    | .ok (v, rest) =>
      match more rest with
      | .error stop => .error stop
      | .ok (vs, rest) => .ok (v :: vs, rest)

/-- The colon after a member's name. -/
def colon (s : Bytes) : Reading Unit :=
  match skipBlanks s with
  | [] => stopAt .endInObject []
  | b :: rest => if b = byte ':' then .ok ((), rest) else stopAt .expectedColon (b :: rest)

/-- Members after the opening brace of an object, or after a member, each taken into a state by
`member` from its name on. -/
def members {σ : Type} (member : σ → String → Bytes → Reading σ) :
    Nat → Bool → σ → Bytes → Reading σ
  | 0, _, _, s => stopAt .endInObject s
  | fuel + 1, first, state, s =>
    match skipBlanks s with
    | [] => stopAt .endInObject []
    | b :: rest =>
      if b = byte '\x7d' then .ok (state, rest)
      else if first then
        if b = byte '"' then next (members member fuel false) state rest else stopAt .nameNotString (b :: rest)
      else if b = byte ',' then
        match skipBlanks rest with
        | [] => stopAt .endInValue []
        | c :: after =>
          if c = byte '"' then next (members member fuel false) state after
          else if c = byte '\x7d' then stopAt .trailingComma (c :: after)
          else stopAt .nameNotString (c :: after)
      else stopAt .expectedCommaOrBrace (b :: rest)
where
  next (more : σ → Bytes → Reading σ) (state : σ) (s : Bytes) : Reading σ :=
    match string s with
    | .error stop => .error stop
    | .ok (name, rest) =>
      match member state name rest with
      | .error stop => .error stop
      | .ok (state, rest) => more state rest

/-- Reads on with `f`, keeping the bytes that follow. -/
def Reading.mapValue {α β : Type} (f : α → β) (r : Reading α) : Reading β :=
  r.map (fun p => (f p.1, p.2))

/-- A member's colon and value, bound in the members read so far. -/
def bindMember (value : Bytes → Reading Value) (ms : List (String × Value)) (name : String)
    (s : Bytes) : Reading (List (String × Value)) :=
  match colon s with
  | .error stop => .error stop
  | .ok (_, s) => Reading.mapValue (fun v => bind name v ms) (value s)

/-- One value, with at most `depth` brackets around one another. -/
def value : Nat → Bytes → Reading Value
  | depth, s =>
    match skipBlanks s with
    | [] => stopAt .endInValue []
    | b :: rest =>
      if b = byte 'n' then Reading.mapValue (fun _ => .null) (nullWord rest)
      else if b = byte 't' then Reading.mapValue .bool (trueWord rest)
      else if b = byte 'f' then Reading.mapValue .bool (falseWord rest)
      else if b = byte '-' then Reading.mapValue .number (number true rest)
      else if isDigit b then Reading.mapValue .number (number false (b :: rest))
      else if b = byte '"' then Reading.mapValue .string (string rest)
      else if b = byte '[' then
        match depth with
        | 0 => stopAt .tooDeep (b :: rest)
        | depth + 1 => Reading.mapValue .array (items (value depth) rest.length.succ true rest)
      else if b = byte '\x7b' then
        match depth with
        | 0 => stopAt .tooDeep (b :: rest)
        | depth + 1 =>
          Reading.mapValue .object
            (members (bindMember (value depth)) rest.length.succ true [] rest)
      else stopAt .expectedValue (b :: rest)

/-- The greatest number of brackets around one another. -/
def maxDepth : Nat := 127

/-- The end of a document. -/
def finish {α : Type} (r : Reading α) : Reading α :=
  match r with
  | .error stop => .error stop
  | .ok (v, rest) =>
    match skipBlanks rest with
    | [] => .ok (v, [])
    | b :: rest => stopAt .trailingCharacters (b :: rest)

/-- A whole document read by `reader`. -/
def document {α : Type} (reader : Bytes → Reading α) (bytes : Bytes) : Except Fault α :=
  match finish (reader bytes) with
  | .ok (v, _) => .ok v
  | .error stop => .error (stop.fault bytes)

/-- The document that the bytes spell. -/
def Value.read (bytes : Bytes) : Except Fault Value := document (value maxDepth) bytes

end StreamWorker.Json
