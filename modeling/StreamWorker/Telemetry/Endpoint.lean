import StreamWorker.Text.Utf8

/-! Endpoints: where records are sent. An endpoint is a URI, of which only the form is checked before
anything is sent. -/

namespace StreamWorker.Telemetry

/-- Why a text is no URI. -/
inductive Endpoint.Fault where
  | badCharacter
  | badAuthority
  | badFormat
  | tooLong
  | schemeTooLong
  deriving Repr, DecidableEq

def Endpoint.Fault.message : Fault → String
  | .badCharacter => "invalid uri character"
  | .badAuthority => "invalid authority"
  | .badFormat => "invalid format"
  | .tooLong => "uri too long"
  | .schemeTooLong => "scheme too long"

namespace Endpoint

/-- The greatest number of bytes of a URI. -/
def maxLength : Nat := 65534

/-- The greatest number of bytes of a scheme. -/
def maxScheme : Nat := 64

private def code (c : Char) : UInt8 := .ofNat c.toNat

private def among (s : String) (b : UInt8) : Bool := (s.toList.map code).contains b

private def letterOrDigit (b : UInt8) : Bool :=
  (48 ≤ b && b ≤ 57) || (65 ≤ b && b ≤ 90) || (97 ≤ b && b ≤ 122)

private def inScheme (b : UInt8) : Bool := letterOrDigit b || among "+-.~" b

private def inUri (b : UInt8) : Bool := letterOrDigit b || among "!#$&'()*+,-./:;=?@[]_~" b

private def endsAuthority (b : UInt8) : Bool := among "/?#" b

private def lowerByte (b : UInt8) : UInt8 := if 65 ≤ b ∧ b ≤ 90 then b + 32 else b

private def separator : Bytes := "://".toList.map code

/-- What is left after a scheme, if the text begins with one. -/
private def afterScheme (s : Bytes) : Except Fault (Option Bytes) :=
  let scheme := s.takeWhile inScheme
  let rest := s.dropWhile inScheme
  if separator.isPrefixOf rest then
    let known := scheme.map lowerByte = "http".toList.map code
      ∨ scheme.map lowerByte = "https".toList.map code
    if maxScheme < scheme.length ∧ ¬known then .error .schemeTooLong
    else .ok (some (rest.drop 3))
  else .ok none

/-! ### Authority -/

/-- What was seen of an authority so far. -/
private structure Seen where
  colons : Nat := 0
  opened : Bool := false
  closed : Bool := false
  percent : Bool := false
  /-- Whether the last byte was an at sign. -/
  atSign : Bool := false

private def see (x : Seen) (b : UInt8) : Except Fault Seen :=
  let x := { x with atSign := false }
  if b = code ':' then
    if 8 ≤ x.colons then .error .badAuthority else .ok { x with colons := x.colons + 1 }
  else if b = code '[' then
    if x.percent ∨ x.opened then .error .badAuthority else .ok { x with opened := true }
  else if b = code ']' then
    if ¬x.opened ∨ x.closed then .error .badAuthority
    else .ok { x with closed := true, colons := 0, percent := false }
  else if b = code '@' then .ok { x with atSign := true, colons := 0, percent := false }
  else if b = code '%' then .ok { x with percent := true }
  else if inUri b then .ok x
  else .error .badCharacter

/-- An authority, which goes up to a slash, a question mark or a hash, and the rest. -/
private def authority (s : Bytes) : Except Fault (Bytes × Bytes) := do
  let a := s.takeWhile (!endsAuthority ·)
  let x ← a.foldlM see {}
  if x.opened ≠ x.closed ∨ 1 < x.colons ∨ x.atSign ∨ x.percent then .error .badAuthority
  return (a, s.dropWhile (!endsAuthority ·))

/-! ### Path and query -/

private def inPath (b : UInt8) : Bool :=
  b = 0x21 || (0x24 ≤ b && b ≤ 0x3B) || b = 0x3D || (0x40 ≤ b && b ≤ 0x5F)
    || (0x61 ≤ b && b ≤ 0x7A) || b = 0x7C || 0x7E ≤ b || among "\"\x7b\x7d" b

private def inQuery (b : UInt8) : Bool :=
  b = 0x21 || (0x24 ≤ b && b ≤ 0x3B) || b = 0x3D || 0x3F ≤ b

/-- Checks a path and a query; a fragment may hold anything. -/
private def checkPath (s : Bytes) : Except Fault Unit :=
  match s.dropWhile inPath with
  | [] => .ok ()
  | b :: rest =>
    if b = code '#' then .ok ()
    else if b = code '?' then
      match rest.dropWhile inQuery with
      | [] => .ok ()
      | c :: _ => if c = code '#' then .ok () else .error .badCharacter
    else .error .badCharacter

/-- Checks the form of a URI: a path, an authority alone, or a scheme, an authority and a path. -/
def checkBytes (s : Bytes) : Except Fault Unit := do
  if maxLength < s.length then .error .tooLong
  if s.length = 1 then
    if s = [code '/'] ∨ s = [code '*'] then return
    let (_, rest) ← authority s
    if rest.isEmpty then return else .error .badCharacter
  if s.head? = some (code '/') then checkPath s
  else
    match ← afterScheme s with
    | none =>
      let (_, rest) ← authority s
      if rest.isEmpty then return else .error .badFormat
    | some s =>
      let (a, rest) ← authority s
      if a.isEmpty then .error .badFormat
      checkPath rest

/-- Checks an endpoint; an empty one stands for the usual one. -/
def check (s : String) : Except Fault Unit :=
  if s.isEmpty then .ok () else checkBytes (Utf8.encode s)

end Endpoint

end StreamWorker.Telemetry
