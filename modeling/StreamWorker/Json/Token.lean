import StreamWorker.Json.Fault

/-! The words, numbers and strings of JSON, read from bytes. A number keeps its digits as an integer of
64 bits as long as they fit; digits beyond that only scale it, and a number with a fraction or an
exponent is scaled by powers of ten that are themselves rounded, one step at a time. -/

namespace StreamWorker.Json

def byte (c : Char) : UInt8 := UInt8.ofNat c.toNat

def isBlank (b : UInt8) : Bool := b = 32 || b = 10 || b = 9 || b = 13

def skipBlanks (s : Bytes) : Bytes := s.dropWhile isBlank

def isDigit (b : UInt8) : Bool := 48 ≤ b && b ≤ 57

def digitValue (b : UInt8) : Nat := b.toNat - 48

/-- The rest of a word, after its first letter. -/
def word {α : Type} (value : α) : List UInt8 → Bytes → Reading α
  | [], s => .ok (value, s)
  | _ :: _, [] => stopBefore .endInValue []
  | e :: es, b :: s => if b = e then word value es s else stopBefore .expectedWord s

def nullWord (s : Bytes) : Reading Unit := word () ("ull".toList.map byte) s
def trueWord (s : Bytes) : Reading Bool := word true ("rue".toList.map byte) s
def falseWord (s : Bytes) : Reading Bool := word false ("alse".toList.map byte) s

/-! ### Numbers -/

/-- Appends digits to a number as long as it fits 64 bits, and counts those that no longer fit. -/
def absorb : Nat → Bytes → Nat × Nat
  | n, [] => (n, 0)
  | n, d :: ds =>
    if n * 10 + digitValue d < UInt64.size then absorb (n * 10 + digitValue d) ds
    else (n, (d :: ds).length)

private def tenTo (k : Nat) : Binary64 := (Binary64.round (Nat.pow 10 k) 1).getD .zero

private def divided (x : Binary64) (k : Nat) : Binary64 := (x.div (tenTo k)).getD .zero

/-- `n * 10 ^ e`, by one rounded product or by quotients of at most `10 ^ 308` each. -/
def scale (n : Nat) (e : Int) : Option Binary64 :=
  let x := (Binary64.ofNat n).getD .zero
  if n = 0 then some .zero
  else if 308 < e then none
  else if 0 ≤ e then x.mul (tenTo e.toNat)
  else
    let k := (-e).toNat
    if k ≤ 308 then some (divided x k)
    else if k ≤ 616 then some (divided (divided x 308) (k - 308))
    else some .zero

private def signed (negative : Bool) (x : Binary64) : Number :=
  .real (if negative then x.neg else x)

/-- A number without fraction and exponent: an integer where it fits. Minus zero is not an integer. -/
def wholeNumber (negative : Bool) (n : Nat) : Number :=
  if negative then
    if 0 < n ∧ n ≤ UInt64.size / 2 then .integer (-n) else signed true ((Binary64.ofNat n).getD .zero)
  else .integer n

private def scaledNumber (negative : Bool) (n : Nat) (e : Int) (s : Bytes) : Reading Number :=
  match scale n e with
  | some x => .ok (signed negative x, s)
  | none => stopBefore .numberOutOfRange s

/-- Adds digits to an exponent; none at the digit that makes it reach `2 ^ 31`, with what is left. -/
private def exponentDigits : Nat → Bytes → Option Nat × Bytes
  | n, [] => (some n, [])
  | n, b :: s =>
    if isDigit b then
      if n * 10 + digitValue b < UInt32.size / 2 then exponentDigits (n * 10 + digitValue b) s else (none, s)
    else (some n, b :: s)

/-- The exponent after its letter. One too large to hold is an infinity, which is refused, or scales
the number to zero. -/
private def exponentPart (negative : Bool) (n : Nat) (e : Int) (s : Bytes) : Reading Number :=
  let down := s.head? = some (byte '-')
  let s := if down ∨ s.head? = some (byte '+') then s.tail else s
  match s with
  | [] => stopBefore .endInValue []
  | b :: rest =>
    if isDigit b then
      match exponentDigits (digitValue b) rest with
      | (some k, rest) => scaledNumber negative n (if down then e - k else e + k) rest
      | (none, rest) =>
        if n ≠ 0 ∧ ¬down then stopBefore .numberOutOfRange rest
        else .ok (signed negative .zero, rest.dropWhile isDigit)
    else stopBefore .invalidNumber rest

def isExponentMark (b : UInt8) : Bool := b = byte 'e' || b = byte 'E'

private def fractionPart (negative : Bool) (n : Nat) (e : Int) (s : Bytes) : Reading Number :=
  let digits := s.takeWhile isDigit
  let rest := s.dropWhile isDigit
  match digits with
  | [] => stopAt (if rest.isEmpty then .endInValue else .invalidNumber) rest
  | _ =>
    let (n, unused) := absorb n digits
    let e := e - (digits.length - unused)
    match rest with
    | b :: after => if isExponentMark b then exponentPart negative n e after
        else scaledNumber negative n e rest
    | [] => scaledNumber negative n e rest

/-- A number after its sign. -/
def number (negative : Bool) (s : Bytes) : Reading Number :=
  match s with
  | [] => stopBefore .endInValue []
  | b :: after =>
    if ¬isDigit b then stopBefore .invalidNumber after
    else if b = byte '0' ∧ (after.head?.map isDigit).getD false then stopAt .invalidNumber after
    else
      let digits := s.takeWhile isDigit
      let rest := s.dropWhile isDigit
      let (n, unused) := absorb 0 digits
      match rest with
      | c :: tail =>
        if c = byte '.' then fractionPart negative n unused tail
        else if isExponentMark c then exponentPart negative n unused tail
        else if unused = 0 then .ok (wholeNumber negative n, rest)
        else scaledNumber negative n unused rest
      | [] =>
        if unused = 0 then .ok (wholeNumber negative n, rest)
        else scaledNumber negative n unused rest

/-! ### Strings -/

def hexValue? (b : UInt8) : Option Nat :=
  if isDigit b then some (digitValue b)
  else if 97 ≤ b ∧ b ≤ 102 then some (b.toNat - 87)
  else if 65 ≤ b ∧ b ≤ 70 then some (b.toNat - 55)
  else none

/-- Four hexadecimal digits. -/
def hexUnit (s : Bytes) : Reading Nat :=
  match s with
  | a :: b :: c :: d :: rest =>
    match hexValue? a, hexValue? b, hexValue? c, hexValue? d with
    | some a, some b, some c, some d => .ok (((a * 16 + b) * 16 + c) * 16 + d, rest)
    | _, _, _, _ => stopBefore .invalidEscape rest
  | _ => stopBefore .endInString []

/-- The byte `b`, which the second half of a surrogate pair needs here. -/
private def pairByte (b : UInt8) (s : Bytes) : Reading Unit :=
  match s with
  | [] => stopBefore .endInString []
  | b' :: rest => if b' = b then .ok ((), rest) else stopBefore .halfSurrogatePair rest

/-- A numbered escape after its letter: one unit, or a surrogate pair of two. -/
def unicodeEscape (s : Bytes) : Except Stop (Char × Bytes) := do
  let (high, s) ← hexUnit s
  if 0xDC00 ≤ high ∧ high ≤ 0xDFFF then stopBefore .loneSurrogate s
  else if high < 0xD800 ∨ 0xDFFF < high then .ok (Char.ofNat high, s)
  else
    let (_, s) ← pairByte (byte '\\') s
    let (_, s) ← pairByte (byte 'u') s
    let (low, s) ← hexUnit s
    if 0xDC00 ≤ low ∧ low ≤ 0xDFFF then
      .ok (Char.ofNat (0x10000 + (high - 0xD800) * 0x400 + (low - 0xDC00)), s)
    else stopBefore .loneSurrogate s

/-- The character that a letter stands for after a backslash. -/
def letterEscape? (b : UInt8) : Option Char :=
  if b = byte '"' then some '"'
  else if b = byte '\\' then some '\\'
  else if b = byte '/' then some '/'
  else if b = byte 'b' then some (Char.ofNat 8)
  else if b = byte 'f' then some (Char.ofNat 12)
  else if b = byte 'n' then some '\n'
  else if b = byte 'r' then some '\r'
  else if b = byte 't' then some '\t'
  else none

/-- An escape after its backslash. -/
def escape (s : Bytes) : Reading Char :=
  match s with
  | [] => stopBefore .endInString []
  | b :: rest =>
    if b = byte 'u' then unicodeEscape rest
    else match letterEscape? b with
      | some c => .ok (c, rest)
      | none => stopBefore .invalidEscape rest

/-- The number of bytes that an escape takes after its backslash: a letter, or the letter `u` with one
unit of four digits, or with two units and what stands between them. -/
def escapeLength (letter : Option UInt8) (c : Char) : Nat :=
  if letter = some (byte 'u') then if c.toNat < 0x10000 then 5 else 11 else 1

/-- Whether a byte goes on with the run of plain bytes that it stands in: a quote, a backslash and a
control end one. -/
private def inRun (b : UInt8) : Bool := !(b = byte '"' || b = byte '\\' || b < 0x20)

/-- The fault of a run of plain bytes that spells no text, where `rest` follows its first bad byte. A
run has to end, and not in a control, before it is looked at. -/
private def badRun {α : Type} (rest : Bytes) : Reading α :=
  match rest.dropWhile inRun with
  | [] => stopBefore .endInString []
  | b :: after =>
    if b < 0x20 then stopBefore .controlCharacter after else stopBefore .invalidCodePoint rest

/-- The characters of a string after its opening quote, with `skip` bytes left of an escape or of a
character that is already in `acc`. -/
def stringChars (acc : List Char) : Nat → Bytes → Reading String
  | _, [] => stopBefore .endInString []
  | skip + 1, _ :: rest => stringChars acc skip rest
  | 0, b :: rest =>
    if b = byte '"' then .ok (String.ofList acc.reverse, rest)
    else if b = byte '\\' then
      match escape rest with
      | .ok (c, _) => stringChars (c :: acc) (escapeLength rest.head? c) rest
      | .error stop => .error stop
    else if b < 0x20 then stopBefore .controlCharacter rest
    else match Utf8.sequence b rest with
      | .char c n => stringChars (c :: acc) n rest
      | .malformed _ => badRun rest
      | .truncated => stopBefore .endInString []

/-- A string after its opening quote. -/
def string (s : Bytes) : Reading String := stringChars [] 0 s

end StreamWorker.Json
