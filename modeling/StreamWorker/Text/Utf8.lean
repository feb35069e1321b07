/-! UTF-8 read from and written to lists of bytes. Reading stops at the first byte that cannot belong
to a character and says how many characters' worth of bytes came before it, and whether the sequence
found there is malformed or only cut short by the end of the text. -/

namespace StreamWorker

/-- Raw octets, as payloads and commands carry them. -/
abbrev Bytes := List UInt8

namespace Utf8

/-- The bytes of a text. -/
def encode (s : String) : Bytes := s.toList.flatMap String.utf8EncodeChar

/-- What begins at some byte: a character with a number of continuation bytes, a malformed sequence
whose first `length` bytes cannot be the beginning of a character, or the beginning of a character
that the end of the text cuts off. -/
inductive Sequence where
  | char (c : Char) (continuation : Nat)
  | malformed (length : Nat)
  | truncated
  deriving Repr, DecidableEq

def tail (b : UInt8) : Bool := 0x80 ≤ b && b ≤ 0xBF

def bits (b : UInt8) : Nat := b.toNat % 64

/-- The least and the greatest byte allowed after the lead byte of a character of three or four
bytes. The narrower ranges keep out overlong forms, surrogates and values above U+10FFFF. -/
def secondRange (lead : UInt8) : UInt8 × UInt8 :=
  if lead = 0xE0 then (0xA0, 0xBF)
  else if lead = 0xED then (0x80, 0x9F)
  else if lead = 0xF0 then (0x90, 0xBF)
  else if lead = 0xF4 then (0x80, 0x8F)
  else (0x80, 0xBF)

def second (lead b : UInt8) : Bool :=
  (secondRange lead).1 ≤ b && b ≤ (secondRange lead).2

/-- The sequence that begins with `lead` and goes on with `rest`. -/
def sequence (lead : UInt8) (rest : Bytes) : Sequence :=
  if lead < 0x80 then .char (Char.ofNat lead.toNat) 0
  else if lead < 0xC2 then .malformed 1
  else if lead < 0xE0 then
    match rest with
    | [] => .truncated
    | b :: _ =>
      if tail b then .char (Char.ofNat (lead.toNat % 32 * 64 + bits b)) 1 else .malformed 1
  else if lead < 0xF0 then
    match rest with
    | [] => .truncated
    | b :: rest =>
      if second lead b then
        match rest with
        | [] => .truncated
        | c :: _ =>
          if tail c then .char (Char.ofNat (lead.toNat % 16 * 4096 + bits b * 64 + bits c)) 2
          else .malformed 2
      else .malformed 1
  else if lead < 0xF5 then
    match rest with
    | [] => .truncated
    | b :: rest =>
      if second lead b then
        match rest with
        | [] => .truncated
        | c :: rest =>
          if tail c then
            match rest with
            | [] => .truncated
            | d :: _ =>
              if tail d then
                .char (Char.ofNat
                  (lead.toNat % 8 * 262144 + bits b * 4096 + bits c * 64 + bits d)) 3
              else .malformed 3
          else .malformed 2
      else .malformed 1
  else .malformed 1

/-- Where a text stops being UTF-8: after `validUpTo` good bytes, with a malformed sequence of
`length` bytes, or with one that only the end of the text cuts off. -/
structure Fault where
  validUpTo : Nat
  length : Option Nat
  deriving Repr, DecidableEq

def Fault.message (f : Fault) : String :=
  match f.length with
  | some n => s!"invalid utf-8 sequence of {n} bytes from index {f.validUpTo}"
  | none => s!"incomplete utf-8 byte sequence from index {f.validUpTo}"

/-- Reads on at offset `pos`, with `skip` bytes left of the character read last. -/
def decodeFrom (pos : Nat) : Nat → List Char → Bytes → Except Fault (List Char)
  | _, acc, [] => .ok acc.reverse
  | skip + 1, acc, _ :: rest => decodeFrom (pos + 1) skip acc rest
  | 0, acc, b :: rest =>
    match sequence b rest with
    | .char c n => decodeFrom (pos + 1) n (c :: acc) rest
    | .malformed n => .error ⟨pos, some n⟩
    | .truncated => .error ⟨pos, none⟩

/-- The text that the bytes spell. -/
def decode (bytes : Bytes) : Except Fault String :=
  (decodeFrom 0 0 [] bytes).map String.ofList

def decode? (bytes : Bytes) : Option String := (decode bytes).toOption

/-- Reads on with `skip` bytes left of what was read last. -/
private def mendFrom : Nat → List Char → Bytes → List Char
  | _, acc, [] => acc.reverse
  | skip + 1, acc, _ :: rest => mendFrom skip acc rest
  | 0, acc, b :: rest =>
    match sequence b rest with
    | .char c n => mendFrom n (c :: acc) rest
    | .malformed n => mendFrom (n - 1) ('\uFFFD' :: acc) rest
    | .truncated => ('\uFFFD' :: acc).reverse

/-- The text that the bytes spell, with a replacement character for each malformed sequence. -/
def mend (bytes : Bytes) : String := String.ofList (mendFrom 0 [] bytes)

end Utf8

end StreamWorker
