/-! Ids of workers: 128 random bits, of which six are fixed so that the id says how it was made, written
as 32 hexadecimal digits in five groups. -/

namespace StreamWorker.Identity

/-- Where a new group of digits begins. -/
def breaks : List Nat := [8, 12, 16, 20]

/-- The digit at a place of the id: digit 12 is the version, and the two high bits of digit 16 are the
variant. -/
def digit (bits : Nat) (place : Nat) : Nat :=
  let d := bits / Nat.pow 16 (31 - place) % 16
  if place = 12 then 4 else if place = 16 then 8 + d % 4 else d

/-- The id made of the given random bits. -/
def text (bits : Nat) : String :=
  String.ofList ((List.range 32).flatMap fun i =>
    (if i ∈ breaks then ['-'] else []) ++ [Nat.digitChar (digit bits i)])

private def hexDigit (c : Char) : Bool := ('0' ≤ c && c ≤ '9') || ('a' ≤ c && c ≤ 'f')

/-- Whether a text has the form of an id. -/
def wellFormed (s : String) : Bool :=
  let groups := (s.splitOn "-").map String.toList
  let digits := groups.flatten
  groups.map List.length = [8, 4, 4, 4, 12] && digits.all hexDigit
    && digits[12]? = some '4' && (digits[16]?.map ("89ab".toList.contains ·)).getD false

end StreamWorker.Identity
