/-! Counts read from decimal text. A count has an optional `+` and then digits only, and fits 64 bits.
The first fault met from the left is the one reported. -/

namespace StreamWorker.Numeral

inductive Fault where
  | empty
  | notADigit
  | tooLarge
  deriving Repr, DecidableEq

def Fault.message : Fault → String
  | .empty => "cannot parse integer from empty string"
  | .notADigit => "invalid digit found in string"
  | .tooLarge => "number too large to fit in target type"

def digit? (c : Char) : Option Nat :=
  if '0' ≤ c ∧ c ≤ '9' then some (c.toNat - '0'.toNat) else none

/-- Appends the digits to the number read so far, and stops at the first character that is no digit
or makes the number too large. -/
def readDigits (bound : Nat) : Nat → List Char → Except Fault Nat
  | n, [] => .ok n
  | n, c :: cs =>
    match digit? c with
    | none => .error .notADigit
    | some d => if n * 10 + d < bound then readDigits bound (n * 10 + d) cs else .error .tooLarge

/-- The number that the text spells, below `bound`. -/
def readBelow (bound : Nat) (s : String) : Except Fault Nat :=
  match s.toList with
  | [] => .error .empty
  | ['+'] => .error .notADigit
  | '+' :: cs => readDigits bound 0 cs
  | cs => readDigits bound 0 cs

/-- The count that the text spells. -/
def read (s : String) : Except Fault UInt64 :=
  (readBelow UInt64.size s).map UInt64.ofNat

end StreamWorker.Numeral
