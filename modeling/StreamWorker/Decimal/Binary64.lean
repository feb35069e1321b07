/-! Finite binary floating-point numbers of 53 significant bits, as exact integers: a number is
`mantissa * 2 ^ exponent` with a sign. Every operation computes the exact quotient or product and
rounds it once, to the nearest number, ties to an even mantissa. -/

namespace StreamWorker

/-- The absolute value is `mantissa * 2 ^ exponent`. Results of `round` have a mantissa below `2 ^ 53`
and an exponent from -1074 to 971, and a mantissa of full length unless the exponent is -1074. -/
structure Binary64 where
  negative : Bool
  mantissa : Nat
  exponent : Int
  deriving Repr, DecidableEq

namespace Binary64

def zero : Binary64 := ⟨false, 0, -1074⟩

def neg (x : Binary64) : Binary64 := { x with negative := !x.negative }

/-- `num / den / 2 ^ e` as a quotient of integers. -/
private def scaled (num den : Nat) (e : Int) : Nat × Nat :=
  if 0 ≤ e then (num, den * Nat.pow 2 e.toNat) else (num * Nat.pow 2 (-e).toNat, den)

/-- The integer nearest to a quotient, a half going to the even neighbour. -/
def roundDiv (num den : Nat) : Nat :=
  let q := num / den
  let r := num % den
  if 2 * r < den then q
  else if 2 * r = den then (if q % 2 = 0 then q else q + 1)
  else q + 1

/-- The number nearest to `num / den`; none if it is out of range. -/
def round (num den : Nat) : Option Binary64 :=
  if num = 0 then some zero
  else
    let e := max ((num.log2 : Int) - den.log2 - 53) (-1074)
    let low := scaled num den e
    let e := if low.1 / low.2 < Nat.pow 2 53 then e else e + 1
    let q := scaled num den e
    let m := roundDiv q.1 q.2
    let x : Binary64 := if m < Nat.pow 2 53 then ⟨false, m, e⟩ else ⟨false, m / 2, e + 1⟩
    if x.exponent ≤ 971 then some x else none

/-- The absolute value as a quotient of integers. -/
def ratio (x : Binary64) : Nat × Nat := scaled x.mantissa 1 (-x.exponent)

def ofNat (n : Nat) : Option Binary64 := round n 1

/-- The product of the absolute values. -/
def mul (x y : Binary64) : Option Binary64 :=
  round (x.ratio.1 * y.ratio.1) (x.ratio.2 * y.ratio.2)

/-- The quotient of the absolute values. -/
def div (x y : Binary64) : Option Binary64 :=
  round (x.ratio.1 * y.ratio.2) (x.ratio.2 * y.ratio.1)

end Binary64

end StreamWorker
