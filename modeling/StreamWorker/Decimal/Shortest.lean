import StreamWorker.Decimal.Binary64

/-! The shortest decimal that reads back as a given binary floating-point number, and of those the
nearest. A decimal reads back if it lies between the two midpoints to the neighbouring numbers; the
midpoints count when the mantissa is even. For one digit, two digits and so on, the two multiples of
the grid step that enclose the number are tried, and the first grid with a hit has the answer. -/

namespace StreamWorker.Decimal

/-- `digits * 10 ^ power`. -/
structure Figure where
  digits : Nat
  power : Int
  deriving Repr, DecidableEq

/-- The reals that round to a number, as integers over one denominator: the number itself, both
midpoints, and whether the midpoints belong. -/
private structure Interval where
  low : Nat
  value : Nat
  high : Nat
  den : Nat
  closed : Bool

private def interval (m : Nat) (e : Int) : Interval :=
  let up := if 2 ≤ e then Nat.pow 2 (e - 2).toNat else 1
  let low := if m = Nat.pow 2 52 ∧ -1074 < e then 4 * m - 1 else 4 * m - 2
  ⟨low * up, 4 * m * up, (4 * m + 2) * up, if e < 2 then Nat.pow 2 (2 - e).toNat else 1, m % 2 = 0⟩

/-- Whether `c * 10 ^ p` is less than `n / den`. -/
private def below (c : Nat) (p : Int) (n den : Nat) : Bool :=
  if 0 ≤ p then c * Nat.pow 10 p.toNat * den < n else c * den < n * Nat.pow 10 (-p).toNat

/-- Whether `n / den` is less than `c * 10 ^ p`. -/
private def above (c : Nat) (p : Int) (n den : Nat) : Bool :=
  if 0 ≤ p then n < c * Nat.pow 10 p.toNat * den else n * Nat.pow 10 (-p).toNat < c * den

private def Interval.holds (i : Interval) (c : Nat) (p : Int) : Bool :=
  if i.closed then !below c p i.low i.den && !above c p i.high i.den
  else above c p i.low i.den && below c p i.high i.den

/-- The multiple of `10 ^ p` just below the number. -/
private def Interval.floor (i : Interval) (p : Int) : Nat :=
  if 0 ≤ p then i.value / (i.den * Nat.pow 10 p.toNat) else i.value * Nat.pow 10 (-p).toNat / i.den

/-- The upper of two enclosing multiples is chosen when it is nearer, or equally near and even. -/
private def Interval.prefersUpper (i : Interval) (c : Nat) (p : Int) : Bool :=
  if below (2 * c + 1) p (2 * i.value) i.den then true
  else if above (2 * c + 1) p (2 * i.value) i.den then false
  else c % 2 = 1

private def Interval.hit? (i : Interval) (p : Int) : Option Nat :=
  let c := i.floor p
  match i.holds c p, i.holds (c + 1) p with
  | true, true => some (if i.prefersUpper c p then c + 1 else c)
  | true, false => some c
  | false, true => some (c + 1)
  | false, false => none

/-- Tries grids of step `10 ^ p` and finer. -/
private def Interval.search (i : Interval) : Nat → Int → Figure
  | 0, p => ⟨i.floor p, p⟩
  | n + 1, p =>
    match i.hit? p with
    | some c => ⟨c, p⟩
    | none => i.search n (p - 1)

/-- The number of digits before the decimal point of `value / den`, none or negative below one. -/
private def Interval.places (i : Interval) : Int :=
  let estimate := ((i.value.log2 : Int) - i.den.log2) * 30103 / 100000
  let candidates := [estimate - 1, estimate, estimate + 1]
  (candidates.find? (fun k => above 1 k i.value i.den)).getD (estimate + 2)

private def stripZeros : Nat → Figure → Figure
  | 0, f => f
  | n + 1, f =>
    if f.digits ≠ 0 ∧ f.digits % 10 = 0 then stripZeros n ⟨f.digits / 10, f.power + 1⟩ else f

/-- The shortest decimal that reads back as `m * 2 ^ e`, for a positive `m`. -/
def shortest (m : Nat) (e : Int) : Figure :=
  let i := interval m e
  stripZeros 20 (i.search 17 (i.places - 1))

end StreamWorker.Decimal
