import StreamWorker.Decimal.Shortest

/-! The decimal text of a rounded number: the fewest digits that read back, positional when the first
digit stands for a power of ten from -5 to 15, with an exponent otherwise. -/

namespace StreamWorker.Json

private def decimals (n : Nat) : List Char := Nat.toDigits 10 n

private def zeros (n : Nat) : List Char := List.replicate n '0'

/-- `digits` with the point `places` digits after the start. -/
private def positional (digits : List Char) (places : Int) : List Char :=
  if places ≤ 0 then '0' :: '.' :: (zeros (-places).toNat ++ digits)
  else
    let n := places.toNat
    if digits.length ≤ n then digits ++ zeros (n - digits.length) ++ ['.', '0']
    else digits.take n ++ '.' :: digits.drop n

private def exponential (digits : List Char) (power : Int) : List Char :=
  let fraction := match digits.drop 1 with
    | [] => []
    | ds => '.' :: ds
  digits.take 1 ++ fraction ++ 'e' :: (if power < 0 then '-' else '+') :: decimals power.natAbs

/-- A decimal figure as JSON shows it. -/
def figure (f : Decimal.Figure) : List Char :=
  let digits := decimals f.digits
  let leading : Int := f.power + digits.length - 1
  if -5 ≤ leading ∧ leading < 16 then positional digits (leading + 1)
  else exponential digits leading

/-- A rounded number as JSON shows it; a zero keeps its sign. -/
def realText (x : Binary64) : List Char :=
  let size := if x.mantissa = 0 then ['0', '.', '0']
    else figure (Decimal.shortest x.mantissa x.exponent)
  if x.negative then '-' :: size else size

end StreamWorker.Json
