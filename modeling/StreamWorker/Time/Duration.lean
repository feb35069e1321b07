/-! Spans of time, counted in nanoseconds. A span has at most `2 ^ 64 - 1` whole seconds and a fraction
of a second; an operation that would leave this range has no result. -/

namespace StreamWorker

/-- The number of nanoseconds past which there is no span. -/
def Duration.limit : Nat := UInt64.size * 1_000_000_000

structure Duration where
  nanos : Nat
  inRange : nanos < Duration.limit
  deriving Repr, DecidableEq

namespace Duration

def ofNanos? (n : Nat) : Option Duration :=
  if h : n < limit then some ⟨n, h⟩ else none

def ofSeconds (n : UInt64) : Duration :=
  ⟨n.toNat * 1_000_000_000, by have := n.toNat_lt_size; simp only [limit]; omega⟩

def ofMillis (n : UInt64) : Duration :=
  ⟨n.toNat * 1_000_000, by have := n.toNat_lt_size; simp only [limit]; omega⟩

/-- A tenth of the span, rounded down to a nanosecond. -/
def tenth (d : Duration) : Duration :=
  ⟨d.nanos / 10, by have := d.inRange; simp only [limit] at *; omega⟩

/-- Twice the span, if there is such a span. -/
def double? (d : Duration) : Option Duration := ofNanos? (d.nanos * 2)

/-- Whole milliseconds. -/
def millis (d : Duration) : Nat := d.nanos / 1_000_000

/-- Digits after a decimal point: `n` parts of `10 ^ width`, without zeros at the end. -/
private def fraction (n width : Nat) : String :=
  let digits := Nat.toDigits 10 (Nat.pow 10 width + n)
  let kept := (digits.drop 1).reverse.dropWhile (· = '0')
  if kept.isEmpty then "" else "." ++ String.ofList kept.reverse

/-- The span in the largest unit that it fills, with the exact fraction. -/
def text (d : Duration) : String :=
  let n := d.nanos
  if 1_000_000_000 ≤ n then toString (n / 1_000_000_000) ++ fraction (n % 1_000_000_000) 9 ++ "s"
  else if 1_000_000 ≤ n then toString (n / 1_000_000) ++ fraction (n % 1_000_000) 6 ++ "ms"
  else if 1_000 ≤ n then toString (n / 1_000) ++ fraction (n % 1_000) 3 ++ "µs"
  else toString n ++ "ns"

end Duration

end StreamWorker
