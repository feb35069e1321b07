import StreamWorker.Time.Duration

/-! Points in time, which are numbers of nanoseconds since the beginning of a session. They are read from a
clock that never goes back and that may have run for long before. It ends after `2 ^ 63` seconds; an
expiry beyond its end cannot be compared with anything. -/

namespace StreamWorker

/-- The clocks of a machine when a session begins. -/
structure Clock where
  /-- What the wall clock shows, in milliseconds. -/
  shown : Nat
  /-- How long the clock that never goes back has run, in nanoseconds. -/
  uptime : Nat := 0
  deriving Repr, DecidableEq

namespace Instant

/-- How many nanoseconds a clock can count. -/
def range : Nat := UInt64.size / 2 * 1_000_000_000

/-- The end of a span that begins at an instant, if it is before the end of the clock. -/
def after? (limit t : Nat) (d : Duration) : Option Nat :=
  if t + d.nanos < limit then some (t + d.nanos) else none

/-- One millisecond. -/
def milli : Nat := 1_000_000

/-- The first whole millisecond that is not before the instant: timers fire only then. -/
def ceilMilli (t : Nat) : Nat := (t + (milli - 1)) / milli * milli

theorem le_ceilMilli (t : Nat) : t ≤ ceilMilli t := by
  simp only [ceilMilli, milli]; omega

theorem ceilMilli_mono {s t : Nat} (h : s ≤ t) : ceilMilli s ≤ ceilMilli t := by
  simp only [ceilMilli, milli]; omega

end Instant

/-- The first instant of the session that is past the end of the clock. -/
def Clock.limit (c : Clock) : Nat := Instant.range - c.uptime

end StreamWorker
