/-! Arithmetic that has no result. The call that needs one breaks off, and the store and everyone else
go on. -/

namespace StreamWorker

inductive Breakdown where
  /-- A multiple of a span is longer than every span. -/
  | spanTooLong
  /-- A span added to an instant leads past the end of the clock. -/
  | beyondClock
  /-- A place in a stream and a number of entries have no sum in 64 bits. -/
  | beyondCount
  deriving Repr, DecidableEq

def Breakdown.message : Breakdown → String
  | .spanTooLong => "overflow when multiplying duration by scalar"
  | .beyondClock => "overflow when adding duration to instant"
  | .beyondCount => "attempt to add with overflow"

end StreamWorker
