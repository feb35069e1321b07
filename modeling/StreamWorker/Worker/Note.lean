import StreamWorker.Table

/-! What a worker reports about itself while it runs: records of events, spans around its calls, which
are reported when they close, and counts by name and label. -/

namespace StreamWorker

inductive Level where
  | error
  | warn
  | info
  | debug
  | trace
  deriving Repr, DecidableEq

def Level.text : Level → String
  | .error => "ERROR"
  | .warn => "WARN"
  | .info => "INFO"
  | .debug => "DEBUG"
  | .trace => "TRACE"

inductive FieldValue where
  | text (s : String)
  | number (n : Nat)
  deriving Repr, DecidableEq

abbrev Fields := List (String × FieldValue)

/-- How a read ended. -/
inductive ReadOutcome where
  | message
  | empty
  | error
  deriving Repr, DecidableEq

/-- How a publication ended. -/
inductive PublishOutcome where
  | ok
  | duplicate
  | error
  deriving Repr, DecidableEq

def ReadOutcome.label : ReadOutcome → String
  | .message => "message"
  | .empty => "empty"
  | .error => "error"

def PublishOutcome.label : PublishOutcome → String
  | .ok => "ok"
  | .duplicate => "duplicate"
  | .error => "error"

/-- What is counted, with its labels. -/
inductive Tally where
  | heartbeat (ok : Bool)
  | read (stream : String) (outcome : ReadOutcome)
  | result (stream : String) (outcome : PublishOutcome)
  | acknowledgment (stream : String) (ok : Bool)
  deriving Repr, DecidableEq

namespace Tally

private def okLabel (ok : Bool) : String := if ok then "ok" else "error"

def counter : Tally → String
  | .heartbeat _ => "pubsub.consumer.heartbeats"
  | .read .. => "pubsub.consumer.reads"
  | .result .. => "pubsub.consumer.results"
  | .acknowledgment .. => "pubsub.consumer.acks"

/-- The labels, in order. -/
def labels : Tally → List String
  | .heartbeat ok => ["result=" ++ okLabel ok]
  | .read stream o => ["result=" ++ o.label, "stream=" ++ stream]
  | .result stream o => ["result=" ++ o.label, "stream=" ++ stream]
  | .acknowledgment stream ok => ["result=" ++ okLabel ok, "stream=" ++ stream]

end Tally

inductive Note where
  | event (level : Level) (message : String) (fields : Fields) (span : Option String)
  /-- The end of a span, with the fields that were recorded on it. -/
  | closed (span : String) (fields : Fields)
  | count (t : Tally)
  deriving Repr, DecidableEq

/-- The sums counted so far. -/
abbrev Ledger := Table Tally Nat

namespace Ledger

def sum (l : Ledger) (t : Tally) : Nat := l.getD t 0

def add (l : Ledger) (t : Tally) : Ledger := l.insert t (l.sum t + 1)

theorem sum_add (l : Ledger) (t u : Tally) :
    (l.add t).sum u = if t = u then l.sum u + 1 else l.sum u := by
  by_cases h : t = u
  · subst h; simp [add, sum, Table.getD]
  · simp [add, sum, Table.getD, Table.get?_insert, h]

private def before (a b : String × List String × Nat) : Bool :=
  if a.1 = b.1 then ¬ b.2.1 < a.2.1 else a.1 ≤ b.1

/-- Every count with its labels and its sum, in order. -/
def lines (l : Ledger) : List (String × List String × Nat) :=
  (l.entries.map fun e => (e.1.counter, e.1.labels, e.2)).mergeSort before

end Ledger

end StreamWorker
