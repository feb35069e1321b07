import StreamWorker.Failure
import StreamWorker.Table
import StreamWorker.Text.Utf8
import StreamWorker.Time.Duration

/-! What workers and producers ask of a store, and what it answers. Each operation is atomic: between
its beginning and its end no other operation of any process takes effect. -/

namespace StreamWorker

/-- The field of an entry that holds the payload. -/
def payloadField : String := "msg"

/-- The id that selects the entries no member of the group has been given yet. -/
def newEntriesOnly : String := ">"

structure Entry where
  id : String
  fields : Table String Bytes
  deriving Repr, DecidableEq

/-- The entries that one stream contributes to the answer to a read. -/
structure Batch where
  stream : String
  entries : List Entry
  deriving Repr, DecidableEq

/-- A read on behalf of one member of a group. -/
structure ReadRequest where
  stream : String
  group : String
  member : String
  count : UInt64
  block : Duration
  deriving Repr, DecidableEq

inductive Operation where
  /-- Writes a key, whatever it held, to expire after a time. -/
  | set (key value : String) (ttl : Duration)
  /-- Writes a key only if it is not there. -/
  | claim (key value : String) (ttl : Duration)
  | get (key : String)
  /-- Takes entries that no member of the group was given yet. -/
  | read (request : ReadRequest)
  /-- Tells the group that an entry is done with. -/
  | acknowledge (stream group id : String)
  /-- Makes a group, and its stream if need be, that starts at the stream's end. -/
  | createGroup (stream group : String)
  | append (stream : String) (fields : List (String × Bytes))
  deriving Repr, DecidableEq

/-- What an operation answers: for a claim whether it wrote, for a read nothing or the entries by
stream, for an acknowledgment how many entries were pending, for an addition the new id. -/
@[reducible] def Operation.Answer : Operation → Type
  | .set .. => Unit
  | .claim .. => Bool
  | .get _ => Option String
  | .read _ => Option (List Batch)
  | .acknowledge .. => UInt64
  | .createGroup .. => Unit
  | .append .. => String

end StreamWorker
