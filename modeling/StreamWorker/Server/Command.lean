import StreamWorker.Failure
import StreamWorker.Server.Reply
import StreamWorker.Store.Operation

/-! The operations of a store as commands to a server, and what the server's reply to each command
answers. Spans of time are sent in whole milliseconds, and never as zero, which the server would refuse
as an expiry and would take for no limit at all on a read. -/

namespace StreamWorker

/-- The words of a command. -/
abbrev Command := List Bytes

namespace Server

/-- A span in whole milliseconds as it is sent, of which 64 bits are kept. -/
def sentMillis (d : Duration) : Nat := max (d.millis % UInt64.size) 1

def word (s : String) : Bytes := Utf8.encode s

/-- A command of texts. -/
def words (l : List String) : Command := l.map word

def numeral (n : Nat) : String := toString n

/-- The command that asks a server for a sign of life. -/
def ping : Command := words ["PING"]

/-- Makes sense of the server's reply to `ping`. -/
def pong (r : Reply) : Except Failure Unit :=
  match r.accepted >>= Reply.text with
  | .ok _ => .ok ()
  | .error fault => .error (.server fault.message)

/-- The command by which a server performs an operation. -/
def command : Operation → Command
  | .set key value ttl => words ["PSETEX", key, numeral (sentMillis ttl), value]
  | .claim key value ttl => words ["SET", key, value, "NX", "PX", numeral (sentMillis ttl)]
  | .get key => words ["GET", key]
  | .read r =>
    words ["XREADGROUP", "GROUP", r.group, r.member, "BLOCK", numeral (sentMillis r.block),
      "COUNT", numeral r.count.toNat, "STREAMS", r.stream, newEntriesOnly]
  | .acknowledge stream group id => words ["XACK", stream, group, id]
  | .createGroup stream group => words ["XGROUP", "CREATE", stream, group, "$", "MKSTREAM"]
  | .append stream fields =>
    words ["XADD", stream, "*"] ++ fields.flatMap fun f => [word f.1, f.2]

/-! ### Entries -/

/-- An entry whose fields are not yet read as bytes. -/
abbrev RawEntry := String × Table String Reply

def rawBatches (r : Reply) : Except Fault (List (String × List RawEntry)) :=
  let entry := Reply.table (Reply.table .ok)
  let stream := Reply.table fun r => (Reply.list entry r).map fun ids => ids.flatMap Table.entries
  (Reply.list stream r).map fun rows => rows.flatMap Table.entries

def fieldBytes (id : String) (f : String × Reply) : Except Failure (String × Bytes) :=
  match f.2.bytes with
  | .ok b => .ok (f.1, b)
  | .error fault =>
    .error (.unexpectedReply
      s!"field {Text.quoted f.1} of entry {id} is not a string: {fault.message}")

def entry (e : RawEntry) : Except Failure Entry :=
  (e.2.entries.mapM (fieldBytes e.1)).map fun fields => ⟨e.1, ⟨fields⟩⟩

def batch (b : String × List RawEntry) : Except Failure Batch :=
  (b.2.mapM entry).map fun entries => ⟨b.1, entries⟩

/-- The reply to a read: nothing, or rows of a stream and its entries, each of an id and its fields. -/
def batches (r : Reply) : Except Failure (Option (List Batch)) :=
  match r.optional rawBatches with
  | .error fault => .error (.server fault.message)
  | .ok none => .ok none
  | .ok (some rows) => (rows.mapM batch).map some

/-! ### Answers -/

/-- The code by which a server says that a group is already there. -/
def groupExists : String := "BUSYGROUP"

def readAs {α : Type} (read : Reply → Except Fault α) (r : Reply) : Except Failure α :=
  match read r with
  | .ok v => .ok v
  | .error fault => .error (.server fault.message)

/-- What an accepted reply answers to an operation. -/
def meaning : (op : Operation) → Reply → Except Failure op.Answer
  | .set .., _ => .ok ()
  | .claim .., r => readAs (fun r => (r.optional Reply.text).map Option.isSome) r
  | .get _, r => readAs (Reply.optional Reply.text) r
  | .read _, r => batches r
  | .acknowledge .., r => readAs Reply.count r
  | .createGroup .., _ => .ok ()
  | .append .., r => readAs Reply.text r

/-- Whether an operation takes a refusal for success: a group to be made may be there already. -/
def harmless : (op : Operation) → Refusal → Option op.Answer
  | .createGroup .., refusal => if refusal.code = groupExists then some () else none
  | _, _ => none

/-- What the server's reply answers to an operation. -/
def answer (op : Operation) (r : Reply) : Except Failure op.Answer :=
  match r.refusal? with
  | none => meaning op r
  | some refusal =>
    match harmless op refusal with
    | some a => .ok a
    | none => .error (.server refusal.message)

end Server

end StreamWorker
