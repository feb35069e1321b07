import StreamWorker.Breakdown
import StreamWorker.Store.Operation
import StreamWorker.Worker.Basic
import StreamWorker.Worker.Note

/-! What a worker does in a call, one store operation at a time. A call is always at a stage, which is
the operation it asks for next, and reacts to the operation's answer by ending or by going to the next
stage. Cancelling a call is answering its operation with a failure instead. Nothing here depends on
what kind of store performs the operations. -/

namespace StreamWorker

inductive Call where
  /-- Takes the next message. -/
  | consume
  /-- Publishes a result for a message, then acknowledges the message. -/
  | publish (message result : String)
  /-- Shows once that the worker is alive. -/
  | heartbeat
  deriving Repr, DecidableEq

/-- The operation that a call waits for. -/
inductive Stage where
  | reading
  | claiming (message result : String)
  | acknowledging (message : String)
  | beating (value : String) (expiry : Duration)
  deriving Repr, DecidableEq

/-- What a call gives when it succeeds. -/
inductive Success where
  | done
  | empty
  | message (id : String) (payload : Payload)
  deriving Repr

/-- What a call does after an operation: what it reports, and then it ends or asks for another one. -/
structure Reaction where
  notes : List Note := []
  next : Stage ⊕ Except Failure Success

/-! ### Messages -/

/-- The only entry of the answer to a read of one message. -/
def singleEntry : List Batch → Except Failure Entry
  | [⟨_, [entry]⟩] => .ok entry
  | [⟨stream, entries⟩] =>
    .error (.unexpectedReply s!"stream {stream} returned {entries.length} entries")
  | batches =>
    .error (.unexpectedReply
      s!"{batches.length} streams returned: {Text.quotedList (batches.map (·.stream))}")

/-- The payload of an entry, read by `decode`. -/
def Entry.payload {α : Type} (decode : Bytes → Except String α) (e : Entry) : Except Failure α :=
  match e.fields.get? payloadField with
  | none => .error (.missingPayload e.id)
  | some bytes =>
    match decode bytes with
    | .ok v => .ok v
    | .error reason => .error (.undecodable e.id (.other reason))

/-- What the answer to a read means: no message, one message, or a failure. -/
def classify {α : Type} (decode : Bytes → Except String α) :
    Option (List Batch) → Except Failure (Option (String × α))
  | none => .ok none
  | some batches => do
    let entry ← singleEntry batches
    let v ← entry.payload decode
    return some (entry.id, v)

/-- The id that a read delivered, whether or not its payload makes sense. -/
def deliveredId (reply : Option (List Batch)) : Option String :=
  reply.bind fun batches => (singleEntry batches).toOption.map (·.id)

namespace Worker

variable (w : Worker)

/-! ### Operations -/

def readRequest : ReadRequest :=
  ⟨w.settings.stream, w.settings.group, w.id, 1, readBlock⟩

/-- The operation of a stage. -/
@[reducible] def operation : Stage → Operation
  | .reading => .read w.readRequest
  | .claiming message result => .claim message result w.settings.retention
  | .acknowledging message => .acknowledge w.settings.stream w.settings.group message
  | .beating value expiry => .set w.heartbeatKey value expiry

/-- The first stage of a call that begins when the wall clock shows `clock` milliseconds. -/
def start (clock : Nat) : Call → Except Breakdown Stage
  | .consume => .ok .reading
  | .publish message result => .ok (.claiming message result)
  | .heartbeat =>
    match w.settings.expiry? with
    | some expiry => .ok (.beating (toString clock) expiry)
    | none => .error .spanTooLong

/-! ### Reports -/

private def named (name value : String) : String × FieldValue := (name, .text value)

def consumeSpan : String := "pubsub.consume"

def resultSpan : String := "pubsub.set_result"

private def debug (span message : String) (id : String) : Note :=
  .event .debug message [named "consumer" w.id, named "message_id" id] (some span)

private def closeConsume (message : Option String) : Note :=
  .closed consumeSpan ([named "consumer.id" w.id, named "stream" w.settings.stream]
    ++ message.toList.map (named "message.id"))

private def closeResult (message : String) (outcome : Option PublishOutcome) : Note :=
  .closed resultSpan ([named "consumer.id" w.id, named "message.id" message]
    ++ outcome.toList.map fun o => named "outcome" o.label)

/-- What is reported when a call is abandoned at a stage, or breaks there. -/
def abandoned : Stage → List Note
  | .reading => [closeConsume w none]
  | .claiming message _ => [closeResult w message none]
  | .acknowledging message => [closeResult w message none]
  | .beating .. => []

/-! ### Reactions -/

private def readOutcome {α : Type} : Except Failure (Option α) → ReadOutcome
  | .ok (some _) => .message
  | .ok none => .empty
  | .error _ => .error

def consumed : Option (String × Payload) → Success
  | none => .empty
  | some (id, payload) => .message id payload

/-- The end of a read. -/
def finishRead (reply : Except Failure (Option (List Batch))) : Reaction :=
  let delivered := reply.toOption.bind deliveredId
  let outcome := match reply with
    | .ok reply => classify (Payload.decode w.kind) reply
    | .error f => .error (f.within (.read w.id))
  { notes := delivered.toList.map (debug w consumeSpan "consuming message")
      ++ [.count (.read w.settings.stream (readOutcome outcome)), closeConsume w delivered]
    next := .inr (outcome.map consumed) }

private def publishOutcome : Except Failure Success → PublishOutcome
  | .ok _ => .ok
  | .error (.resultExists _) => .duplicate
  | .error _ => .error

/-- The end of a publication. -/
def finishPublish (message : String) (outcome : Except Failure Success) : Reaction :=
  { notes := [.count (.result w.settings.stream (publishOutcome outcome)),
      closeResult w message (some (publishOutcome outcome))]
    next := .inr outcome }

/-- After the attempt to create the result: only whoever created it goes on to acknowledge. -/
def afterClaim (message : String) : Except Failure Bool → Reaction
  | .ok true => { next := .inl (.acknowledging message) }
  | .ok false =>
    let r := finishPublish w message (.error (.resultExists message))
    { r with
      notes := debug w resultSpan "result already set, leaving message pending" message :: r.notes }
  | .error f => finishPublish w message (.error (f.within (.unpublished message)))

/-- After the acknowledgment, which counts whatever its answer is. -/
def afterAcknowledge (message : String) (answer : Except Failure UInt64) : Reaction :=
  let counted := Note.count (.acknowledgment w.settings.stream answer.isOk)
  match answer with
  | .ok n =>
    let r := finishPublish w message (.ok .done)
    let missed := if n = 0 then [debug w resultSpan "message was not pending at ack" message] else []
    { r with notes := counted :: missed ++ r.notes }
  | .error f =>
    let r := finishPublish w message (.error (f.within (.unacknowledged message)))
    { r with notes := counted :: r.notes }

/-- What the call does when the operation of its stage has ended. -/
def react : (s : Stage) → Except Failure (w.operation s).Answer → Reaction
  | .reading, answer => w.finishRead answer
  | .claiming message _, answer => w.afterClaim message answer
  | .acknowledging message, answer => w.afterAcknowledge message answer
  | .beating .., answer => { next := .inr (answer.map fun _ => .done) }

/-- What the call does when its caller gives up. -/
def cancel (s : Stage) : Reaction := w.react s (.error .cancelled)

end Worker

end StreamWorker
