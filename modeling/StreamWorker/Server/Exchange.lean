import StreamWorker.Server.Command
import StreamWorker.Worker.Call

/-! Calls of a worker whose store is a server. Every operation is one command, and the call goes on when
the reply has come; a call whose reply does not come waits, until its caller gives up. -/

namespace StreamWorker

/-- A part of a conversation with a server: what was sent, what was reported, the replies that were not
used up, and how it came out. -/
structure Exchange (α : Type) where
  sent : List Command := []
  notes : List Note := []
  rest : List Server.Reply := []
  outcome : α

/-- Where a call stands when there are no more replies. -/
inductive Standing where
  | ended (result : Except Failure Success)
  | waiting (stage : Stage)

namespace Worker

variable (w : Worker)

/-- A call from a stage on, with the replies that the server gives to its commands. -/
def converse (stage : Stage) : List Server.Reply → Exchange Standing
  | [] => { sent := [Server.command (w.operation stage)], outcome := .waiting stage }
  | r :: rest =>
    let reaction := w.react stage (Server.answer (w.operation stage) r)
    let sent := [Server.command (w.operation stage)]
    match reaction.next with
    | .inr result => { sent, notes := reaction.notes, rest, outcome := .ended result }
    | .inl next =>
      let later := converse next rest
      { later with sent := sent ++ later.sent, notes := reaction.notes ++ later.notes }

end Worker

namespace Exchange

/-- Gives up: a call that waits ends as cancelled, and nothing more is sent. -/
def giveUp (w : Worker) (e : Exchange Standing) : Exchange (Except Failure Success) :=
  match e.outcome with
  | .ended result => { e with outcome := result }
  | .waiting stage =>
    let reaction := w.cancel stage
    { e with
      notes := e.notes ++ reaction.notes
      outcome := match reaction.next with
        | .inr result => result
        | .inl _ => .error .cancelled }

end Exchange

/-- A whole call that begins when the wall clock shows `clock` milliseconds. A caller that has given up
before it begins, or whose replies run out, gets what giving up there leads to. -/
def Worker.call (w : Worker) (clock : Nat) (cancelled : Bool) (c : Call)
    (replies : List Server.Reply) : Except Breakdown (Exchange (Except Failure Success)) :=
  (w.start clock c).map fun stage =>
    Exchange.giveUp w
      (if cancelled then { outcome := .waiting stage } else w.converse stage replies)

namespace Server

/-- One operation, with the replies that the server gives. Nothing comes of it without a reply. -/
def request (op : Operation) : List Reply → Exchange (Option (Except Failure op.Answer))
  | [] => { sent := [command op], outcome := none }
  | r :: rest => { sent := [command op], rest, outcome := some (answer op r) }

end Server

end StreamWorker
