import StreamWorker.Proofs.Session.Flight
import StreamWorker.Server.Exchange

/-! A worker over a server, one command at a time: the words of each command that it sends, and what a
call has sent and used up when it ends. A caller that gives up gets told so, whatever the call was
waiting for. -/

namespace StreamWorker

namespace Worker

variable (w : Worker)

/-! ### Words -/

/-- Asks, as this member, for one entry that the group was not given yet, and waits for it no longer
than a millisecond. -/
def readCommand : Command :=
  ["XREADGROUP", "GROUP", w.settings.group, w.id, "BLOCK", "1", "COUNT", "1",
    "STREAMS", w.settings.stream, ">"].map Utf8.encode

/-- Stores a result unless there is one, for as long as results are kept. -/
def storeCommand (message result : String) : Command :=
  ["SET", message, result, "NX", "PX", toString (Server.sentMillis w.settings.retention)].map Utf8.encode

def acknowledgeCommand (message : String) : Command :=
  ["XACK", w.settings.stream, w.settings.group, message].map Utf8.encode

theorem command_reading : Server.command (w.operation .reading) = w.readCommand := by
  have hblock : Server.numeral (Server.sentMillis readBlock) = "1" := by decide
  have hcount : Server.numeral (1 : UInt64).toNat = "1" := by decide
  show Server.command (.read ⟨w.settings.stream, w.settings.group, w.id, 1, readBlock⟩) = _
  rw [Server.command]
  simp only [hblock, hcount]
  rfl

theorem command_claiming (message result : String) :
    Server.command (w.operation (.claiming message result)) = w.storeCommand message result := rfl

theorem command_acknowledging (message : String) :
    Server.command (w.operation (.acknowledging message)) = w.acknowledgeCommand message := rfl

/-! ### Calls -/

variable {w} {stage : Stage} {r : Server.Reply} {result : Except Failure Success}

/-- A reply that ends the call: nothing more is sent, and the replies after it are left. -/
theorem converse_of_ended
    (h : (w.react stage (Server.answer (w.operation stage) r)).next = .inr result)
    (rest : List Server.Reply) :
    w.converse stage (r :: rest) =
      { sent := [Server.command (w.operation stage)]
        notes := (w.react stage (Server.answer (w.operation stage) r)).notes
        rest
        outcome := .ended result } := by
  rw [converse]
  simp only [h]

/-- A reply after which the call goes on from another stage. -/
theorem converse_of_next {next : Stage}
    (h : (w.react stage (Server.answer (w.operation stage) r)).next = .inl next)
    (rest : List Server.Reply) :
    w.converse stage (r :: rest) =
      { w.converse next rest with
        sent := Server.command (w.operation stage) :: (w.converse next rest).sent
        notes := (w.react stage (Server.answer (w.operation stage) r)).notes
          ++ (w.converse next rest).notes } := by
  rw [converse]
  simp only [h]
  rfl

end Worker

namespace Exchange

variable {w : Worker}

theorem giveUp_of_ended {e : Exchange Standing} {result : Except Failure Success}
    (h : e.outcome = .ended result) :
    giveUp w e = { e with outcome := result } := by
  rw [giveUp, h]

/-- A caller that gives up is told that the call was cancelled. -/
theorem giveUp_of_waiting {e : Exchange Standing} {stage : Stage} (h : e.outcome = .waiting stage) :
    giveUp w e =
      { e with notes := e.notes ++ (w.cancel stage).notes, outcome := .error .cancelled } := by
  rw [giveUp, h]
  simp only [Worker.cancel_next]

end Exchange

namespace Worker

variable {w : Worker} {clock : Nat} {c : Call} {stage : Stage}

theorem call_of_start (h : w.start clock c = .ok stage) (replies : List Server.Reply) :
    w.call clock false c replies = .ok (Exchange.giveUp w (w.converse stage replies)) := by
  rw [call, h]
  rfl

/-- A caller that has given up before the call begins sends nothing. -/
theorem call_of_cancelled (h : w.start clock c = .ok stage) (replies : List Server.Reply) :
    w.call clock true c replies =
      .ok { notes := (w.cancel stage).notes, outcome := .error .cancelled } := by
  rw [call, h]
  exact congrArg Except.ok (Exchange.giveUp_of_waiting (e := { outcome := .waiting stage }) rfl)

end Worker

end StreamWorker
