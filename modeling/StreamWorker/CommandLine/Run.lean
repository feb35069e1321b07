import StreamWorker.CommandLine.Program

/-! Whole runs of the program against a server whose replies are known. When there are no more replies,
the program waits until it is interrupted. -/

namespace StreamWorker.CommandLine

/-- What a run sends and how it ends; one that cannot be interrupted has no end. `worked` tells whether
it came to work on messages, and so to show that its worker is alive. -/
structure Run where
  sent : List Command := []
  worked : Bool := false
  report : Option Report

def works : Activity → Bool
  | .working .. => true
  | _ => false

def ended : Progress → Option Report
  | .ends r => some r
  | _ => none

/-- The run from an activity on. -/
def runFrom (a : Activity) : List Server.Reply → Run
  | [] =>
    { sent := [Server.command a.operation], worked := works a, report := ended a.interrupt.progress }
  | r :: replies =>
    let later : Run := match (a.next r).progress with
      | .ends report => { report := some report }
      | .waits next | .pauses _ next => runFrom next replies
    { later with sent := Server.command a.operation :: later.sent, worked := works a || later.worked }

/-- A report with complaints printed before it. -/
def Report.complaining (r : Report) (complaints : List String) : Report :=
  { r with err := String.join (complaints.map (· ++ "\n")) ++ r.err }

/-- A whole run from its beginning, with the server's replies to its commands. -/
def run (b : Beginning) (replies : List Server.Reply) : Run :=
  let r : Run := match b.start with
    | .done report => { report := some report }
    | .connects _ first => runFrom first replies
  { r with report := r.report.map (·.complaining b.complaints) }

end StreamWorker.CommandLine
