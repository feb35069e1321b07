import StreamWorker.CommandLine.Arguments
import StreamWorker.Server.Connection
import StreamWorker.Server.Command
import StreamWorker.Settings.EnvFile
import StreamWorker.Telemetry.Setup
import StreamWorker.Worker.Call

/-! The program: it works on messages, appends one, or shows a result. It is at an activity that waits
for the server's reply to one command, and every reply leads to the next activity, to a pause, or to the
end. Work on messages goes on until it is interrupted; whatever else fails ends the program. -/

namespace StreamWorker.CommandLine

/-- What the program shows when it ends. -/
structure Report where
  exit : Nat
  out : String := ""
  err : String := ""
  deriving Repr, DecidableEq

/-! ### Reports -/

/-- A text with every line indented after the first one, and an indent in front. -/
private def indented (first later : String) (s : String) : String :=
  first ++ ("\n" ++ later).intercalate (s.splitOn "\n")

private def numbered (n : Nat) (s : String) : String :=
  let label := toString n
  indented (String.ofList (List.replicate (5 - label.length) ' ') ++ label ++ ": ") "       " s

private def causes : List String → String
  | [] => ""
  | [c] => "\n\nCaused by:\n" ++ indented "    " "    " c
  | cs => "\n\nCaused by:" ++ String.join (cs.mapIdx fun n c => "\n" ++ numbered n c)

/-- The end of a program that failed: the failure and its causes. -/
def failed (f : Failure) : Report where
  exit := 1
  err := "Error: " ++ f.text ++ causes f.chain ++ "\n"

/-- The end of a program that has a line to show. -/
def shown (line : String) : Report where
  exit := 0
  out := line ++ "\n"

/-! ### Activities -/

/-- What is done once the group is there. -/
inductive Purpose where
  | append (payload : Bytes)
  /-- Works as the member of that id, with a pause of so many milliseconds. -/
  | serve (id : String) (idle : UInt64)
  deriving Repr, DecidableEq

inductive Activity where
  /-- Makes sure that the group is there. -/
  | grouping (settings : Settings) (purpose : Purpose)
  | appending (settings : Settings) (payload : Bytes)
  | looking (id : String)
  /-- Takes the next message, or publishes the result of one. -/
  | working (worker : Worker) (idle : UInt64) (stage : Stage)
  deriving DecidableEq

inductive Progress where
  | waits (a : Activity)
  /-- Pauses for some milliseconds and goes on. -/
  | pauses (idle : UInt64) (a : Activity)
  | ends (r : Report)
  deriving DecidableEq

/-- What the program reports about itself at some point, and how it goes on from there. -/
structure Turn where
  notes : List Note := []
  progress : Progress

/-- The operation whose answer an activity waits for. -/
@[reducible] def Activity.operation : Activity → Operation
  | .grouping s _ => .createGroup s.stream s.group
  | .appending s payload => .append s.stream [(payloadField, payload)]
  | .looking id => .get id
  | .working w _ stage => w.operation stage

/-! ### Work -/

private def say (level : Level) (message : String) (fields : List (String × String)) : Note :=
  .event level message (fields.map fun f => (f.1, .text f.2)) none

/-- Work begins with a read. The settings were checked when they were read. -/
def beginWork (s : Settings) (id : String) (idle : UInt64) : Turn :=
  match Worker.create id s .document with
  | .ok w =>
    { notes := [say .info "consumer started"
        [("consumer", w.id), ("stream", s.stream), ("group", s.group)]]
      progress := .waits (.working w idle .reading) }
  | .error fault => { progress := .ends (failed (.ofSettings fault)) }

def endWork (w : Worker) : Turn where
  notes := [say .info "consumer stopped" [("consumer", w.id)]]
  progress := .ends { exit := 0 }

/-- A message is followed by the publication of its own text as its result. After any other read there
is a pause. -/
def afterRead (w : Worker) (idle : UInt64) : Except Failure Success → Turn
  | .ok (.message id (.document v)) => { progress := .waits (.working w idle (.claiming id v.render)) }
  | .ok _ => { progress := .pauses idle (.working w idle .reading) }
  | .error f =>
    if f.isCancelled then endWork w
    else
      { notes := [say .error "consuming message" [("error", f.text)]]
        progress := .pauses idle (.working w idle .reading) }

/-- After a publication the next message is taken at once, whatever became of it. -/
def afterPublication (w : Worker) (idle : UInt64) (message : String) :
    Except Failure Success → Turn
  | .ok _ =>
    { notes := [say .info "result published" [("message_id", message)]]
      progress := .waits (.working w idle .reading) }
  | .error f =>
    if f.isCancelled then endWork w
    else
      { notes := [say .warn "publishing result" [("message_id", message), ("error", f.text)]]
        progress := .waits (.working w idle .reading) }

def afterCall (w : Worker) (idle : UInt64) : Stage → Except Failure Success → Turn
  | .claiming message _ | .acknowledging message => afterPublication w idle message
  | .reading | .beating .. => afterRead w idle

def afterReaction (w : Worker) (idle : UInt64) (stage : Stage) (r : Reaction) : Turn :=
  match r.next with
  | .inl next => { notes := r.notes, progress := .waits (.working w idle next) }
  | .inr result =>
    let turn := afterCall w idle stage result
    { turn with notes := r.notes ++ turn.notes }

/-! ### Replies and interrupts -/

def afterGrouping (s : Settings) : Purpose → Turn
  | .append payload => { progress := .waits (.appending s payload) }
  | .serve id idle => beginWork s id idle

/-- What follows the reply to an activity's command. -/
def Activity.next (a : Activity) (r : Server.Reply) : Turn :=
  match a with
  | .grouping s purpose =>
    match Server.answer (.createGroup s.stream s.group) r with
    | .ok () => afterGrouping s purpose
    | .error f => { progress := .ends (failed f) }
  | .appending s payload =>
    match Server.answer (.append s.stream [(payloadField, payload)]) r with
    | .ok id => { progress := .ends (shown id) }
    | .error f => { progress := .ends (failed f) }
  | .looking id =>
    match Server.answer (.get id) r with
    | .ok (some result) => { progress := .ends (shown result) }
    | .ok none => { progress := .ends (shown s!"No result for {id}.") }
    | .error f => { progress := .ends (failed f) }
  | .working w idle stage =>
    afterReaction w idle stage (w.react stage (Server.answer (w.operation stage) r))

/-- What an interrupt leads to while an activity waits: work is given up, and the program ends well.
Nothing else can be interrupted. -/
def Activity.interrupt : Activity → Turn
  | .working w idle stage => afterReaction w idle stage (w.cancel stage)
  | a => { progress := .waits a }

/-- What an interrupt leads to. -/
def Progress.interrupt : Progress → Turn
  | .waits a => a.interrupt
  | .pauses _ (.working w ..) => endWork w
  | p => { progress := p }

/-! ### Beginning -/

/-- How the program begins: it is over at once, or it connects to a server. -/
inductive Start where
  | done (r : Report)
  | connects (address : Server.Address) (first : Activity)
  deriving DecidableEq

/-- What the program complains about, which of its reports are kept, and how it begins. -/
structure Beginning where
  complaints : List String := []
  filter : Telemetry.Filter := []
  start : Start

def reach (s : Settings) (first : Activity) : Start :=
  match s.storeAddress with
  | .ok address => .connects address first
  | .error f => .done (failed f)

def beginProduce (s : Settings) (payload : String) : Start :=
  match Payload.decode .document (Utf8.encode payload) with
  | .ok document => reach s (.grouping s (.append document.encode))
  | .error reason => .done (failed (.other reason))

def beginServe (env : Environment) (p : ProcessSettings) (id : String) (idle : UInt64) :
    Beginning :=
  let (filter, complaints) := Telemetry.Filter.choose (env.text? "RUST_LOG") p.filter
  match Telemetry.Setup.install none filter p.exporter with
  | .ok _ => { complaints, filter, start := reach p.worker (.grouping p.worker (.serve id idle)) }
  | .error f => { complaints, start := .done (failed f) }

def beginAction (env : Environment) (id : String) (action : Action) : Beginning :=
  match ProcessSettings.ofEnvironment env with
  | .error fault => { start := .done (failed (.ofSettings fault)) }
  | .ok p =>
    match action with
    | .serve idle => beginServe env p id idle
    | .produce payload => { start := beginProduce p.worker payload }
    | .result message => { start := reach p.worker (.looking message) }

/-- How the program begins with arguments and an environment. A worker has the given id. -/
def begin (env : Environment) (id : String) (arguments : List Bytes) : Beginning :=
  match Arguments.parse arguments with
  | .help => { start := .done { exit := 0, out := Arguments.usage } }
  | .misuse => { start := .done { exit := 2, err := Arguments.usage } }
  | .run action => beginAction env id action

end StreamWorker.CommandLine
