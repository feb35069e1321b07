import StreamWorker.Text.Numeral
import StreamWorker.Text.Utf8

/-! The arguments of the program. The first one names what to do; whatever begins with a dash is an
option, until two dashes say that no options follow. Asking for help wins over everything behind it. -/

namespace StreamWorker.CommandLine

/-- What the program is asked to do. -/
inductive Action where
  /-- Works on messages, pausing for some milliseconds when there are none. -/
  | serve (idle : UInt64)
  | produce (payload : String)
  | result (id : String)
  deriving Repr, DecidableEq

inductive Arguments where
  | run (action : Action)
  | help
  | misuse
  deriving Repr, DecidableEq

namespace Arguments

def defaultIdle : UInt64 := 50

def word (s : String) : Bytes := Utf8.encode s

def dash : UInt8 := 45

def isOption (a : Bytes) : Bool := a.head? = some dash && a.length ≠ 1

def isHelp (a : Bytes) : Bool := a = word "--help" || (word "-h").isPrefixOf a

private def idleOption : Bytes := word "--idle-backoff-ms"

private def idleAssigned : Bytes := idleOption ++ word "="

private def millis? (a : Bytes) : Option UInt64 :=
  (Utf8.decode? a).bind fun s => (Numeral.read s).toOption

/-- The arguments after `serve`. The pause can be given once. -/
private def serveArguments : Option UInt64 → List Bytes → Arguments
  | idle, [] => .run (.serve (idle.getD defaultIdle))
  | idle, a :: rest =>
    if a = word "--" then
      if rest.isEmpty then .run (.serve (idle.getD defaultIdle)) else .misuse
    else if isHelp a then .help
    else if a = idleOption then
      match rest with
      | [] => .misuse
      | v :: rest =>
        match idle, isOption v, millis? v with
        | none, false, some n => serveArguments (some n) rest
        | _, _, _ => .misuse
    else if idleAssigned.isPrefixOf a then
      match idle, millis? (a.drop idleAssigned.length) with
      | none, some n => serveArguments (some n) rest
      | _, _ => .misuse
    else .misuse

/-- The arguments after a word that takes exactly one text; `options` says whether options may follow. -/
def textArguments (make : String → Action) : Bool → Option String → List Bytes → Arguments
  | _, some s, [] => .run (make s)
  | _, none, [] => .misuse
  | options, s, a :: rest =>
    if options ∧ a = word "--" then textArguments make false s rest
    else if options ∧ isHelp a then .help
    else if options ∧ isOption a then .misuse
    else match s, Utf8.decode? a with
      | none, some t => textArguments make options (some t) rest
      | _, _ => .misuse

private def helpTopics : List String := ["serve", "produce", "result", "help"]

/-- What the arguments ask for. -/
def parse : List Bytes → Arguments
  | [] => .misuse
  | a :: rest =>
    if a = word "serve" then serveArguments none rest
    else if a = word "produce" then textArguments .produce true none rest
    else if a = word "result" then textArguments .result true none rest
    else if a = word "help" then
      match rest with
      | [] => .help
      | [topic] => if topic ∈ helpTopics.map word then .help else .misuse
      | _ => .misuse
    else if isHelp a then .help
    else .misuse

/-- How the program is called. -/
def usage : String :=
  "Usage: pubsub <COMMAND>\n\nCommands:\n"
    ++ "  serve    Run a consumer that publishes each JSON value back as its result\n"
    ++ "  produce  Append a JSON payload to the stream\n"
    ++ "  result   Show the stored result for a message\n"
    ++ "  help     Print this message or the help of the given subcommand(s)\n"

end Arguments

end StreamWorker.CommandLine
