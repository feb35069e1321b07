import StreamWorker.Settings.Basic
import StreamWorker.Table
import StreamWorker.Text.Blank
import StreamWorker.Text.Utf8

/-! Settings from environment variables. A variable whose value is not text counts as unset. -/

namespace StreamWorker

/-- Variables and their values, which may be any bytes. -/
abbrev Environment := Table String Bytes

namespace Environment

def text? (env : Environment) (name : String) : Option String :=
  (env.get? name).bind Utf8.decode?

end Environment

namespace Settings

open Environment

/-- The span that a variable gives in some unit, if it is set. -/
def span? (env : Environment) (name : String) (unit : UInt64 → Duration) :
    Except Fault (Option Duration) :=
  match text? env name with
  | none => .ok none
  | some raw =>
    match Numeral.read (Text.trim raw) with
    | .ok n => .ok (some (unit n))
    | .error fault => .error (.malformed name raw fault)

/-- The settings that the variables give, checked. Spans are looked at before the address, and each by
itself before all are checked together. -/
def ofEnvironment (env : Environment) : Except Fault Settings := do
  let retention ← span? env "RESPONSE_ENTRY_TIMEOUT_SECS" .ofSeconds
  let keepalive ← span? env "KEEPALIVE_TIMEOUT_MS" .ofMillis
  let some address := text? env "REDIS_URL" | .error (.unset "REDIS_URL")
  let settings : Settings :=
    { retention := retention.getD standard.retention
      keepalive := keepalive.getD standard.keepalive
      address := ⟨address⟩
      stream := (text? env "REDIS_STREAM").getD defaultStream
      group := (text? env "REDIS_GROUP").getD defaultGroup }
  settings.check
  return settings

end Settings

/-- The settings of a whole process: those of its worker, and how it reports about itself. -/
structure ProcessSettings where
  worker : Settings
  /-- Where spans, counts and records are sent, if anywhere. -/
  exporter : Option String
  /-- Which records are kept. -/
  filter : String
  deriving DecidableEq

namespace ProcessSettings

def ofEnvironment (env : Environment) : Except Settings.Fault ProcessSettings :=
  (Settings.ofEnvironment env).map fun worker =>
    { worker
      exporter := env.text? "OTEL_ENDPOINT"
      filter := (env.text? "LOG_LEVEL").getD "info" }

private def optionText : Option String → String
  | none => "None"
  | some s => "Some(" ++ Text.quoted s ++ ")"

def text (p : ProcessSettings) : String :=
  "Config \x7b consumer: " ++ p.worker.text
    ++ ", otel_endpoint: " ++ optionText p.exporter
    ++ ", log_level: " ++ Text.quoted p.filter ++ " \x7d"

end ProcessSettings

end StreamWorker
