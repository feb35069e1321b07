import StreamWorker.Text.Numeral
import StreamWorker.Text.Quoted
import StreamWorker.Time.Duration

/-! What one worker needs to know before it runs: how long results are kept, when silence counts as
death, where the store is, and which stream and group it serves. The address of the store may hold a
password, so it is shown nowhere. -/

namespace StreamWorker

/-- A text that is used but never shown. -/
structure Secret where
  expose : String
  deriving DecidableEq

def Secret.text (_ : Secret) : String := "SecretBox<str>([REDACTED])"

structure Settings where
  /-- How long a published result is kept. -/
  retention : Duration
  /-- After this time without a heartbeat a worker counts as dead. -/
  keepalive : Duration
  address : Secret
  stream : String
  group : String
  deriving DecidableEq

namespace Settings

def defaultStream : String := "default"

def defaultGroup : String := "default_consumer_group"

def standard : Settings where
  retention := .ofSeconds 3600
  keepalive := .ofSeconds 300
  address := ⟨""⟩
  stream := defaultStream
  group := defaultGroup

/-- Short spans, for trying things out. -/
def brisk : Settings := { standard with retention := .ofSeconds 60, keepalive := .ofMillis 30 }

/-- The time between two heartbeats. -/
def interval (s : Settings) : Duration := s.keepalive.tenth

/-- How long one heartbeat stands for a living worker; none if twice the keepalive is no span. -/
def expiry? (s : Settings) : Option Duration := s.keepalive.double?

/-- Why settings cannot be used. -/
inductive Fault where
  | noAddress
  | noInterval (keepalive : Duration)
  | noRetention
  | unnamed
  | unset (name : String)
  | malformed (name raw : String) (fault : Numeral.Fault)
  deriving DecidableEq

def Fault.message : Fault → String
  | .noAddress => "redis url cannot be empty"
  | .noInterval k => s!"keepalive timeout {k.text} leaves no time between heartbeats"
  | .noRetention => "response entry timeout must be positive"
  | .unnamed => "redis stream and group names cannot be empty"
  | .unset v => s!"required environment variable {v} is not set"
  | .malformed v raw f => s!"invalid value {Text.quoted raw} for {v}: {f.message}"

/-- The first reason not to run with these settings. -/
def check (s : Settings) : Except Fault Unit :=
  if s.address.expose.isEmpty then .error .noAddress
  else if s.interval.nanos = 0 then .error (.noInterval s.keepalive)
  else if s.retention.nanos = 0 then .error .noRetention
  else if s.stream.isEmpty ∨ s.group.isEmpty then .error .unnamed
  else .ok ()

/-- All settings on one line, the address hidden. -/
def text (s : Settings) : String :=
  "ConsumerConfig \x7b response_entry_timeout: " ++ s.retention.text
    ++ ", keepalive_timeout: " ++ s.keepalive.text
    ++ ", redis_url: " ++ s.address.text
    ++ ", redis_stream: " ++ Text.quoted s.stream
    ++ ", redis_group: " ++ Text.quoted s.group ++ " \x7d"

end Settings

end StreamWorker
