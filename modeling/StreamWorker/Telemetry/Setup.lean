import StreamWorker.Failure
import StreamWorker.Telemetry.Endpoint
import StreamWorker.Telemetry.Filter

/-! Setting up how a process reports about itself, which can be done once. -/

namespace StreamWorker.Telemetry

/-- What was set up: which records are kept, and whether they are sent anywhere. -/
structure Setup where
  filter : Filter
  exporting : Bool
  deriving Repr, DecidableEq

namespace Setup

private def badEndpoint (endpoint : String) (fault : Endpoint.Fault) : Failure :=
  .other s!"failed to create OTLP span exporter: invalid URI {endpoint}. Reason {fault.message}"

private def twice : Failure :=
  .other "failed to init tracing subscriber: a global default trace dispatcher has already been set"

/-- Sets up reporting with a filter, after whatever was set up before. The endpoint is checked first. -/
def install (before : Option Setup) (filter : Filter) (endpoint : Option String) :
    Except Failure Setup :=
  match endpoint with
  | none => once false
  | some e =>
    match Endpoint.check e with
    | .error fault => .error (badEndpoint e fault)
    | .ok () => once true
where
  once (exporting : Bool) : Except Failure Setup :=
    if before.isSome then .error twice else .ok { filter, exporting }

end Setup

end StreamWorker.Telemetry
