import StreamWorker.Settings.Basic

/-! Why a call failed. A failure around another one keeps it as its cause, and its text ends in the text
of the cause. Being cancelled is never hidden in a failed read, publication or acknowledgment. -/

namespace StreamWorker

inductive Failure where
  /-- The settings cannot be used. -/
  | settings (reason : String)
  /-- No connection to the store. -/
  | connection (reason : String)
  /-- The store's server refused a command or its reply made no sense. -/
  | server (reason : String)
  /-- The store failed. -/
  | store (reason : String)
  /-- The caller gave up. -/
  | cancelled
  | read (member : String) (cause : Failure)
  | unexpectedReply (reason : String)
  | missingPayload (message : String)
  | undecodable (message : String) (cause : Failure)
  | resultExists (message : String)
  | unpublished (message : String) (cause : Failure)
  | unacknowledged (message : String) (cause : Failure)
  /-- Anything else, known by its text alone. -/
  | other (reason : String)
  deriving Repr, DecidableEq

namespace Failure

def text : Failure → String
  | .settings r => "configuration error: " ++ r
  | .connection r => "connecting to store: " ++ r
  | .server r => "redis error: " ++ r
  | .store r => "store error: " ++ r
  | .cancelled => "operation cancelled"
  | .read m c => "reading message for consumer " ++ Text.quoted m ++ ": " ++ c.text
  | .unexpectedReply r => "unexpected reply for single message read: " ++ r
  | .missingPayload m => "message " ++ m ++ " has no payload field"
  | .undecodable m c => "decoding message " ++ m ++ ": " ++ c.text
  | .resultExists m => "result for message " ++ m ++ " already exists"
  | .unpublished m c => "setting result for message " ++ m ++ ": " ++ c.text
  | .unacknowledged m c => "acking message " ++ m ++ ": " ++ c.text
  | .other r => r

/-- Whether the caller's giving up is what made the call fail. -/
def isCancelled : Failure → Bool
  | .cancelled => true
  | .read _ c | .unpublished _ c | .unacknowledged _ c => c.isCancelled
  | _ => false

/-- The text of the cause, of its cause, and so on. The reason of a server is a cause of its own. -/
def chain : Failure → List String
  | .read _ c | .undecodable _ c | .unpublished _ c | .unacknowledged _ c => c.text :: c.chain
  | .connection r | .server r => [r]
  | _ => []

/-- Puts a failure into context; being cancelled stays as it is. -/
def within (wrap : Failure → Failure) : Failure → Failure
  | .cancelled => .cancelled
  | f => wrap f

/-- Settings that cannot be used, as a failed call. -/
def ofSettings (f : Settings.Fault) : Failure := .settings f.message

end Failure

end StreamWorker
