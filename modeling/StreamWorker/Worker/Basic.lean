import StreamWorker.Payload
import StreamWorker.Settings.Basic

/-! One member of a group of workers. Its id names it within the group and in the key by which it shows
that it is alive. -/

namespace StreamWorker

/-- The key under which a member shows that it is alive. -/
def heartbeatKey (id : String) : String := "consumer:" ++ id ++ ":heartbeat"

/-- How long a read waits for entries. A wait of zero would never end, so it is as short as a wait can
be, and callers ask again. -/
def readBlock : Duration := .ofMillis 1

structure Worker where
  id : String
  settings : Settings
  kind : Payload.Kind
  deriving DecidableEq

namespace Worker

/-- A worker with settings that can be used. -/
def create (id : String) (settings : Settings) (kind : Payload.Kind) :
    Except Settings.Fault Worker :=
  settings.check.map fun _ => ⟨id, settings, kind⟩

def heartbeatKey (w : Worker) : String := StreamWorker.heartbeatKey w.id

end Worker

end StreamWorker
