import StreamWorker.Failure
import StreamWorker.Server.Address

/-! Connecting to the store that settings name, up to the point where the network is needed. -/

namespace StreamWorker.Settings

/-- Where the store is. -/
def storeAddress (s : Settings) : Except Failure Server.Address :=
  match Server.Address.read s.address.expose with
  | .ok a => .ok a
  | .error fault => .error (.connection fault.message)

/-- Where the store of a worker is; its settings are checked before. -/
def workerAddress (s : Settings) : Except Failure Server.Address :=
  match s.check with
  | .ok () => s.storeAddress
  | .error fault => .error (.ofSettings fault)

end StreamWorker.Settings
