import StreamWorker.CommandLine.Run
import StreamWorker.Server.Wire
import StreamWorker.Worker.Identity
import Std.Async.DNS
import Std.Async.Signal
import Std.Async.TCP
import Std.Async.Timer

/-! The program on the command line. All it does here is to read the environment and the arguments, to
carry commands to the server and replies back, to wait, and to print. -/

namespace StreamWorker.CommandLine

open Std.Async

/-- A connection, with the bytes received but not yet read as replies. -/
structure Link where
  client : TCP.Socket.Client
  received : IO.Ref Bytes

private def toArray (b : Bytes) : ByteArray := ⟨b.toArray⟩

private def ofArray (b : ByteArray) : Bytes := b.toList

/-! ### The server -/

private def socketAddress (port : UInt16) : Std.Net.IPAddr → Std.Net.SocketAddress
  | .v4 a => .v4 ⟨a, port⟩
  | .v6 a => .v6 ⟨a, port⟩

private def open? (host : String) (port : UInt16) : IO Link := do
  let some a := (← (DNS.getAddrInfo host (toString port)).block)[0]?
    | throw (IO.userError ("no address for " ++ host))
  let client ← TCP.Socket.Client.mk
  (client.connect (socketAddress port a)).block
  return ⟨client, ← IO.mkRef []⟩

/-- Sends a command. -/
private def Link.send (l : Link) (c : Command) : IO Unit :=
  (l.client.send (toArray (Server.Wire.encode c))).block

private def pollMillis : Nat := 50

/-- Waits a while for bytes; none if there were none. -/
private def Link.poll (l : Link) : IO (Option (Option ByteArray)) := do
  let nap ← (Sleep.mk (Std.Time.Millisecond.Offset.ofNat pollMillis)).block
  (Selectable.one #[
    .case (l.client.recvSelector 65536) fun b => return some b,
    .case nap.selector fun _ => return none]).block

/-- Waits for a reply, or until `stop` says so. -/
private partial def Link.receive (l : Link) (stop : IO Bool) : IO (Option Server.Reply) := do
  match Server.Wire.read (← l.received.get) with
  | .reply r rest =>
    l.received.set rest
    return some r
  | .broken => throw (IO.userError "the server's reply makes no sense")
  | .unfinished =>
    if ← stop then return none
    match ← l.poll with
    | some (some b) => l.received.modify (· ++ ofArray b)
    | some none => throw (IO.userError "the server closed the connection")
    | none => pure ()
    l.receive stop

/-- Sends a command that introduces the client, and refuses to go on if the server refuses it. -/
private def Link.introduce (l : Link) (words : List String) : IO Unit := do
  l.send (words.map Utf8.encode)
  let some r ← l.receive (pure false) | return
  if let some refusal := r.refusal? then throw (IO.userError refusal.message)

private def connect (a : Server.Address) : IO Link := do
  match a.place with
  | .socket _ => throw (IO.userError "sockets in the file system are not supported")
  | .network host port =>
    let l ← open? host port
    if let some password := a.password then
      l.introduce (["AUTH"] ++ a.user.toList ++ [password])
    if a.database ≠ 0 then l.introduce ["SELECT", toString a.database]
    return l

/-! ### Time -/

private def wallClock : IO Nat := do
  return (← Std.Time.Timestamp.now).toMillisecondsSinceUnixEpoch.val.toNat

/-- Sleeps, but not much longer than until `stop` says so. -/
private partial def pause (stop : IO Bool) (millis : Nat) : IO Unit := do
  if millis = 0 ∨ (← stop) then return
  let slice := min millis pollMillis
  IO.sleep (UInt32.ofNat slice)
  pause stop (millis - slice)

/-- Shows again and again that a worker is alive. A write that fails is left to the next time. -/
private partial def keepAlive (a : Server.Address) (w : Worker) (stop : IO Bool) : IO Unit := do
  if ← stop then return
  try
    let l ← connect a
    if let .ok stage := w.start (← wallClock) .heartbeat then
      l.send (Server.command (w.operation stage))
      discard <| l.receive stop
    l.client.shutdown.block
  catch _ => pure ()
  pause stop w.settings.interval.millis
  keepAlive a w stop

/-! ### Running -/

private def valueText : FieldValue → String
  | .text s => s
  | .number n => toString n

/-- One line for a note that the filter keeps. -/
private def printNote (filter : Telemetry.Filter) : Note → IO Unit
  | .event level message fields _ => do
    if filter.keeps "pubsub" level then
      let shown := String.join (fields.map fun f => " " ++ f.1 ++ "=" ++ valueText f.2)
      IO.println (level.text ++ " " ++ message ++ shown)
  | _ => return

private structure Host where
  link : Link
  filter : Telemetry.Filter
  stop : IO Bool
  /-- Begins to show that a worker is alive, the first time. -/
  revive : Worker → IO Unit

private partial def Host.drive (h : Host) (t : Turn) : IO Report := do
  for n in t.notes do printNote h.filter n
  match t.progress with
  | .ends r => return r
  | .pauses idle a =>
    pause h.stop idle.toNat
    if ← h.stop then h.drive (Progress.pauses idle a).interrupt
    else h.drive { progress := .waits a }
  | .waits a =>
    if let .working w .. := a then h.revive w
    if ← h.stop then
      if let .ends r := a.interrupt.progress then
        for n in a.interrupt.notes do printNote h.filter n
        return r
    h.link.send (Server.command a.operation)
    match ← h.link.receive h.stop with
    | some r => h.drive (a.next r)
    | none => h.drive a.interrupt

private def names : List String :=
  ["REDIS_URL", "REDIS_STREAM", "REDIS_GROUP", "RESPONSE_ENTRY_TIMEOUT_SECS", "KEEPALIVE_TIMEOUT_MS",
    "OTEL_ENDPOINT", "LOG_LEVEL", "RUST_LOG"]

/-- The variables that the program reads, and those that a file of variables may refer to. -/
private def environment (file : String) : IO Environment := do
  let words := (file.splitToList fun c => !(c.isAlphanum || c == '_'))
  let mut env : Environment := .empty
  for name in names ++ words do
    if let some v ← IO.getEnv name then env := env.insert name (Utf8.encode v)
  return env

private def readFile? (path : String) : IO (Option String) := do
  try return some (← IO.FS.readFile path) catch _ => return none

private def randomId : IO String := do
  let b ← IO.getRandomBytes 16
  return Identity.text (b.toList.foldl (fun n x => n * 256 + x.toNat) 0)

/-- Connects, and goes on from the first activity to the end. -/
private def runAt (a : Server.Address) (filter : Telemetry.Filter) (first : Activity) : IO Report := do
  let interrupted ← IO.mkRef false
  let done ← IO.mkRef false
  let alive ← IO.mkRef false
  let waiting ← (← Signal.Waiter.mk .sigint false).wait
  discard <| AsyncTask.mapIO (x := waiting) fun _ => interrupted.set true
  let finished : IO Bool := return (← interrupted.get) || (← done.get)
  let link ← connect a
  let revive (w : Worker) : IO Unit := do
    if !(← alive.get) then
      alive.set true
      discard <| IO.asTask (keepAlive a w finished)
  let report ← Host.drive ⟨link, filter, interrupted.get, revive⟩ { progress := .waits first }
  done.set true
  return report

private def runStart (b : Beginning) : IO Report := do
  match b.start with
  | .done r => return r
  | .connects a first =>
    try runAt a b.filter first
    catch e => return failed (.connection (toString e))

end StreamWorker.CommandLine

open StreamWorker StreamWorker.CommandLine in
def main (arguments : List String) : IO UInt32 := do
  let file ← readFile? ".env"
  let env := EnvFile.load (← environment (file.getD "")) (file.getD "")
  let b := CommandLine.begin env (← randomId) (arguments.map Utf8.encode)
  let report := (← runStart b).complaining b.complaints
  IO.print report.out
  IO.eprint report.err
  return UInt32.ofNat report.exit
