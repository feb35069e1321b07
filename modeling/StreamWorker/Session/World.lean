import StreamWorker.Store.Memory
import StreamWorker.Worker.Call

/-! A session: a store in memory, the workers that share it, their heartbeat loops, and the tokens by
which calls and loops are cancelled, under one clock that moves only when everything waits. Background
tasks become ready in a definite order and run one after another, each until it has to wait: timers of
one instant in the order in which they were set, and the loops of a token, when it is cancelled, from
the one attached last to the one attached first. A loop that catches up with several ticks is not
interrupted by the others. -/

namespace StreamWorker

/-- What a heartbeat loop is about to do. -/
inductive LoopPhase where
  | fresh
  /-- Waits for its next tick. -/
  | ticking (deadline : Nat)
  /-- Waits for a write that has stalled. -/
  | writing
  | ended
  deriving Repr, DecidableEq

/-- Shows again and again that a worker is alive, until it is cancelled. -/
structure HeartbeatLoop where
  worker : Worker
  interval : Duration
  expiry : Duration
  token : String
  phase : LoopPhase := .fresh
  cancelled : Bool := false
  deriving DecidableEq

/-- Cancels, once, the calls that wait with it and the loops attached to it. -/
structure Token where
  cancelled : Bool := false
  loops : List Nat := []
  deriving Repr, DecidableEq

instance : Inhabited Token := ⟨{}⟩

/-- What can become ready to run: a heartbeat loop, or a cancellation whose time has come. -/
inductive Task where
  | loop (id : Nat)
  | cancel (token : String)
  deriving Repr, DecidableEq

structure Timer where
  due : Nat
  task : Task
  deriving Repr, DecidableEq

/-- A worker with the heartbeat loop that it started last and has not stopped. -/
structure Member where
  worker : Worker
  loop : Option Nat := none
  deriving DecidableEq

structure World where
  now : Nat := 0
  /-- What the wall clock showed when it was set, in milliseconds. -/
  clockShown : Nat
  /-- When the wall clock was set. -/
  clockSet : Nat := 0
  store : Store := {}
  members : Table String Member := .empty
  tokens : Table String Token := .empty
  loops : Table Nat HeartbeatLoop := .empty
  /-- Timers in the order in which they were set. -/
  timers : List Timer := []
  /-- Tasks in the order in which they became ready. -/
  ready : List Task := []
  /-- Records and closed spans that nobody has asked for yet. -/
  trace : Array Note := #[]
  ledger : Ledger := .empty

namespace World

/-- A session in which nothing has happened yet. -/
def new (clock : Clock) : World :=
  { clockShown := clock.shown, store := .new clock.limit }

/-- What the wall clock shows, in milliseconds. It moves with time. -/
def clock (w : World) : Nat := w.clockShown + (w.now - w.clockSet) / Instant.milli

def setClock (w : World) (millis : Nat) : World :=
  { w with clockShown := millis, clockSet := w.now }

def note (w : World) : Note → World
  | .count t => { w with ledger := w.ledger.add t }
  | n => { w with trace := w.trace.push n }

def notes (w : World) (l : List Note) : World := l.foldl note w

def token (w : World) (name : String) : Token := w.tokens.getD name {}

def isCancelled (w : World) (name : String) : Bool := (w.token name).cancelled

/-! ### Cancelling -/

/-- Marks a loop as cancelled and wakes it, unless that was done before. -/
def cancelLoop (w : World) (id : Nat) : World :=
  match w.loops.get? id with
  | some l =>
    if l.cancelled then w
    else { w with loops := w.loops.insert id { l with cancelled := true }, ready := w.ready ++ [.loop id] }
  | none => w

def cancelToken (w : World) (name : String) : World :=
  let t := w.token name
  if t.cancelled then w
  else
    let w := { w with tokens := w.tokens.insert name { cancelled := true } }
    t.loops.reverse.foldl cancelLoop w

/-- Takes an element out of a list by putting the last one in its place. -/
def swapRemove (l : List Nat) (x : Nat) : List Nat :=
  match l.getLast? with
  | some last => if x ∈ l then l.dropLast.map (fun y => if y = x then last else y) else l
  | none => l

/-! ### Heartbeat loops -/

private def loopEvent (level : Level) (message : String) (l : HeartbeatLoop)
    (more : Fields := []) : Note :=
  .event level message (("consumer", .text l.worker.id) :: more) none

def setPhase (w : World) (id : Nat) (l : HeartbeatLoop) (phase : LoopPhase) : World :=
  { w with loops := w.loops.insert id { l with phase } }

/-- Ends a loop: it leaves its token and its timer. -/
def endLoop (w : World) (id : Nat) (l : HeartbeatLoop) : World :=
  let t := w.token l.token
  let w := (w.setPhase id l .ended).note (loopEvent .debug "heartbeat stopped" l)
  { w with
    tokens := w.tokens.insert l.token { t with loops := swapRemove t.loops id }
    timers := w.timers.filter (·.task ≠ .loop id) }

/-- The tick that follows the one of `deadline`. It is an interval after that one, unless more than five
milliseconds have passed since: then the interval begins anew. -/
def nextTick (now : Nat) (l : HeartbeatLoop) (deadline : Nat) : Nat :=
  (if deadline + 5 * Instant.milli < now then now else deadline) + l.interval.nanos

/-- Waits for the tick after the one of `deadline`. If the millisecond of that tick has come already, the
loop goes on before anything else that is ready. -/
def awaitTick (w : World) (id : Nat) (l : HeartbeatLoop) (deadline : Nat) : World :=
  let next := nextTick w.now l deadline
  let due := Instant.ceilMilli next
  let w := w.setPhase id l (.ticking next)
  { w with
    ready := if due ≤ w.now then .loop id :: w.ready else w.ready
    timers := if due ≤ w.now then w.timers else w.timers ++ [⟨due, .loop id⟩] }

private def failedBeat (level : Level) (l : HeartbeatLoop) (f : Failure) : List Note :=
  [.count (.heartbeat false), loopEvent level "updating heartbeat" l [("error", .text f.text)]]

/-- Writes the heartbeat of a tick. A write that fails is left to the next tick; one that stalls holds
the loop. -/
def beat (w : World) (id : Nat) (l : HeartbeatLoop) (deadline : Nat) : World :=
  let (store, response) := w.store.set w.now l.worker.heartbeatKey (toString w.clock) l.expiry
  let w := { w with store }
  match response with
  | .answer () => (w.note (.count (.heartbeat true))).awaitTick id l deadline
  | .failure f => (w.notes (failedBeat .info l f)).awaitTick id l deadline
  | .stalled | .broken _ => w.setPhase id l .writing

private def started (l : HeartbeatLoop) : Note :=
  loopEvent .debug "heartbeat started" l
    [("interval_ms", .number (l.interval.millis % UInt64.size)),
      ("expiry_ms", .number (l.expiry.millis % UInt64.size))]

/-- Lets a loop go on until it waits for its next tick, or for its write, or has ended. -/
def runLoop (w : World) (id : Nat) : World :=
  match w.loops.get? id with
  | none => w
  | some l =>
    match l.phase with
    | .fresh =>
      let w := w.note (started l)
      if l.cancelled then w.endLoop id l else w.beat id l w.now
    | .ticking deadline =>
      if l.cancelled then w.endLoop id l
      else if Instant.ceilMilli deadline ≤ w.now then w.beat id l deadline
      else w
    | .writing =>
      if l.cancelled then (w.notes (failedBeat .error l .cancelled)).endLoop id l else w
    | .ended => w

/-! ### Time -/

def runTask (w : World) : Task → World
  | .loop id => w.runLoop id
  | .cancel token => w.cancelToken token

/-- Runs ready tasks, the first one first, as many as there is fuel for. -/
def drain : Nat → World → World
  | 0, w => w
  | fuel + 1, w =>
    match w.ready with
    | [] => w
    | t :: ready => drain fuel ({ w with ready }.runTask t)

/-- How often a loop can still become ready before time passes: once when it is cancelled, and once for
each of its ticks whose time has come, of which there is at most one in a nanosecond. -/
def outstanding (now : Nat) (l : HeartbeatLoop) : Nat :=
  (if l.cancelled then 0 else 1) +
    match l.phase with
    | .ticking deadline => now + 1 - deadline
    | .fresh | .writing | .ended => 0

/-- How many tasks can run at most before time passes. -/
def work (w : World) : Nat := w.ready.length + w.loops.total (outstanding w.now)

/-- Runs tasks until none is ready. -/
def settle (w : World) : World := drain w.work w

/-- When the next timer is due. -/
def nextDue (w : World) : Option Nat := (w.timers.map (·.due)).min?

/-- Moves the clock to an instant and makes ready what is due by then. -/
def arrive (w : World) (t : Nat) : World :=
  { w with
    now := t
    timers := w.timers.filter (t < ·.due)
    ready := w.ready ++ (w.timers.filter (·.due ≤ t)).map (·.task) }

/-- Lets time pass up to an instant, stopping at each timer on the way. -/
def elapse : Nat → Nat → World → World
  | 0, target, w => (w.arrive target).settle
  | fuel + 1, target, w =>
    match w.nextDue with
    | some t => if t < target then elapse fuel target (w.arrive t).settle else (w.arrive target).settle
    | none => (w.arrive target).settle

/-- Lets time pass up to an instant. Every stop on the way is at least a nanosecond after the last. -/
def elapseTo (w : World) (target : Nat) : World := elapse (target - w.now) target w

end World

end StreamWorker
