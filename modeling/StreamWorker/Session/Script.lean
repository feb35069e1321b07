import StreamWorker.Session.Flight

/-! Scripts of steps over one session, with the answer to each. A step that waits is given up after a
limit of its own; steps can also be begun together. Before the next step, everything that is due in the
background has run. -/

namespace StreamWorker

/-- A step that can be begun together with others. -/
inductive Request where
  | call (member token : String) (call : Call)
  | operation (op : Operation)
  | fail (p : FaultPoint) (reason : String)
  | stall (p : FaultPoint)
  | clearFaults (p : FaultPoint)
  | script (reply : Option (List Batch))
  | entry (key : String)
  | writeCount (key : String)
  | pending (stream group : String)
  | acknowledged
  | lastRead
  | cancel (token : String)
  | cancelAfter (token : String) (millis : Nat)
  | setClock (millis : Nat)
  | isRunning (member : String)
  | heartbeatKey (member : String)
  | settings (member : String)
  | trace
  | counts
  deriving Repr

inductive Step where
  /-- Makes a worker under a name, in the place of the one that had it. -/
  | hire (name id : String) (settings : Settings) (kind : Payload.Kind)
  | start (member token : String)
  | stop (member : String)
  | dismiss (member : String)
  | sleep (millis : Nat)
  /-- Sleeps until the time is a multiple of so many milliseconds. -/
  | align (millis : Nat)
  /-- Performs a request, given up after a limit in milliseconds. -/
  | request (r : Request) (limit : Nat)
  /-- Begins requests in order and then waits for all of them. -/
  | together (rs : List (Request × Nat))

/-- What a step can answer. -/
inductive Reply where
  | done
  | flag (b : Bool)
  | text (s : String)
  | text? (s : Option String)
  | count (n : Nat)
  | call (s : Success)
  | batches? (b : Option (List Batch))
  /-- A live record, and its age in milliseconds. -/
  | record? (r : Option (KeyRecord × Nat))
  | ids (l : List String)
  | readRequest? (r : Option ReadRequest)
  | settings (s : Settings)
  | trace (l : List Note)
  | counts (l : List (String × List String × Nat))

/-- The answer to an operation. -/
def Operation.report : (op : Operation) → op.Answer → Reply
  | .set .., () => .done
  | .claim .., created => .flag created
  | .get _, v => .text? v
  | .read _, reply => .batches? reply
  | .acknowledge .., n => .count n.toNat
  | .createGroup .., () => .done
  | .append .., id => .text id

namespace World

/-- A request that was begun: it has ended, or a call or a stalled operation waits up to an instant. -/
inductive Slot where
  | ended (e : Ending Reply)
  | waiting (f : Option Flight) (deadline : Nat)

private def ok (a : Reply) : Ending Reply := .finished (.ok a)

private def callEnding : Ending Success → Ending Reply
  | .finished r => .finished (r.map .call)
  | .abandoned => .abandoned
  | .broken b => .broken b

private def unknown (name : String) : Ending Reply :=
  .finished (.error (.other s!"there is no worker {name}"))

def isRunning (w : World) (m : Member) : Bool :=
  match m.loop.bind w.loops.get? with
  | some l => l.phase ≠ .ended
  | none => false

private def withMember (w : World) (name : String) (f : Member → Ending Reply) : Ending Reply :=
  match w.members.get? name with
  | some m => f m
  | none => unknown name

/-- The answer to a question about the session, which changes nothing. -/
private def ask (w : World) : Request → Ending Reply
  | .entry key =>
    match w.store.keys.look w.now key with
    | .ok r => ok (.record? (r.map fun r => (r, (w.now - r.writtenAt) / Instant.milli)))
    | .error b => .broken b
  | .writeCount key => ok (.count (w.store.keys.writeCount key))
  | .pending stream group => ok (.ids (w.store.pending stream group))
  | .acknowledged => ok (.ids w.store.acknowledged)
  | .lastRead => ok (.readRequest? w.store.lastRead)
  | .isRunning name => w.withMember name fun m => ok (.flag (w.isRunning m))
  | .heartbeatKey name => w.withMember name fun m => ok (.text m.worker.heartbeatKey)
  | .settings name => w.withMember name fun m => ok (.settings m.worker.settings)
  | .counts => ok (.counts w.ledger.lines)
  | _ => ok .done

/-- A command to the session, which is done at once. -/
def command (w : World) : Request → World
  | .fail p reason => { w with store := w.store.fail p reason }
  | .stall p => { w with store := w.store.stall p }
  | .clearFaults p => { w with store := w.store.clearFaults p }
  | .script reply => { w with store := w.store.script reply }
  | .cancel token => w.cancelToken token
  | .cancelAfter token millis =>
    if millis = 0 then { w with ready := w.ready ++ [.cancel token] }
    else { w with timers := w.timers ++ [⟨w.now + millis * Instant.milli, .cancel token⟩] }
  | .setClock millis => w.setClock millis
  | _ => w

/-- Begins a request that waits at most until `deadline`. -/
def beginRequest (w : World) (deadline : Nat) : Request → World × Slot
  | .call name token call =>
    match w.members.get? name with
    | none => (w, .ended (unknown name))
    | some m =>
      match w.begin m.worker token call with
      | (w, .inl f) =>
        if deadline ≤ w.now then (w.abandon f, .ended .abandoned)
        else (w, .waiting (some f) deadline)
      | (w, .inr e) => (w, .ended (callEnding e))
  | .operation op =>
    let (store, response) := w.store.perform w.now w.clock op
    let w := { w with store }
    match response with
    | .answer a => (w, .ended (ok (op.report a)))
    | .failure f => (w, .ended (.finished (.error f)))
    | .stalled => (w, if deadline ≤ w.now then .ended .abandoned else .waiting none deadline)
    | .broken b => (w, .ended (.broken b))
  | .trace => ({ w with trace := #[] }, .ended (ok (.trace w.trace.toList)))
  | r => (w.command r, .ended (w.ask r))

def beginAll : World → List (Request × Nat) → World × List Slot
  | w, [] => (w, [])
  | w, (r, limit) :: rs =>
    let (w, slot) := w.beginRequest (w.now + limit * Instant.milli) r
    let (w, slots) := beginAll w rs
    (w, slot :: slots)

/-- Looks at a request that waits: it ends if it is cancelled or, failing that, if its time is up. -/
def look (w : World) : Slot → World × Slot
  | .ended e => (w, .ended e)
  | .waiting none deadline =>
    (w, if deadline ≤ w.now then .ended .abandoned else .waiting none deadline)
  | .waiting (some f) deadline =>
    match w.resume f with
    | (w, .inr e) => (w, .ended (callEnding e))
    | (w, .inl f) =>
      if deadline ≤ w.now then (w.abandon f, .ended .abandoned) else (w, .waiting (some f) deadline)

def lookAll : World → List Slot → World × List Slot
  | w, [] => (w, [])
  | w, s :: ss =>
    let (w, s) := w.look s
    let (w, ss) := lookAll w ss
    (w, s :: ss)

def Slot.deadline? : Slot → Option Nat
  | .ended _ => none
  | .waiting _ deadline => some deadline

def Slot.ending : Slot → Ending Reply
  | .ended e => e
  | .waiting .. => .abandoned

/-- The limit that is due first among those of the requests that wait. -/
def firstLimit? (slots : List Slot) : Option Nat := (slots.filterMap Slot.deadline?).min?

/-- Lets time pass up to a limit. Whoever waits is looked at before what is due in the background at the
same instant, and once more after it. -/
def atLimit (w : World) (slots : List Slot) (limit : Nat) : World × List Slot :=
  let (w, slots) := lookAll (w.arrive limit) slots
  lookAll w.settle slots

/-- Lets time pass up to the next limit or, if it is due before that, up to the next timer, after which
everybody who waits is looked at. There is no such round once nobody waits. -/
def round (w : World) (slots : List Slot) : Option (World × List Slot) :=
  (firstLimit? slots).map fun limit =>
    match w.nextDue with
    | some t => if t < limit then lookAll (w.arrive t).settle slots else w.atLimit slots limit
    | none => w.atLimit slots limit

/-- Waits for all requests, for at most so many rounds. -/
def awaitAll : Nat → World → List Slot → World × List Slot
  | 0, w, slots => (w, slots)
  | fuel + 1, w, slots =>
    match w.round slots with
    | none => (w, slots)
    | some (w, slots) => awaitAll fuel w slots

/-- Begins requests together and waits for all of them. Each round of waiting ends a request or takes
at least a nanosecond. -/
def perform (w : World) (rs : List (Request × Nat)) : World × List (Ending Reply) :=
  let (w, slots) := beginAll w rs
  let (w, slots) := lookAll w.settle slots
  let last := (slots.filterMap Slot.deadline?).foldl max w.now
  let (w, slots) := awaitAll (last - w.now + slots.length) w slots
  (w.settle, slots.map Slot.ending)

/-! ### Workers -/

/-- Stops a member's heartbeat loop, if it has one. -/
def stopLoop (w : World) (m : Member) : World :=
  match m.loop with
  | some id => w.cancelLoop id
  | none => w

def hire (w : World) (name id : String) (settings : Settings) (kind : Payload.Kind) :
    World × Ending Reply :=
  match Worker.create id settings kind with
  | .error fault => (w, .finished (.error (.ofSettings fault)))
  | .ok worker =>
    let w := match w.members.get? name with
      | some m => w.stopLoop m
      | none => w
    ({ w with members := w.members.insert name { worker } }, ok .done)

def spawn (w : World) (name : String) (m : Member) (token : String) (expiry : Duration) :
    World :=
  let id := w.loops.entries.length
  let t := w.token token
  let l : HeartbeatLoop :=
    { worker := m.worker, interval := m.worker.settings.interval, expiry, token
      cancelled := t.cancelled }
  { w with
    loops := w.loops.insert id l
    tokens := w.tokens.insert token (if t.cancelled then t else { t with loops := t.loops ++ [id] })
    members := w.members.insert name { m with loop := some id }
    ready := w.ready ++ [.loop id] }

/-- Starts a member's heartbeat loop, unless one is running. -/
def start (w : World) (name token : String) : World × Ending Reply :=
  match w.members.get? name with
  | none => (w, unknown name)
  | some m =>
    if w.isRunning m then
      (w.note (.event .warn "consumer already started" [("consumer", .text m.worker.id)] none), ok .done)
    else match m.worker.settings.expiry? with
      | some expiry => (w.spawn name m token expiry, ok .done)
      | none => (w, .broken .spanTooLong)

def stop (w : World) (name : String) : World × Ending Reply :=
  match w.members.get? name with
  | none => (w, unknown name)
  | some m => ({ w.stopLoop m with members := w.members.insert name { m with loop := none } }, ok .done)

def dismiss (w : World) (name : String) : World × Ending Reply :=
  match w.members.get? name with
  | none => (w, unknown name)
  | some m => ({ w.stopLoop m with members := w.members.erase name }, ok .done)

/-! ### Steps -/

private def settled (p : World × Ending Reply) : World × List (Ending Reply) :=
  (p.1.settle, [p.2])

private def sleepTo (w : World) (target : Nat) : World × List (Ending Reply) :=
  let w := w.elapseTo target
  (w, [ok (.count (w.now / Instant.milli))])

/-- Performs a step; steps begun together have one answer each. -/
def step (w : World) : Step → World × List (Ending Reply)
  | .hire name id settings kind => settled (w.hire name id settings kind)
  | .start name token => settled (w.start name token)
  | .stop name => settled (w.stop name)
  | .dismiss name => settled (w.dismiss name)
  | .sleep millis => w.sleepTo (w.now + millis * Instant.milli)
  | .align millis =>
    let unit := max millis 1 * Instant.milli
    w.sleepTo ((w.now + (unit - 1)) / unit * unit)
  | .request r limit => w.perform [(r, limit)]
  | .together rs => w.perform rs

/-- The answers to a whole script, over a new session. -/
def run (clock : Clock) (steps : List Step) : List (List (Ending Reply)) :=
  (steps.foldl (fun (w, answers) s => let (w, a) := step w s; (w, a :: answers))
    (new clock, [])).2.reverse

end World

end StreamWorker
