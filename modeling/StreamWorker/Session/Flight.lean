import StreamWorker.Session.World

/-! Calls and plain store operations in flight. Once begun, a call goes on until it ends or an operation
of it stalls; from then on only its token can end it, or its caller by abandoning it. -/

namespace StreamWorker

/-- How a call, or an operation, came to an end. -/
inductive Ending (α : Type) where
  | finished (result : Except Failure α)
  /-- The caller stopped waiting. -/
  | abandoned
  | broken (b : Breakdown)
  deriving Repr

/-- A call of a worker that waits for the operation of its stage. -/
structure Flight where
  worker : Worker
  token : String
  stage : Stage
  deriving DecidableEq

namespace World

/-- What a call does after a reaction. -/
def react (w : World) (f : Flight) (r : Reaction) : World × (Flight ⊕ Ending Success) :=
  (w.notes r.notes,
    match r.next with
    | .inl stage => .inl { f with stage }
    | .inr result => .inr (.finished result))

/-- One operation of a call, or its cancellation. A call whose operation stalls stays as it is. -/
def stepFlight (w : World) (f : Flight) : World × (Flight ⊕ Ending Success) :=
  if w.isCancelled f.token then w.react f (f.worker.cancel f.stage)
  else
    let (store, response) := w.store.perform w.now w.clock (f.worker.operation f.stage)
    let w := { w with store }
    match response with
    | .answer a => w.react f (f.worker.react f.stage (.ok a))
    | .failure e => w.react f (f.worker.react f.stage (.error e))
    | .stalled => (w, .inl f)
    | .broken b => (w.notes (f.worker.abandoned f.stage), .inr (.broken b))

/-- Lets a call go on until it ends or has to wait, for at most `n` operations. -/
def runFlight : Nat → Flight → World → World × (Flight ⊕ Ending Success)
  | 0, f, w => (w, .inl f)
  | n + 1, f, w =>
    match w.stepFlight f with
    | (w, .inr e) => (w, .inr e)
    | (w, .inl g) => if g = f then (w, .inl f) else runFlight n g w

/-- Begins a call and lets it go on until it ends or has to wait. No call has more than two
operations. -/
def begin (w : World) (worker : Worker) (token : String) (call : Call) :
    World × (Flight ⊕ Ending Success) :=
  match worker.start w.clock call with
  | .ok stage => runFlight 2 ⟨worker, token, stage⟩ w
  | .error b => (w, .inr (.broken b))

/-- Looks at a call that waits: if its token is cancelled, it ends. -/
def resume (w : World) (f : Flight) : World × (Flight ⊕ Ending Success) :=
  if w.isCancelled f.token then runFlight 2 f w else (w, .inl f)

/-- Stops waiting for a call. -/
def abandon (w : World) (f : Flight) : World := w.notes (f.worker.abandoned f.stage)

end World

end StreamWorker
