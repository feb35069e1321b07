import StreamWorker.Proofs.Session.Flight

/-! Histories of a session in which everything happens one store operation at a time, in any order: the
calls of all workers, their heartbeat loops, operations of others on the store, faults, cancellations,
callers that give up, and time that passes. A history keeps every call that was begun and every store
operation that took place, with the store on which it was performed. -/

namespace StreamWorker

/-- Who asked for a store operation. -/
inductive Asker where
  /-- A call, by its number in the order in which calls were begun. -/
  | call (n : Nat)
  | loop (id : Nat)
  /-- Somebody who uses the store without a worker. -/
  | outsider
  deriving DecidableEq

/-- A store operation as it took place. -/
structure Occurrence where
  asker : Asker
  now : Nat
  clock : Nat
  /-- The store on which the operation was performed. -/
  store : Store
  op : Operation

namespace Occurrence

/-- The store after the operation. -/
def after (o : Occurrence) : Store := (o.store.perform o.now o.clock o.op).1

/-- The operation was `op`, and this is what it came to. -/
def CameTo (o : Occurrence) (op : Operation) (r : Response op.Answer) : Prop :=
  o.op = op ∧ (o.store.perform o.now o.clock op).2 = r

end Occurrence

/-- A call as it was begun, and how far it has got. -/
structure CallRecord where
  worker : Worker
  token : String
  call : Call
  begun : Nat
  course : Course

structure History where
  world : World
  /-- Calls in the order in which they were begun. -/
  calls : List CallRecord := []
  /-- Store operations in the order in which they took place. -/
  log : List Occurrence := []

/-- What can happen next. -/
inductive Event where
  | hire (name id : String) (settings : Settings) (kind : Payload.Kind)
  | start (member token : String)
  | stop (member : String)
  | dismiss (member : String)
  /-- A member begins a call, which does not yet ask for anything. -/
  | begin (member token : String) (call : Call)
  /-- A call performs its next operation or notices that it is cancelled. -/
  | proceed (n : Nat)
  /-- The caller of a call gives up. -/
  | abandon (n : Nat)
  | operation (op : Operation)
  /-- A fault, an answer given in advance, a cancellation, or a change of the wall clock. -/
  | command (r : Request)
  /-- A task of the background is let go on. -/
  | wake (t : Task)
  | elapse (nanos : Nat)

namespace History

/-- A session in which nothing has happened yet. -/
def start (clock : Clock) : History := { world := .new clock }

/-- An operation that takes place now. -/
def occurrence (h : History) (asker : Asker) (op : Operation) : Occurrence :=
  ⟨asker, h.world.now, h.world.clock, h.world.store, op⟩

/-- The operation that a call performs if it goes on, unless it is cancelled. -/
def asked (h : History) (n : Nat) (f : Flight) : List Occurrence :=
  if h.world.isCancelled f.token then []
  else [h.occurrence (.call n) (f.worker.operation f.stage)]

/-- The write of a heartbeat loop that is let go on, if it is due. -/
def beats (h : History) (t : Task) : List Occurrence :=
  match t, h.world.writer? t with
  | .loop id, some l =>
    [h.occurrence (.loop id) (.set l.worker.heartbeatKey (toString h.world.clock) l.expiry)]
  | _, _ => []

/-- Begins a call of a worker. -/
def begin (h : History) (worker : Worker) (token : String) (call : Call) : History :=
  let course := match worker.start h.world.clock call with
    | .ok stage => .running ⟨worker, token, stage⟩
    | .error b => .ended (.broken b)
  { h with calls := h.calls ++ [⟨worker, token, call, h.world.now, course⟩] }

/-- Notes how far a call has got. -/
def mark (h : History) (n : Nat) (c : CallRecord) (course : Course) : History :=
  { h with calls := h.calls.set n { c with course } }

/-- Lets a call go on by one operation. One that waits can only notice that it is cancelled. -/
def proceed (h : History) (n : Nat) (c : CallRecord) : History :=
  match c.course with
  | .running f =>
    let step := h.world.stepFlight f
    mark { h with world := step.1, log := h.log ++ h.asked n f } n c (.ofStep f step.2)
  | .held f =>
    let step := h.world.resume f
    mark { h with world := step.1 } n c (.ofStep f step.2)
  | .ended _ => h

def abandon (h : History) (n : Nat) (c : CallRecord) : History :=
  match c.course with
  | .running f | .held f => mark { h with world := h.world.abandon f } n c (.ended .abandoned)
  | .ended _ => h

def next (h : History) : Event → History
  | .hire name id settings kind => { h with world := (h.world.hire name id settings kind).1 }
  | .start member token => { h with world := (h.world.start member token).1 }
  | .stop member => { h with world := (h.world.stop member).1 }
  | .dismiss member => { h with world := (h.world.dismiss member).1 }
  | .begin member token call =>
    match h.world.members.get? member with
    | some m => h.begin m.worker token call
    | none => h
  | .proceed n =>
    match h.calls[n]? with
    | some c => h.proceed n c
    | none => h
  | .abandon n =>
    match h.calls[n]? with
    | some c => h.abandon n c
    | none => h
  | .operation op =>
    let o := h.occurrence .outsider op
    { h with world := { h.world with store := o.after }, log := h.log ++ [o] }
  | .command r => { h with world := h.world.command r }
  | .wake t => { h with world := h.world.wake t, log := h.log ++ h.beats t }
  | .elapse nanos => { h with world := h.world.arrive (h.world.now + nanos) }

/-- What a history has become after events. -/
def run (h : History) (es : List Event) : History := es.foldl next h

@[simp] theorem run_nil (h : History) : h.run [] = h := rfl

@[simp] theorem run_cons (h : History) (e : Event) (es : List Event) :
    h.run (e :: es) = (h.next e).run es := rfl

theorem run_append (h : History) (es es' : List Event) : h.run (es ++ es') = (h.run es).run es' :=
  List.foldl_append

/-- What holds at first and is preserved by every event holds ever after. -/
theorem run_induction {P : History → Prop} {h : History} (h0 : P h)
    (hs : ∀ h e, P h → P (h.next e)) (es : List Event) : P (h.run es) := by
  induction es generalizing h with
  | nil => exact h0
  | cons e es ih => exact ih (hs h e h0)

/-- The operations of a call, in order. -/
def trail (h : History) (n : Nat) : List Occurrence := h.log.filter (·.asker = .call n)

/-! ### What an event does to the world and to the log -/

theorem asked_eq_nil_or (h : History) (n : Nat) (f : Flight) :
    h.asked n f = [] ∨ ∃ op, h.asked n f = [h.occurrence (.call n) op] := by
  unfold asked
  split
  · exact .inl rfl
  · exact .inr ⟨_, rfl⟩

theorem beats_eq_nil_or (h : History) (t : Task) :
    h.beats t = [] ∨ ∃ id key value ttl,
      h.beats t = [h.occurrence (.loop id) (.set key value ttl)] := by
  unfold beats
  split
  · exact .inr ⟨_, _, _, _, rfl⟩
  · exact .inl rfl

/-- One event performs at most one operation, and nothing else concerns the contents of the store. -/
theorem next_log (h : History) (e : Event) :
    ((h.next e).log = h.log ∧ Store.SameContents h.world.store (h.next e).world.store) ∨
      ∃ asker op, (h.next e).log = h.log ++ [h.occurrence asker op] ∧
        (h.next e).world.store = (h.occurrence asker op).after := by
  have hsame {w : World} (hw : w.store = h.world.store) :
      Store.SameContents h.world.store w.store := hw ▸ .refl _
  cases e with
  | hire name id settings kind =>
    exact .inl ⟨rfl, hsame (World.hire_leads h.world name id settings kind).1⟩
  | start member token => exact .inl ⟨rfl, hsame (World.start_leads h.world member token).1⟩
  | stop member => exact .inl ⟨rfl, hsame (World.stop_leads h.world member).1⟩
  | dismiss member => exact .inl ⟨rfl, hsame (World.dismiss_leads h.world member).1⟩
  | begin member token call =>
    left
    rw [next]
    split <;> exact ⟨rfl, .refl _⟩
  | proceed n =>
    rw [next]
    split
    · next c _ =>
      rw [proceed]
      split
      · next f _ =>
        by_cases hc : h.world.isCancelled f.token = true
        · left
          simp [mark, asked, hc, World.stepFlight_of_cancelled hc, Store.SameContents.refl]
        · right
          refine ⟨.call n, f.worker.operation f.stage, by simp [mark, asked, hc], ?_⟩
          exact World.stepFlight_store hc
      · next f _ =>
        left
        simp only [World.resume_eq, mark]
        split <;> simp [Store.SameContents.refl]
      · exact .inl ⟨rfl, .refl _⟩
    · exact .inl ⟨rfl, .refl _⟩
  | abandon n =>
    left
    rw [next]
    split
    · next c _ =>
      rw [abandon]
      split <;> simp [mark, World.abandon, Store.SameContents.refl]
    · exact ⟨rfl, .refl _⟩
  | operation op => exact .inr ⟨.outsider, op, rfl, rfl⟩
  | command r => exact .inl ⟨rfl, (World.command_leads h.world r).1⟩
  | wake t =>
    have hs := World.wake_store h.world t
    cases t with
    | cancel token => exact .inl ⟨by simp [next, beats], hsame hs⟩
    | loop id =>
      cases hw : h.world.writer? (.loop id) with
      | none =>
        rw [hw] at hs
        exact .inl ⟨by simp [next, beats, hw], hsame hs⟩
      | some l =>
        rw [hw] at hs
        exact .inr ⟨.loop id, .set l.worker.heartbeatKey (toString h.world.clock) l.expiry,
          by simp [next, beats, hw], hs⟩
  | elapse nanos => exact .inl ⟨rfl, .refl _⟩

/-- Time does not go back, cancelled tokens stay cancelled, and workers have usable settings. -/
theorem next_leads (h : History) (e : Event) : h.world.Leads (h.next e).world := by
  cases e with
  | hire name id settings kind => exact (World.hire_leads h.world name id settings kind).2
  | start member token => exact (World.start_leads h.world member token).2
  | stop member => exact (World.stop_leads h.world member).2
  | dismiss member => exact (World.dismiss_leads h.world member).2
  | begin member token call =>
    rw [next]
    split <;> exact .refl _
  | proceed n =>
    rw [next]
    split
    · rw [proceed]
      split
      · exact World.leads_stepFlight h.world _
      · exact World.leads_resume h.world _
      · exact .refl _
    · exact .refl _
  | abandon n =>
    rw [next]
    split
    · rw [abandon]
      split
      · exact World.leads_notes h.world _
      · exact World.leads_notes h.world _
      · exact .refl _
    · exact .refl _
  | operation op => exact World.leads_of_eq (Nat.le_refl _) rfl rfl
  | command r => exact (World.command_leads h.world r).2
  | wake t => exact World.leads_wake h.world t
  | elapse nanos => exact World.leads_arrive (Nat.le_add_right ..)

theorem run_leads (h : History) (es : List Event) : h.world.Leads (h.run es).world :=
  run_induction (P := fun h' => h.world.Leads h'.world) (.refl _)
    (fun h' e hl => hl.trans (next_leads h' e)) es

/-- A token that is not cancelled in the end has not been cancelled before. -/
theorem live_of_run {h : History} {es : List Event} {token : String}
    (hc : (h.run es).world.isCancelled token = false) : h.world.isCancelled token = false := by
  refine Bool.eq_false_iff.mpr fun hx => ?_
  have hx' := (run_leads h es).cancelled token hx
  rw [hc] at hx'
  cases hx'

end History

end StreamWorker
