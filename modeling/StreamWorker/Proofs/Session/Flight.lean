import StreamWorker.Proofs.Session.World

/-! Where a call stands after each of its operations. A call that is cancelled ends without asking for
its operation; otherwise its operation is performed on the store, and the answer alone decides whether
the call goes on, waits or ends. -/

namespace StreamWorker

/-- How far a call has got. -/
inductive Course where
  /-- Asks for the operation of its stage next. -/
  | running (f : Flight)
  /-- Waits for an operation that has stalled. -/
  | held (f : Flight)
  | ended (e : Ending Success)

/-- How far a call has got after a step. A step that leaves a call as it was has stalled. -/
def Course.ofStep (f : Flight) : Flight ⊕ Ending Success → Course
  | .inl g => if g = f then .held f else .running g
  | .inr e => .ended e

def Course.ofReaction (f : Flight) (r : Reaction) : Course :=
  match r.next with
  | .inl stage => .running { f with stage }
  | .inr result => .ended (.finished result)

/-- How far a call has got once the operation of its stage has come to this. -/
def Flight.answered (f : Flight) : Response (f.worker.operation f.stage).Answer → Course
  | .answer a => .ofReaction f (f.worker.react f.stage (.ok a))
  | .failure e => .ofReaction f (f.worker.react f.stage (.error e))
  | .stalled => .held f
  | .broken b => .ended (.broken b)

namespace Worker

/-- A call that is cancelled ends and says so. -/
theorem cancel_next (w : Worker) (s : Stage) : (w.cancel s).next = .inr (.error .cancelled) := by
  cases s <;> rfl

/-- Only a claim that succeeded leads to another stage. -/
theorem react_next_stage {w : Worker} {s s' : Stage}
    {answer : Except Failure (w.operation s).Answer} (h : (w.react s answer).next = .inl s') :
    ∃ message result, s = .claiming message result ∧ s' = .acknowledging message := by
  cases s with
  | reading => cases h
  | claiming message result =>
    match answer, h with
    | .ok true, h => exact ⟨message, result, rfl, (Sum.inl.inj h).symm⟩
    | .ok false, h => cases h
    | .error f, h => cases h
  | acknowledging message =>
    match answer, h with
    | .ok n, h => cases h
    | .error f, h => cases h
  | beating value expiry => cases h

end Worker

namespace World

variable {w : World} {f : Flight}

theorem stepFlight_of_cancelled (h : w.isCancelled f.token = true) :
    w.stepFlight f =
      (w.notes (f.worker.cancel f.stage).notes, .inr (.finished (.error .cancelled))) := by
  rw [stepFlight, if_pos h, react, Worker.cancel_next]

/-- A call that is not cancelled performs the operation of its stage. -/
theorem stepFlight_store (h : ¬ w.isCancelled f.token = true) :
    (w.stepFlight f).1.store =
      (w.store.perform w.now w.clock (f.worker.operation f.stage)).1 := by
  rw [stepFlight, if_neg h]
  cases w.store.perform w.now w.clock (f.worker.operation f.stage) with
  | mk store response => cases response <;> simp [react]

theorem ofStep_react (w : World) (f : Flight) (answer : Except Failure (f.worker.operation f.stage).Answer) :
    Course.ofStep f (w.react f (f.worker.react f.stage answer)).2 =
      .ofReaction f (f.worker.react f.stage answer) := by
  cases h : (f.worker.react f.stage answer).next with
  | inr result => simp [react, h, Course.ofStep, Course.ofReaction]
  | inl stage =>
    obtain ⟨message, result, hs, rfl⟩ := Worker.react_next_stage h
    have hne : ({ f with stage := .acknowledging message } : Flight) ≠ f := fun e => by
      have := congrArg Flight.stage e
      rw [hs] at this
      cases this
    simp [react, h, Course.ofStep, Course.ofReaction, hne]

/-- Where a call stands is decided by the answer to its operation. -/
theorem ofStep_stepFlight (h : ¬ w.isCancelled f.token = true) :
    Course.ofStep f (w.stepFlight f).2 =
      f.answered (w.store.perform w.now w.clock (f.worker.operation f.stage)).2 := by
  rw [stepFlight, if_neg h]
  cases w.store.perform w.now w.clock (f.worker.operation f.stage) with
  | mk store response =>
    cases response with
    | answer a => exact ofStep_react _ f (.ok a)
    | failure e => exact ofStep_react _ f (.error e)
    | stalled => simp [Course.ofStep, Flight.answered]
    | broken b => rfl

/-- The store and the call after an operation that came to this. -/
theorem stepFlight_of_perform {store : Store} {response : Response (f.worker.operation f.stage).Answer}
    (h : ¬ w.isCancelled f.token = true)
    (hp : w.store.perform w.now w.clock (f.worker.operation f.stage) = (store, response)) :
    (w.stepFlight f).1.store = store ∧ Course.ofStep f (w.stepFlight f).2 = f.answered response := by
  rw [stepFlight_store h, ofStep_stepFlight h, hp]
  exact ⟨rfl, rfl⟩

/-- A step concerns the store and what is reported. -/
theorem stepFlight_eq (w : World) (f : Flight) :
    ∃ trace ledger, (w.stepFlight f).1 = { w with store := (w.stepFlight f).1.store, trace, ledger } := by
  have hn (v : World) (l : List Note) (hv : ∃ store, v = { w with store }) :
      ∃ trace ledger, v.notes l = { w with store := (v.notes l).store, trace, ledger } := by
    obtain ⟨store, rfl⟩ := hv
    obtain ⟨trace, ledger, h⟩ := notes_eq { w with store } l
    exact ⟨trace, ledger, by rw [h]⟩
  by_cases hx : w.isCancelled f.token = true
  · rw [stepFlight_of_cancelled hx]
    exact hn w _ ⟨w.store, rfl⟩
  · rw [stepFlight, if_neg hx]
    cases w.store.perform w.now w.clock (f.worker.operation f.stage) with
    | mk store response =>
      cases response with
      | answer a => exact hn { w with store } _ ⟨store, rfl⟩
      | failure e => exact hn { w with store } _ ⟨store, rfl⟩
      | stalled => exact hn { w with store } [] ⟨store, rfl⟩
      | broken b => exact hn { w with store } _ ⟨store, rfl⟩

theorem leads_stepFlight (w : World) (f : Flight) : Leads w (w.stepFlight f).1 := by
  have hn (store : Store) (l : List Note) : Leads w (({ w with store } : World).notes l) := by
    have hs : Leads w { w with store } := leads_of_eq (Nat.le_refl _) rfl rfl
    exact hs.trans (leads_notes _ l)
  by_cases h : w.isCancelled f.token = true
  · rw [stepFlight_of_cancelled h]
    exact leads_notes w _
  · rw [stepFlight, if_neg h]
    cases w.store.perform w.now w.clock (f.worker.operation f.stage) with
    | mk store response =>
      cases response with
      | answer a => exact hn store _
      | failure e => exact hn store _
      | stalled => exact hn store []
      | broken b => exact hn store _

/-- A call that waits ends once it is cancelled, and until then stays as it is. -/
theorem resume_eq (w : World) (f : Flight) :
    w.resume f = if w.isCancelled f.token = true then
      (w.notes (f.worker.cancel f.stage).notes, .inr (.finished (.error .cancelled)))
    else (w, .inl f) := by
  rw [resume]
  split
  · next h => rw [runFlight, stepFlight_of_cancelled h]
  · rfl

theorem leads_resume (w : World) (f : Flight) : Leads w (w.resume f).1 := by
  rw [resume_eq]
  split
  · exact leads_notes w _
  · exact Leads.refl w

end World

end StreamWorker
