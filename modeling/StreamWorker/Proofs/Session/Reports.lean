import StreamWorker.Proofs.Session.Tallies

/-! What is reported, note by note. Every move of a session adds the notes of one call or of one loop to
the records and to the ledger, or none: a call those of its reaction, or of its being given up, and a loop
those of its beat or, once it was cancelled, those of its end. -/

namespace StreamWorker

/-! ### Notes -/

/-- The note is kept as a record, and not only counted. -/
def Note.isRecord (n : Note) : Bool := n.tally?.isNone

namespace World

variable {w v u : World} {ns ns' : List Note} {id : Nat} {l : HeartbeatLoop}

/-- Exactly these notes have been added. -/
structure Reports (ns : List Note) (w w' : World) : Prop where
  trace : w'.trace.toList = w.trace.toList ++ ns.filter Note.isRecord
  ledger : w'.ledger = (tallies ns).foldl Ledger.add w.ledger

namespace Reports

theorem of_eq (ht : v.trace = w.trace) (hl : v.ledger = w.ledger) : Reports [] w v :=
  ⟨by rw [ht, List.filter_nil, List.append_nil], by rw [hl, tallies_nil, List.foldl_nil]⟩

theorem trans (h : Reports ns w v) (h' : Reports ns' v u) : Reports (ns ++ ns') w u where
  trace := by rw [h'.trace, h.trace, List.filter_append, List.append_assoc]
  ledger := by rw [h'.ledger, h.ledger, tallies_append, List.foldl_append]

/-- What happens to anything else does not matter. -/
theorem congr (h : Reports ns w v) {w' v' : World} (hw : w'.trace = w.trace ∧ w'.ledger = w.ledger)
    (hv : v'.trace = v.trace ∧ v'.ledger = v.ledger) : Reports ns w' v' where
  trace := by rw [hv.1, hw.1, h.trace]
  ledger := by rw [hv.2, hw.2, h.ledger]

theorem sum (h : Reports ns w v) (t : Tally) :
    v.ledger.sum t = w.ledger.sum t + (tallies ns).count t := by
  rw [h.ledger]
  generalize w.ledger = ledger
  induction tallies ns generalizing ledger with
  | nil => rfl
  | cons u ts ih =>
    rw [List.foldl_cons, ih, Ledger.sum_add, List.count_cons]
    by_cases hu : u = t
    · simp [hu]
      omega
    · simp [hu]

end Reports

theorem reports_note (w : World) (n : Note) : Reports [n] w (w.note n) := by
  cases n with
  | count t => exact ⟨(List.append_nil _).symm, rfl⟩
  | event | closed => exact ⟨Array.toList_push, rfl⟩

theorem reports_notes (w : World) (ns : List Note) : Reports ns w (w.notes ns) := by
  induction ns generalizing w with
  | nil => exact .of_eq rfl rfl
  | cons n ns ih => exact (reports_note w n).trans (ih (w.note n))

end World

/-! ### Loops -/

namespace HeartbeatLoop

variable (l : HeartbeatLoop)

def record (level : Level) (message : String) (more : Fields) : Note :=
  .event level message (("consumer", .text l.worker.id) :: more) none

def greeting : Note := l.record .debug "heartbeat started"
  [("interval_ms", .number (l.interval.millis % UInt64.size)),
    ("expiry_ms", .number (l.expiry.millis % UInt64.size))]

def stopped : Note := l.record .debug "heartbeat stopped" []

/-- What is reported of a write that failed. -/
def missed (level : Level) (f : Failure) : List Note :=
  [.count (.heartbeat false), l.record level "updating heartbeat" [("error", .text f.text)]]

/-- What a loop reports when it ends, by what it was about to do. -/
def farewell : List Note :=
  match l.phase with
  | .fresh => [l.greeting, l.stopped]
  | .ticking _ => [l.stopped]
  | .writing => l.missed .error .cancelled ++ [l.stopped]
  | .ended => []

/-- What a loop reports of the answer to its write. -/
def beatNotes : Response Unit → List Note
  | .answer () => [.count (.heartbeat true)]
  | .failure f => l.missed .info f
  | .stalled | .broken _ => []

end HeartbeatLoop

namespace World

variable {w : World} {id : Nat} {l : HeartbeatLoop}

theorem reports_endLoop (w : World) (id : Nat) (l : HeartbeatLoop) :
    Reports [l.stopped] w (w.endLoop id l) :=
  (reports_note (w.setPhase id l .ended) l.stopped).congr ⟨rfl, rfl⟩ ⟨rfl, rfl⟩

/-- The answer that a loop gets if it writes now. -/
def answerTo (w : World) (l : HeartbeatLoop) : Response Unit :=
  (w.store.set w.now l.worker.heartbeatKey (toString w.clock) l.expiry).2

theorem reports_beat (w : World) (id : Nat) (l : HeartbeatLoop) (deadline : Nat) :
    Reports (l.beatNotes (w.answerTo l)) w (w.beat id l deadline) := by
  have key (ns : List Note) (v : World) (hv : v.trace = w.trace ∧ v.ledger = w.ledger) :
      Reports ns w ((v.notes ns).awaitTick id l deadline) :=
    (reports_notes v ns).congr ⟨hv.1.symm, hv.2.symm⟩ ⟨rfl, rfl⟩
  rw [answerTo]
  cases h : w.store.set w.now l.worker.heartbeatKey (toString w.clock) l.expiry with
  | mk store response =>
    cases response with
    | answer a =>
      rw [beat, h]
      exact key [.count (.heartbeat true)] { w with store } ⟨rfl, rfl⟩
    | failure f =>
      rw [beat, h]
      exact key (l.missed .info f) { w with store } ⟨rfl, rfl⟩
    | stalled =>
      rw [beat, h]
      exact .of_eq rfl rfl
    | broken b =>
      rw [beat, h]
      exact .of_eq rfl rfl

/-- What a loop reports when it is let go on. -/
def loopNotes (w : World) (l : HeartbeatLoop) : List Note :=
  if l.cancelled then l.farewell
  else match l.phase with
    | .fresh => l.greeting :: l.beatNotes (w.answerTo l)
    | .ticking deadline => if Instant.ceilMilli deadline ≤ w.now then l.beatNotes (w.answerTo l) else []
    | .writing | .ended => []

/-- What is reported when a task is run. -/
def taskNotes (w : World) : Task → List Note
  | .loop id => ((w.loops.get? id).map w.loopNotes).getD []
  | .cancel _ => []

theorem reports_runLoop (hl : w.loops.get? id = some l) : Reports (w.loopNotes l) w (w.runLoop id) := by
  rw [loopNotes, runLoop, hl]
  dsimp only
  cases hc : l.cancelled with
  | true =>
    rw [if_pos rfl, HeartbeatLoop.farewell]
    cases hp : l.phase with
    | fresh => exact (reports_note w l.greeting).trans (reports_endLoop (w.note l.greeting) id l)
    | ticking deadline => exact reports_endLoop w id l
    | writing =>
      exact (reports_notes w (l.missed .error .cancelled)).trans (reports_endLoop (w.notes _) id l)
    | ended => exact .of_eq rfl rfl
  | false =>
    rw [if_neg (by simp)]
    cases hp : l.phase with
    | fresh =>
      have ha : (w.note l.greeting).answerTo l = w.answerTo l := rfl
      exact (reports_note w l.greeting).trans (ha ▸ reports_beat (w.note l.greeting) id l w.now)
    | ticking deadline =>
      dsimp only
      by_cases hd : Instant.ceilMilli deadline ≤ w.now
      · rw [if_pos hd, if_neg (by simp), if_pos hd]
        exact reports_beat w id l deadline
      · rw [if_neg hd, if_neg (by simp), if_neg hd]
        exact .of_eq rfl rfl
    | writing => exact .of_eq rfl rfl
    | ended => exact .of_eq rfl rfl

theorem reports_cancelToken (w : World) (name : String) : Reports [] w (w.cancelToken name) := by
  rcases cancelToken_eq w name with h | ⟨loops, ready, h⟩ <;> rw [h] <;> exact .of_eq rfl rfl

theorem reports_runTask (w : World) (t : Task) : Reports (w.taskNotes t) w (w.runTask t) := by
  cases t with
  | cancel token => exact reports_cancelToken w token
  | loop id =>
    rw [taskNotes, runTask]
    cases hl : w.loops.get? id with
    | none =>
      rw [runLoop, hl]
      exact .of_eq rfl rfl
    | some l => exact reports_runLoop hl

theorem reports_wake (w : World) (t : Task) : Reports (w.taskNotes t) w (w.wake t) := by
  have hs : taskNotes { w with ready := w.ready.erase t } t = w.taskNotes t := by cases t <;> rfl
  exact (hs ▸ reports_runTask { w with ready := w.ready.erase t } t).congr ⟨rfl, rfl⟩ ⟨rfl, rfl⟩

/-! ### Members and commands -/

/-- What is reported when a member is started. -/
def startNotes (w : World) (name : String) : List Note :=
  match w.members.get? name with
  | none => []
  | some m =>
    if w.isRunning m then
      [.event .warn "consumer already started" [("consumer", .text m.worker.id)] none]
    else []

theorem reports_start (w : World) (name token : String) :
    Reports (w.startNotes name) w (w.start name token).1 := by
  cases hm : w.members.get? name with
  | none =>
    simp only [start, startNotes, hm]
    exact .of_eq rfl rfl
  | some m =>
    by_cases hr : w.isRunning m = true
    · simp only [start, startNotes, hm, if_pos hr]
      exact reports_note w _
    · simp only [start, startNotes, hm, if_neg hr]
      split <;> exact .of_eq rfl rfl

theorem reports_command (w : World) (r : Request) : Reports [] w (w.command r) := by
  cases r with
  | cancel token => exact reports_cancelToken w token
  | cancelAfter token millis =>
    rw [command]
    split <;> exact .of_eq rfl rfl
  | _ => exact .of_eq rfl rfl

/-! ### Calls -/

/-- What is reported when a call goes on by one operation. -/
def stepNotes (w : World) (f : Flight) : List Note :=
  if w.isCancelled f.token then (f.worker.cancel f.stage).notes
  else match (w.store.perform w.now w.clock (f.worker.operation f.stage)).2 with
    | .answer a => (f.worker.react f.stage (.ok a)).notes
    | .failure e => (f.worker.react f.stage (.error e)).notes
    | .stalled => []
    | .broken _ => f.worker.abandoned f.stage

theorem reports_stepFlight (w : World) (f : Flight) :
    Reports (w.stepNotes f) w (w.stepFlight f).1 := by
  unfold stepFlight stepNotes
  split
  · exact reports_notes w _
  · cases w.store.perform w.now w.clock (f.worker.operation f.stage) with
    | mk store response =>
      cases response with
      | answer a => exact (reports_notes { w with store } _).congr ⟨rfl, rfl⟩ ⟨rfl, rfl⟩
      | failure e => exact (reports_notes { w with store } _).congr ⟨rfl, rfl⟩ ⟨rfl, rfl⟩
      | stalled => exact .of_eq rfl rfl
      | broken b => exact (reports_notes { w with store } _).congr ⟨rfl, rfl⟩ ⟨rfl, rfl⟩

/-- What is reported when a call that waits is looked at. -/
def resumeNotes (w : World) (f : Flight) : List Note :=
  if w.isCancelled f.token then (f.worker.cancel f.stage).notes else []

theorem reports_resume (w : World) (f : Flight) :
    Reports (w.resumeNotes f) w (w.resume f).1 := by
  rw [resume_eq, resumeNotes]
  split
  · exact reports_notes w _
  · exact .of_eq rfl rfl

theorem reports_abandon (w : World) (f : Flight) :
    Reports (f.worker.abandoned f.stage) w (w.abandon f) := reports_notes w _

end World

end StreamWorker
