import StreamWorker.Proofs.History.LoopEvents
import StreamWorker.Proofs.Session.Reports

/-! What is reported in a history. An event reports the notes of one call or of one loop, or a warning, or
nothing; the records and the ledger of a session are what its events have reported, in order. -/

namespace StreamWorker.History

variable {h : History} {e : Event}

/-- What is reported in an event. -/
def said (h : History) : Event → List Note
  | .start member _ => h.world.startNotes member
  | .proceed n =>
    match (h.calls[n]?).map CallRecord.course with
    | some (.running f) => h.world.stepNotes f
    | some (.held f) => h.world.resumeNotes f
    | _ => []
  | .abandon n =>
    match (h.calls[n]?).map CallRecord.course with
    | some (.running f) | some (.held f) => f.worker.abandoned f.stage
    | _ => []
  | .wake t => h.world.taskNotes t
  | _ => []

theorem reports_next (h : History) (e : Event) : World.Reports (h.said e) h.world (h.next e).world := by
  cases e with
  | hire name id settings kind =>
    obtain ⟨_, _, _, hw⟩ := World.hire_eq h.world name id settings kind
    rw [next, hw]
    exact .of_eq rfl rfl
  | start member token => exact World.reports_start h.world member token
  | stop member =>
    obtain ⟨_, _, _, hw⟩ := World.stop_eq h.world member
    rw [next, hw]
    exact .of_eq rfl rfl
  | dismiss member =>
    obtain ⟨_, _, _, hw⟩ := World.dismiss_eq h.world member
    rw [next, hw]
    exact .of_eq rfl rfl
  | begin member token call =>
    rw [next]
    split <;> exact .of_eq rfl rfl
  | proceed n =>
    rw [next, said]
    cases hc : h.calls[n]? with
    | none => exact .of_eq rfl rfl
    | some c =>
      rw [Option.map_some]
      cases hf : c.course with
      | running f =>
        simp only [proceed, hf]
        exact World.reports_stepFlight h.world f
      | held f =>
        simp only [proceed, hf]
        exact World.reports_resume h.world f
      | ended x =>
        simp only [proceed, hf]
        exact .of_eq rfl rfl
  | abandon n =>
    rw [next, said]
    cases hc : h.calls[n]? with
    | none => exact .of_eq rfl rfl
    | some c =>
      rw [Option.map_some]
      cases hf : c.course with
      | running f | held f =>
        simp only [abandon, hf]
        exact World.reports_abandon h.world f
      | ended x =>
        simp only [abandon, hf]
        exact .of_eq rfl rfl
  | operation op => exact .of_eq rfl rfl
  | command r => exact World.reports_command h.world r
  | wake t => exact World.reports_wake h.world t
  | elapse nanos => exact .of_eq rfl rfl

/-- What has been reported in a run, event by event. -/
def speech (h : History) (es : List Event) : List Note := (h.scenes es).flatMap fun p => p.1.said p.2

theorem reports_run (h : History) (es : List Event) :
    World.Reports (h.speech es) h.world (h.run es).world := by
  induction es generalizing h with
  | nil => exact .of_eq rfl rfl
  | cons e es ih => exact (reports_next h e).trans (ih (h.next e))

/-- The records of a session are what has been reported in it. -/
theorem trace_run (clock : Clock) (es : List Event) : ((start clock).run es).world.trace.toList =
    ((start clock).speech es).filter Note.isRecord :=
  (reports_run (start clock) es).trace

theorem sum_run (clock : Clock) (es : List Event) (t : Tally) :
    ((start clock).run es).world.ledger.sum t = (tallies ((start clock).speech es)).count t :=
  ((reports_run (start clock) es).sum t).trans (Nat.zero_add _)

/-- Records of a kind are found event by event. -/
theorem filter_trace_run (clock : Clock) (es : List Event) {p : Note → Bool}
    (hp : ∀ n, p n = true → n.isRecord = true) :
    ((start clock).run es).world.trace.toList.filter p =
      ((start clock).scenes es).flatMap fun s => (s.1.said s.2).filter p := by
  have hall (n : Note) : (p n && n.isRecord) = p n := by
    cases hn : p n with
    | false => rfl
    | true => rw [hp n hn, Bool.and_self]
  simp only [trace_run, List.filter_filter, hall, speech, List.filter_flatMap]

end StreamWorker.History
