import StreamWorker.Proofs.Session.Flight
import StreamWorker.Proofs.Session.HeartbeatLoops

/-! What is counted. A call is counted when it gives a result, and not before: a read once by what it
gave, a publication once by what it gave and, if it got as far as the acknowledgment, once more by the
answer to that. A heartbeat loop counts each write that ended. Nothing else in a session counts. -/

namespace StreamWorker

/-! ### Notes -/

def Note.tally? : Note → Option Tally
  | .count t => some t
  | .event .. | .closed .. => none

/-- What notes count, in order. -/
def tallies (l : List Note) : List Tally := l.filterMap Note.tally?

@[simp] theorem tallies_nil : tallies [] = [] := rfl

@[simp] theorem tallies_append (l l' : List Note) : tallies (l ++ l') = tallies l ++ tallies l' :=
  List.filterMap_append

@[simp] theorem tallies_count (t : Tally) (l : List Note) :
    tallies (.count t :: l) = t :: tallies l := rfl

@[simp] theorem tallies_event (level : Level) (message : String) (fields : Fields)
    (span : Option String) (l : List Note) :
    tallies (.event level message fields span :: l) = tallies l := rfl

@[simp] theorem tallies_closed (span : String) (fields : Fields) (l : List Note) :
    tallies (.closed span fields :: l) = tallies l := rfl

theorem ReadOutcome.eq_of_label {o o' : ReadOutcome} (h : o.label = o'.label) : o = o' := by
  cases o <;> cases o' <;> first | rfl | exact absurd h (by decide)

theorem PublishOutcome.eq_of_label {o o' : PublishOutcome} (h : o.label = o'.label) : o = o' := by
  cases o <;> cases o' <;> first | rfl | exact absurd h (by decide)

theorem Tally.eq_of_heartbeat_labels {ok ok' : Bool}
    (h : (Tally.heartbeat ok).labels = (Tally.heartbeat ok').labels) : ok = ok' := by
  cases ok <;> cases ok' <;> first | rfl | exact absurd h (by decide)

/-- What is counted apart is shown apart, under another name or with other labels. -/
theorem Tally.eq_of_shown {t u : Tally} (hc : t.counter = u.counter) (hl : t.labels = u.labels) :
    t = u := by
  have hparts {o o' s s' : String} (h : ["result=" ++ o, "stream=" ++ s] =
      ["result=" ++ o', "stream=" ++ s']) : o = o' ∧ s = s' :=
    ⟨(String.append_right_inj _).mp (List.cons.inj h).1,
      (String.append_right_inj _).mp (List.cons.inj (List.cons.inj h).2).1⟩
  cases t with
  | heartbeat ok =>
    cases u with
    | heartbeat ok' => rw [eq_of_heartbeat_labels hl]
    | read | result | acknowledgment => exact absurd hc (by simp [counter])
  | read s o =>
    cases u with
    | read s' o' =>
      obtain ⟨ho, rfl⟩ := hparts hl
      rw [ReadOutcome.eq_of_label ho]
    | heartbeat | result | acknowledgment => exact absurd hc (by simp [counter])
  | result s o =>
    cases u with
    | result s' o' =>
      obtain ⟨ho, rfl⟩ := hparts hl
      rw [PublishOutcome.eq_of_label ho]
    | heartbeat | read | acknowledgment => exact absurd hc (by simp [counter])
  | acknowledgment s ok =>
    cases u with
    | acknowledgment s' ok' =>
      obtain ⟨hok, rfl⟩ := hparts hl
      rw [eq_of_heartbeat_labels (congrArg (["result=" ++ ·]) hok)]
    | heartbeat | read | result => exact absurd hc (by simp [counter])

theorem World.note_sum (w : World) (n : Note) (t : Tally) :
    (w.note n).ledger.sum t = w.ledger.sum t + (tallies [n]).count t := by
  cases n with
  | event | closed => rfl
  | count u =>
    have hadd : (w.note (.count u)).ledger = w.ledger.add u := rfl
    rw [hadd, Ledger.sum_add]
    by_cases h : u = t <;> simp [h]

/-- Notes add to the ledger what they count. -/
theorem World.notes_sum (w : World) (l : List Note) (t : Tally) :
    (w.notes l).ledger.sum t = w.ledger.sum t + (tallies l).count t := by
  induction l generalizing w with
  | nil => rfl
  | cons n l ih =>
    have hcons : w.notes (n :: l) = (w.note n).notes l := rfl
    rw [hcons, ih, note_sum, Nat.add_assoc, ← List.count_append, ← tallies_append,
      List.singleton_append]

/-! ### Calls -/

/-- How a read counts that gives this. -/
def ReadOutcome.of : Except Failure Success → ReadOutcome
  | .ok (.message ..) => .message
  | .ok _ => .empty
  | .error _ => .error

/-- How a publication counts that gives this. -/
def PublishOutcome.of : Except Failure Success → PublishOutcome
  | .ok _ => .ok
  | .error (.resultExists _) => .duplicate
  | .error _ => .error

namespace Worker

variable (w : Worker)

/-- What is counted when a call gives a result at a stage. -/
def counts : Stage → Except Failure Success → List Tally
  | .reading, r => [.read w.settings.stream (.of r)]
  | .claiming .., r => [.result w.settings.stream (.of r)]
  | .acknowledging _, r => [.acknowledgment w.settings.stream r.isOk, .result w.settings.stream (.of r)]
  | .beating .., _ => []

theorem finishPublish_tallies (message : String) (r : Except Failure Success) :
    tallies (w.finishPublish message r).notes = [.result w.settings.stream (.of r)] := by
  cases r with
  | ok s => rfl
  | error f => cases f <;> rfl

theorem finishRead_tallies (reply : Except Failure (Option (List Batch))) :
    ∃ r, (w.finishRead reply).next = .inr r ∧
      tallies (w.finishRead reply).notes = [.read w.settings.stream (.of r)] := by
  have hdebug (l : Option String) (f : String → Note) (hf : ∀ id, (f id).tally? = none) :
      tallies (l.toList.map f) = [] := by
    cases l with
    | none => rfl
    | some id => simp [tallies, hf]
  refine ⟨_, rfl, ?_⟩
  simp only [finishRead, tallies_append]
  rw [hdebug _ _ fun _ => rfl, List.nil_append, tallies_count]
  congr 1
  cases reply with
  | error f => rfl
  | ok batches =>
    dsimp only
    cases classify (Payload.decode w.kind) batches with
    | error f => rfl
    | ok m => cases m <;> rfl

/-- A call counts only when it gives a result. -/
theorem react_tallies (s : Stage) (answer : Except Failure (w.operation s).Answer) :
    tallies (w.react s answer).notes =
      match (w.react s answer).next with
      | .inl _ => []
      | .inr r => w.counts s r := by
  cases s with
  | reading =>
    obtain ⟨r, hr, ht⟩ := w.finishRead_tallies answer
    rw [react, hr, ht]
    rfl
  | claiming message result =>
    match answer with
    | .ok true => rfl
    | .ok false => exact w.finishPublish_tallies message (.error (.resultExists message))
    | .error f => exact w.finishPublish_tallies message (.error (f.within (.unpublished message)))
  | acknowledging message =>
    match answer with
    | .ok n =>
      have hmissed : tallies (w.react (.acknowledging message) (.ok n)).notes =
          .acknowledgment w.settings.stream true :: tallies (w.finishPublish message (.ok .done)).notes := by
        simp only [react, afterAcknowledge]
        split <;> rfl
      rw [hmissed, finishPublish_tallies]
      rfl
    | .error f =>
      have hfinish := w.finishPublish_tallies message (.error (f.within (.unacknowledged message)))
      exact congrArg (Tally.acknowledgment w.settings.stream false :: ·) hfinish
  | beating value expiry => rfl

theorem abandoned_tallies (s : Stage) : tallies (w.abandoned s) = [] := by
  cases s <;> rfl

end Worker

/-- What is counted when a call gets this far. -/
def Flight.counts (f : Flight) : Course → List Tally
  | .ended (.finished r) => f.worker.counts f.stage r
  | _ => []

namespace World

variable (w : World) (f : Flight)

theorem react_sum (answer : Except Failure (f.worker.operation f.stage).Answer) (t : Tally) :
    (w.react f (f.worker.react f.stage answer)).1.ledger.sum t = w.ledger.sum t +
      (f.counts (.ofStep f (w.react f (f.worker.react f.stage answer)).2)).count t := by
  have hnotes : (w.react f (f.worker.react f.stage answer)).1 =
    w.notes (f.worker.react f.stage answer).notes := rfl
  rw [ofStep_react, hnotes, notes_sum, Worker.react_tallies, Course.ofReaction]
  cases (f.worker.react f.stage answer).next <;> rfl

/-- Whatever a call does, what it adds to the ledger is what is counted for getting this far. -/
theorem stepFlight_sum (t : Tally) : (w.stepFlight f).1.ledger.sum t =
    w.ledger.sum t + (f.counts (.ofStep f (w.stepFlight f).2)).count t := by
  rw [stepFlight]
  split
  · exact w.react_sum f (.error .cancelled) t
  · cases w.store.perform w.now w.clock (f.worker.operation f.stage) with
    | mk store response =>
      cases response with
      | answer a => exact react_sum { w with store } f (.ok a) t
      | failure e => exact react_sum { w with store } f (.error e) t
      | stalled => simp [Course.ofStep, Flight.counts]
      | broken b =>
        dsimp only
        rw [notes_sum, Worker.abandoned_tallies]
        rfl

theorem resume_sum (t : Tally) : (w.resume f).1.ledger.sum t =
    w.ledger.sum t + (f.counts (.ofStep f (w.resume f).2)).count t := by
  rw [resume_eq]
  split
  · rw [notes_sum, Worker.cancel, Worker.react_tallies, ← Worker.cancel, Worker.cancel_next]
    rfl
  · simp [Course.ofStep, Flight.counts]

/-- Giving up a call counts nothing. -/
theorem abandon_sum (t : Tally) : (w.abandon f).ledger.sum t = w.ledger.sum t := by
  rw [abandon, notes_sum, Worker.abandoned_tallies, List.count_nil, Nat.add_zero]

end World

/-! ### Loops and members -/

namespace World

variable {w : World} {id : Nat} {t : Tally}

theorem endLoop_ledger (w : World) (id : Nat) (l : HeartbeatLoop) :
    (w.endLoop id l).ledger = w.ledger := rfl

/-- A beat counts as a heartbeat if its write was answered. -/
theorem beat_sum (w : World) (id : Nat) (l : HeartbeatLoop) (d : Nat) (ht : t ≠ .heartbeat false) :
    (w.beat id l d).ledger.sum t = w.ledger.sum t +
      if t = .heartbeat true ∧
        (w.store.set w.now l.worker.heartbeatKey (toString w.clock) l.expiry).2 = .answer () then 1
      else 0 := by
  cases h : w.store.set w.now l.worker.heartbeatKey (toString w.clock) l.expiry with
  | mk store response =>
    cases response with
    | answer a =>
      have hl : (w.beat id l d).ledger = w.ledger.add (.heartbeat true) := by rw [beat, h]; rfl
      rw [hl, Ledger.sum_add]
      by_cases he : Tally.heartbeat true = t
      · simp [he]
      · rw [if_neg he, if_neg fun hx => he hx.1.symm, Nat.add_zero]
    | failure f =>
      have hl : (w.beat id l d).ledger = w.ledger.add (.heartbeat false) := by rw [beat, h]; rfl
      rw [hl, Ledger.sum_add, if_neg ht.symm, if_neg (by simp), Nat.add_zero]
    | stalled =>
      have hl : (w.beat id l d).ledger = w.ledger := by rw [beat, h]; rfl
      rw [hl, if_neg (by simp), Nat.add_zero]
    | broken b =>
      have hl : (w.beat id l d).ledger = w.ledger := by rw [beat, h]; rfl
      rw [hl, if_neg (by simp), Nat.add_zero]

/-- The loop of an id writes if it is let go on, and its write is answered. -/
def shows (w : World) (id : Nat) : Bool :=
  (w.beating? id).any fun l =>
    (w.store.set w.now l.worker.heartbeatKey (toString w.clock) l.expiry).2 = .answer ()

/-- A loop that is let go on counts nothing but its write. -/
theorem runLoop_sum (w : World) (id : Nat) (ht : t ≠ .heartbeat false) :
    (w.runLoop id).ledger.sum t = w.ledger.sum t + if t = .heartbeat true ∧ w.shows id then 1 else 0 := by
  have hsame {v : World} (hb : w.beating? id = none) (hv : v.ledger.sum t = w.ledger.sum t) :
      v.ledger.sum t = w.ledger.sum t + if t = .heartbeat true ∧ w.shows id then 1 else 0 := by
    rw [shows, hb, if_neg (by simp), Nat.add_zero, hv]
  cases hl : w.loops.get? id with
  | none => exact hsame (by simp [beating?, hl]) (by rw [runLoop, hl])
  | some l =>
    have hb : w.beating? id = if due w.now l then some l else none := by
      simp [beating?, hl, Option.filter]
    cases hc : l.cancelled with
    | true =>
      have hd : due w.now l = false := by simp [due, hc]
      rw [hd] at hb
      refine hsame hb ?_
      cases hp : l.phase with
      | ended => simp only [runLoop, hl, hp]
      | fresh =>
        simp only [runLoop, hl, hp, hc, if_true, endLoop_ledger]
        exact w.note_sum _ t
      | ticking d => simp only [runLoop, hl, hp, hc, if_true, endLoop_ledger]
      | writing =>
        simp only [runLoop, hl, hp, hc, if_true, endLoop_ledger]
        have hfailed (n : Note) (hn : n.tally? = none) :
            (w.notes [.count (.heartbeat false), n]).ledger.sum t = w.ledger.sum t := by
          rw [notes_sum, tallies_count, tallies, List.filterMap_cons_none hn, List.filterMap_nil,
            List.count_singleton, if_neg (by simpa using ht.symm), Nat.add_zero]
        exact hfailed _ rfl
    | false =>
      have hbeat {v : World} (d : Nat) (hd : due w.now l = true) (hv : v.store = w.store ∧
          v.now = w.now ∧ v.clock = w.clock ∧ v.ledger.sum t = w.ledger.sum t) :
          (v.beat id l d).ledger.sum t =
            w.ledger.sum t + if t = .heartbeat true ∧ w.shows id then 1 else 0 := by
        obtain ⟨hs, hn, hk, hsum⟩ := hv
        rw [hd, if_pos rfl] at hb
        rw [beat_sum v id l d ht, hs, hn, hk, hsum]
        simp [shows, hb]
      cases hp : l.phase with
      | fresh =>
        simp only [runLoop, hl, hp, hc, Bool.false_eq_true, if_false]
        exact hbeat _ (by simp [due, hp, hc]) ⟨rfl, rfl, rfl, w.note_sum _ t⟩
      | ticking d =>
        by_cases hd : Instant.ceilMilli d ≤ w.now
        · simp only [runLoop, hl, hp, hc, hd, Bool.false_eq_true, if_false, if_true]
          exact hbeat d (by simp [due, hp, hc, hd]) ⟨rfl, rfl, rfl, rfl⟩
        · refine hsame (by rw [hb, if_neg (by simp [due, hp, hd])]) ?_
          simp only [runLoop, hl, hp, hc, hd, Bool.false_eq_true, if_false]
      | writing =>
        refine hsame (by rw [hb, if_neg (by simp [due, hp])]) ?_
        simp only [runLoop, hl, hp, hc, Bool.false_eq_true, if_false]
      | ended =>
        refine hsame (by rw [hb, if_neg (by simp [due, hp])]) ?_
        simp only [runLoop, hl, hp]

theorem cancelToken_ledger (w : World) (name : String) : (w.cancelToken name).ledger = w.ledger := by
  rcases cancelToken_eq w name with h | ⟨loops, ready, h⟩ <;> rw [h]

/-- A task of the background counts nothing but the write of its loop. -/
theorem wake_sum (w : World) (task : Task) (ht : t ≠ .heartbeat false) :
    (w.wake task).ledger.sum t = w.ledger.sum t +
      if t = .heartbeat true ∧ task.loop?.any w.shows then 1 else 0 := by
  cases task with
  | loop id => exact runLoop_sum { w with ready := w.ready.erase (.loop id) } id ht
  | cancel token =>
    rw [wake, runTask, cancelToken_ledger, if_neg (by simp [Task.loop?])]
    rfl

theorem start_sum (w : World) (name token : String) (t : Tally) :
    (w.start name token).1.ledger.sum t = w.ledger.sum t := by
  unfold start
  split
  · rfl
  · split
    · exact w.note_sum _ t
    · split <;> rfl

theorem command_ledger (w : World) (r : Request) : (w.command r).ledger = w.ledger := by
  cases r with
  | cancel token => exact cancelToken_ledger w token
  | cancelAfter token millis =>
    rw [command]
    split <;> rfl
  | _ => rfl

end World

end StreamWorker
