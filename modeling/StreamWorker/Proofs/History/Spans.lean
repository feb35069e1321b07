import StreamWorker.Proofs.History.Reconciliation
import StreamWorker.Proofs.History.Trace

/-! The spans of calls. Every read and every publication closes one span when it comes to its end,
whether it gives a result, breaks off or is given up. What the span says was decided by then: for a read
the entry that was delivered, also if its payload makes no sense, and for a publication its outcome, if
it gave one, which is also what is counted. -/

namespace StreamWorker

/-! ### What a call tells -/

/-- The answer to a read delivers an entry if it is the only one of the only batch. -/
theorem deliveredId_eq_some_iff {reply : Option (List Batch)} {id : String} :
    deliveredId reply = some id ↔ ∃ stream fields, reply = some [⟨stream, [⟨id, fields⟩]⟩] := by
  constructor
  · intro h
    obtain ⟨batches, rfl, h⟩ := Option.bind_eq_some_iff.mp h
    obtain ⟨entry, hentry, rfl⟩ := Option.map_eq_some_iff.mp h
    unfold singleEntry at hentry
    split at hentry
    · cases hentry
      exact ⟨_, _, rfl⟩
    · cases hentry
    · cases hentry
  · rintro ⟨stream, fields, rfl⟩
    rfl

/-- What is delivered by what a read has come to. -/
def Response.delivered? : Response (Option (List Batch)) → Option String
  | .answer reply => deliveredId reply
  | .failure _ | .stalled | .broken _ => none

/-- The id of the entry that a read has delivered. -/
def Occurrence.delivered? (o : Occurrence) : Option String :=
  match o.op with
  | .read request => (o.store.perform o.now o.clock (.read request)).2.delivered?
  | _ => none

theorem Occurrence.delivered?_of_read {o : Occurrence} {request : ReadRequest}
    (h : o.op = .read request) :
    o.delivered? = (o.store.perform o.now o.clock (.read request)).2.delivered? := by
  unfold delivered?
  rw [h]

namespace Note

/-- The end of a span, or the record of a delivered message. -/
def isSpan : Note → Bool
  | .closed .. => true
  | .event _ message _ _ => message = "consuming message"
  | .count _ => false

/-- The count of a publication. -/
def isResult : Note → Bool
  | .count (.result ..) => true
  | .event .. | .closed .. | .count _ => false

/-- What a call tells when it comes to its end. -/
def tells (n : Note) : Bool := n.isSpan || n.isResult

end Note

/-- The outcome of a publication by its result, and the text for it. -/
def PublishOutcome.told : Except Failure Success → PublishOutcome × String
  | .ok _ => (.ok, "ok")
  | .error (.resultExists _) => (.duplicate, "duplicate")
  | .error _ => (.error, "error")

namespace Worker

variable (w : Worker)

/-- The record of a message within its span, and the end of the span. -/
def readSpan (delivered : Option String) : List Note :=
  (delivered.toList.map fun id => .event .debug "consuming message"
    [("consumer", .text w.id), ("message_id", .text id)] (some "pubsub.consume")) ++
  [.closed "pubsub.consume" ([("consumer.id", .text w.id), ("stream", .text w.settings.stream)] ++
    delivered.toList.map fun id => ("message.id", .text id))]

/-- The count of a publication that gave a result, and the end of its span, with the text that says which
result it was. -/
def publishSpan (message : String) (outcome : Option (PublishOutcome × String)) : List Note :=
  (outcome.toList.map fun o => .count (.result w.settings.stream o.1)) ++
  [.closed "pubsub.set_result" ([("consumer.id", .text w.id), ("message.id", .text message)] ++
    outcome.toList.map fun o => ("outcome", .text o.2))]

/-- What a call tells that ends at a stage. -/
def telling (delivered : Option String) (outcome : Option (PublishOutcome × String)) : Stage → List Note
  | .reading => w.readSpan delivered
  | .claiming message _ | .acknowledging message => w.publishSpan message outcome
  | .beating .. => []

theorem finishRead_tells (reply : Except Failure (Option (List Batch))) :
    (w.finishRead reply).notes.filter Note.tells = w.readSpan (reply.toOption.bind deliveredId) := by
  simp only [finishRead, readSpan, List.filter_append]
  congr 1
  cases reply.toOption.bind deliveredId <;> rfl

theorem finishPublish_tells (message : String) (r : Except Failure Success) :
    (w.finishPublish message r).notes.filter Note.tells =
      w.publishSpan message (some (PublishOutcome.told r)) := by
  cases r with
  | ok s => rfl
  | error f => cases f <;> rfl

/-- What is delivered by the answer to the operation of a stage. -/
def deliveredBy : (s : Stage) → Except Failure (w.operation s).Answer → Option String
  | .reading, answer => answer.toOption.bind deliveredId
  | .claiming .., _ | .acknowledging _, _ | .beating .., _ => none

/-- A reaction tells something exactly if it ends the call. -/
theorem react_tells (s : Stage) (answer : Except Failure (w.operation s).Answer) :
    (w.react s answer).notes.filter Note.tells =
      match (w.react s answer).next with
      | .inl _ => []
      | .inr r => w.telling (w.deliveredBy s answer) (some (PublishOutcome.told r)) s := by
  cases s with
  | reading => exact w.finishRead_tells answer
  | claiming message result =>
    match answer with
    | .ok true => rfl
    | .ok false => exact w.finishPublish_tells message (.error (.resultExists message))
    | .error f => exact w.finishPublish_tells message (.error (f.within (.unpublished message)))
  | acknowledging message =>
    match answer with
    | .ok n =>
      have hmissed : (w.react (.acknowledging message) (.ok n)).notes.filter Note.tells =
          (w.finishPublish message (.ok .done)).notes.filter Note.tells := by
        simp only [react, afterAcknowledge]
        split <;> rfl
      rw [hmissed]
      exact w.finishPublish_tells message (.ok .done)
    | .error f => exact w.finishPublish_tells message (.error (f.within (.unacknowledged message)))
  | beating value expiry => rfl

theorem abandoned_tells (s : Stage) : (w.abandoned s).filter Note.tells = w.telling none none s := by
  cases s <;> rfl

end Worker

namespace CallRecord

variable {c : CallRecord} {gone : Prop} {l : List Occurrence} {f : Flight}

/-- The outcome of a call that gave a result, with its text. -/
def outcome? (c : CallRecord) : Option (PublishOutcome × String) :=
  match c.course with
  | .ended (.finished r) => some (PublishOutcome.told r)
  | .ended .abandoned | .ended (.broken _) | .running _ | .held _ => none

/-- What a call tells that has come to its end after some operations. -/
def telling (c : CallRecord) (l : List Occurrence) : List Note :=
  match c.call with
  | .consume => c.worker.readSpan (l.findSome? Occurrence.delivered?)
  | .publish message _ => c.worker.publishSpan message c.outcome?
  | .heartbeat => []

/-- A stage of a call tells the same as the call. -/
theorem telling_of_stage {s : Stage} (hs : s.Of c.call) {delivered : Option String}
    (hd : c.call = .consume → l.findSome? Occurrence.delivered? = delivered) :
    c.worker.telling delivered c.outcome? s = c.telling l := by
  rw [telling]
  cases s with
  | reading =>
    have hcall : c.call = .consume := hs
    rw [hcall, ← hd hcall]
    rfl
  | claiming message result => rw [show c.call = .publish message result from hs]; rfl
  | acknowledging message =>
    obtain ⟨result, hcall⟩ := hs
    rw [hcall]
    rfl
  | beating value expiry => rw [show c.call = .heartbeat from hs]; rfl

/-- A read that still asks or waits has been delivered nothing. -/
theorem Follows.undelivered (h : c.Follows gone l) (hf : c.course.flight? = some f)
    (hcall : c.call = .consume) : l.findSome? Occurrence.delivered? = none := by
  rw [Follows, hcall] at h
  rcases h with ⟨stage, hs, h⟩ | ⟨rfl, -⟩
  · generalize c.course = course at h hf
    cases h with
    | begun => rfl
    | @waiting o ho =>
      rw [List.findSome?_singleton]
      cases stage with
      | reading => rw [Occurrence.delivered?_of_read ho.1, ho.2, Response.delivered?]
      | beating value expiry =>
        unfold Occurrence.delivered?
        rw [show o.op = _ from ho.1]
      | claiming | acknowledging => cases hs
    | ended | givenUp => cases hf
  · rfl

/-- What a call tells by getting this far. -/
def told (c : CallRecord) (l : List Occurrence) (course : Course) : List Note :=
  match course with
  | .ended _ => telling { c with course } l
  | .running _ | .held _ => []

/-- A reaction tells what the call does by getting as far as the reaction takes it. -/
theorem react_told (hs : f.stage.Of c.call) (hw : f.worker = c.worker)
    {answer : Except Failure (f.worker.operation f.stage).Answer}
    (hd : c.call = .consume → l.findSome? Occurrence.delivered? = f.worker.deliveredBy f.stage answer) :
    (f.worker.react f.stage answer).notes.filter Note.tells =
      c.told l (.ofReaction f (f.worker.react f.stage answer)) := by
  obtain ⟨w, token, stage⟩ := f
  obtain rfl : w = c.worker := hw
  rw [Worker.react_tells, Course.ofReaction]
  cases (c.worker.react stage answer).next with
  | inl stage' => rfl
  | inr r => exact telling_of_stage (c := { c with course := .ended (.finished r) }) hs hd

/-- So does a call that is given up or breaks off. -/
theorem abandoned_told (hs : f.stage.Of c.call) (hw : f.worker = c.worker) {x : Ending Success}
    (hx : ∀ r, x ≠ .finished r) (hd : c.call = .consume → l.findSome? Occurrence.delivered? = none) :
    (f.worker.abandoned f.stage).filter Note.tells = c.told l (.ended x) := by
  have hnone : outcome? { c with course := .ended x } = none := by
    cases x with
    | finished r => exact absurd rfl (hx r)
    | abandoned | broken => rfl
  rw [Worker.abandoned_tells, hw, ← hnone]
  exact telling_of_stage (c := { c with course := .ended x }) hs hd

end CallRecord

/-- A call that is a single operation has asked for it at most once. -/
theorem Asking.shape {gone : Prop} {f : Flight} {l : List Occurrence} {c : Course}
    (h : Asking gone f l c) : l = [] ∨ ∃ o, l = [o] := by
  induction h with
  | begun => exact .inl rfl
  | waiting | ended => exact .inr ⟨_, rfl⟩
  | givenUp _ _ _ ih => exact ih

/-- The call that an event concerns. -/
def Event.call? : Event → Option Nat
  | .proceed n | .abandon n => some n
  | _ => none

namespace History

variable {h : History} {e : Event} {n : Nat} {c : CallRecord} {f : Flight}

/-! ### Calls that come to their end -/

/-- The call of the number asks for an operation or waits for one. -/
def inFlight (h : History) (n : Nat) : Bool := (h.calls[n]?).any fun c => c.course.flight?.isSome

/-- The call that an event brings to its end. -/
def closing? (h : History) (e : Event) : Option Nat :=
  e.call?.filter fun n => h.inFlight n && !(h.next e).inFlight n

/-- The calls that have come to their end in a run, in order. -/
def closings (h : History) (es : List Event) : List Nat :=
  (h.scenes es).flatMap fun p => (p.1.closing? p.2).toList

theorem closings_concat (h : History) (es : List Event) (e : Event) :
    h.closings (es ++ [e]) = h.closings es ++ ((h.run es).closing? e).toList := by
  simp [closings, scenes_append, scenes]

/-- What the call of a number tells. -/
def telling (h : History) (n : Nat) : List Note :=
  ((h.calls[n]?).map fun c => c.telling (h.trail n)).getD []

/-- What the call that an event concerns tells by then. -/
theorem closing_told {course : Course} (he : e.call? = some n) (hc : h.calls[n]? = some c)
    (hf : c.course.flight? = some f) (hnext : (h.next e).calls[n]? = some { c with course }) :
    (h.closing? e).toList.flatMap (h.next e).telling = c.told ((h.next e).trail n) course := by
  have hin : h.inFlight n = true := by simp [inFlight, hc, hf]
  cases course with
  | running g | held g =>
    have hstill : (h.next e).inFlight n = true := by simp [inFlight, hnext, Course.flight?]
    simp [closing?, he, hstill, CallRecord.told, Option.filter]
  | ended x =>
    have hover : (h.next e).inFlight n = false := by simp [inFlight, hnext, Course.flight?]
    have hclosing : h.closing? e = some n := by simp [closing?, he, hin, hover, Option.filter]
    simp [hclosing, CallRecord.told, telling, hnext]

theorem closing?_of_ended {x : Ending Success} (he : e.call? = some n) (hc : h.calls[n]? = some c)
    (hx : c.course = .ended x) : h.closing? e = none := by
  simp [closing?, he, inFlight, hc, hx, Course.flight?, Option.filter]

theorem closing?_of_none (he : e.call? = some n) (hc : h.calls[n]? = none) : h.closing? e = none := by
  simp [closing?, he, inFlight, hc, Option.filter]

section
variable (hS : h.Sound) (hs : h.Staged) (hc : h.calls[n]? = some c)
include hS hs hc

theorem proceed_running_told (hf : c.course = .running f) : (h.world.stepNotes f).filter Note.tells =
    c.told (h.trail n ++ h.asked n f) (.ofStep f (h.world.stepFlight f).2) := by
  have hfl : c.course.flight? = some f := by rw [hf]; rfl
  have hfollows := (hS.calls n c hc).follows
  have hstage := hs n c f hc hfl
  have hworker := hfollows.worker hfl
  rw [World.stepNotes]
  by_cases hx : h.world.isCancelled f.token = true
  · rw [if_pos hx, asked, if_pos hx, List.append_nil, World.stepFlight_of_cancelled hx]
    have hcourse : Course.ofReaction f (f.worker.cancel f.stage) =
        .ended (.finished (.error .cancelled)) := by
      rw [Course.ofReaction, Worker.cancel_next]
    rw [Course.ofStep, ← hcourse]
    refine CallRecord.react_told hstage hworker fun hcall => ?_
    rw [hfollows.undelivered hfl hcall]
    cases f.stage <;> rfl
  · rw [if_neg hx, asked, if_neg hx, World.ofStep_stepFlight hx]
    -- the operation of a read is the last one of the call, and the only one that can deliver
    have hdelivered (hcall : c.call = .consume) :
        (h.trail n ++ [h.occurrence (.call n) (f.worker.operation f.stage)]).findSome?
          Occurrence.delivered? =
        (h.occurrence (.call n) (f.worker.operation f.stage)).delivered? := by
      rw [List.findSome?_append, hfollows.undelivered hfl hcall, Option.none_or,
        List.findSome?_singleton]
    cases hr : (h.world.store.perform h.world.now h.world.clock (f.worker.operation f.stage)).2 with
    | answer a =>
      refine CallRecord.react_told hstage hworker fun hcall => (hdelivered hcall).trans ?_
      obtain ⟨w, token, stage⟩ := f
      cases stage with
      | reading => exact (Occurrence.delivered?_of_read rfl).trans (congrArg Response.delivered? hr)
      | claiming | acknowledging | beating => rfl
    | failure x =>
      refine CallRecord.react_told hstage hworker fun hcall => (hdelivered hcall).trans ?_
      obtain ⟨w, token, stage⟩ := f
      cases stage with
      | reading => exact (Occurrence.delivered?_of_read rfl).trans (congrArg Response.delivered? hr)
      | claiming | acknowledging | beating => rfl
    | stalled => rfl
    | broken b =>
      refine CallRecord.abandoned_told hstage hworker (fun r hr => by cases hr) fun hcall =>
        (hdelivered hcall).trans ?_
      obtain ⟨w, token, stage⟩ := f
      cases stage with
      | reading => exact (Occurrence.delivered?_of_read rfl).trans (congrArg Response.delivered? hr)
      | claiming | acknowledging | beating => rfl

theorem proceed_held_told (hf : c.course = .held f) : (h.world.resumeNotes f).filter Note.tells =
    c.told (h.trail n) (.ofStep f (h.world.resume f).2) := by
  have hfl : c.course.flight? = some f := by rw [hf]; rfl
  have hfollows := (hS.calls n c hc).follows
  rw [World.resumeNotes, World.resume_eq]
  by_cases hx : h.world.isCancelled f.token = true
  · rw [if_pos hx, if_pos hx]
    have hcourse : Course.ofReaction f (f.worker.cancel f.stage) =
        .ended (.finished (.error .cancelled)) := by
      rw [Course.ofReaction, Worker.cancel_next]
    rw [Course.ofStep, ← hcourse]
    refine CallRecord.react_told (hs n c f hc hfl) (hfollows.worker hfl) fun hcall => ?_
    rw [hfollows.undelivered hfl hcall]
    cases f.stage <;> rfl
  · rw [if_neg hx, if_neg hx, Course.ofStep, if_pos rfl]
    rfl

theorem abandon_told (hf : c.course.flight? = some f) :
    (f.worker.abandoned f.stage).filter Note.tells = c.told (h.trail n) (.ended .abandoned) := by
  have hfollows := (hS.calls n c hc).follows
  exact CallRecord.abandoned_told (hs n c f hc hf) (hfollows.worker hf) (fun r hr => by cases hr)
    (hfollows.undelivered hf)

end

/-! ### What an event tells -/

theorem set_getElem? {course : Course} {w : World} {log : List Occurrence} (hc : h.calls[n]? = some c) :
    (mark { h with world := w, log } n c course).calls[n]? = some { c with course } := by
  obtain ⟨hlt, -⟩ := List.getElem?_eq_some_iff.mp hc
  rw [mark, List.getElem?_set, if_pos rfl, if_pos hlt]

/-- Loops close no spans and publish nothing. -/
theorem loopNotes_tells (w : World) (l : HeartbeatLoop) : (w.loopNotes l).filter Note.tells = [] := by
  have hbeat (r : Response Unit) : (l.beatNotes r).filter Note.tells = [] := by
    cases r <;> rfl
  rw [World.loopNotes]
  by_cases hc : l.cancelled = true
  · rw [if_pos hc, HeartbeatLoop.farewell]
    cases l.phase <;> rfl
  · rw [if_neg hc]
    cases l.phase with
    | fresh => exact hbeat _
    | ticking deadline =>
      dsimp only
      split
      · exact hbeat _
      · rfl
    | writing | ended => rfl

/-- An event tells what the call tells that it brings to its end, and nothing if there is none. -/
theorem said_tells (hS : h.Sound) (hs : h.Staged) (e : Event) :
    (h.said e).filter Note.tells = (h.closing? e).toList.flatMap (h.next e).telling := by
  cases e with
  | start member token =>
    rw [said, World.startNotes]
    split
    · rfl
    · split <;> rfl
  | proceed n =>
    cases hc : h.calls[n]? with
    | none =>
      rw [closing?_of_none rfl hc, said, hc]
      rfl
    | some c =>
      have htrail : (h.next (.proceed n)).trail n = h.trail n ++ h.added (.proceed n) := by
        refine trail_of_own (log_next h (.proceed n)) fun o ho => ?_
        rw [added, hc] at ho
        dsimp only [Option.map_some] at ho
        split at ho
        · next f _ =>
          rcases asked_eq_nil_or h n f with ha | ⟨op, ha⟩
          · rw [ha] at ho; cases ho
          · rw [ha] at ho
            rw [List.mem_singleton.mp ho]
            rfl
        · cases ho
      cases hf : c.course with
      | running f =>
        have hnext : (h.next (.proceed n)).calls[n]? =
            some { c with course := .ofStep f (h.world.stepFlight f).2 } := by
          simp only [next, hc, proceed, hf]
          exact set_getElem? hc
        rw [closing_told rfl hc (by rw [hf]; rfl) hnext, htrail]
        simp only [said, added, hc, hf, Option.map_some]
        exact proceed_running_told hS hs hc hf
      | held f =>
        have hnext : (h.next (.proceed n)).calls[n]? =
            some { c with course := .ofStep f (h.world.resume f).2 } := by
          simp only [next, hc, proceed, hf]
          exact set_getElem? hc
        rw [closing_told rfl hc (by rw [hf]; rfl) hnext, htrail]
        simp only [said, added, hc, hf, Option.map_some, List.append_nil]
        exact proceed_held_told hS hs hc hf
      | ended x =>
        rw [closing?_of_ended rfl hc hf]
        simp only [said, hc, hf, Option.map_some]
        rfl
  | abandon n =>
    cases hc : h.calls[n]? with
    | none =>
      rw [closing?_of_none rfl hc, said, hc]
      rfl
    | some c =>
      cases hf : c.course with
      | running f | held f =>
        have hfl : c.course.flight? = some f := by rw [hf]; rfl
        have hnext : (h.next (.abandon n)).calls[n]? = some { c with course := .ended .abandoned } := by
          simp only [next, hc, abandon, hf]
          exact set_getElem? hc
        rw [closing_told rfl hc hfl hnext, trail_next_of_ne (by simp)]
        simp only [said, hc, hf, Option.map_some]
        exact abandon_told hS hs hc hfl
      | ended x =>
        rw [closing?_of_ended rfl hc hf]
        simp only [said, hc, hf, Option.map_some]
        rfl
  | wake t =>
    cases t with
    | cancel token => rfl
    | loop id =>
      rw [said, World.taskNotes]
      cases h.world.loops.get? id with
      | none => rfl
      | some l => exact loopNotes_tells h.world l
  | _ => rfl

/-! ### What a run tells -/

/-- An event concerns no other call. -/
theorem next_other (he : e.call? ≠ some n) (hc : h.calls[n]? = some c) :
    (h.next e).calls[n]? = some c := by
  have hmark (m : Nat) (d : CallRecord) (course : Course) (h' : History) (hne : m ≠ n)
      (hcalls : h'.calls = h.calls) : (mark h' m d course).calls[n]? = some c := by
    rw [mark, List.getElem?_set, if_neg hne, hcalls, hc]
  cases e with
  | begin member token call =>
    rw [next]
    split
    · rw [begin, List.getElem?_append_left (List.getElem?_eq_some_iff.mp hc).1, hc]
    · exact hc
  | proceed m =>
    have hne : m ≠ n := fun hx => he (congrArg some hx)
    rw [next]
    split
    · rw [proceed]
      split
      · exact hmark m _ _ _ hne rfl
      · exact hmark m _ _ _ hne rfl
      · exact hc
    · exact hc
  | abandon m =>
    have hne : m ≠ n := fun hx => he (congrArg some hx)
    rw [next]
    split
    · rw [abandon]
      split
      · exact hmark m _ _ _ hne rfl
      · exact hmark m _ _ _ hne rfl
      · exact hc
    · exact hc
  | _ => exact hc

/-- A read or a publication does not end by being begun. -/
theorem flight_of_new (hn : h.calls[n]? = none) (hc : (h.next e).calls[n]? = some c)
    (hcall : c.call ≠ .heartbeat) : c.course.flight?.isSome = true := by
  have hset (h' : History) (m : Nat) (d : CallRecord) (hcalls : h'.calls = h.calls.set m d) :
      h'.calls[n]? = none := by
    rw [hcalls, List.getElem?_eq_none_iff, List.length_set]
    exact List.getElem?_eq_none_iff.mp hn
  cases e with
  | begin member token call =>
    rw [next] at hc
    split at hc
    · rw [begin, List.getElem?_append] at hc
      split at hc
      · cases hn.symm.trans hc
      · rw [List.getElem?_singleton] at hc
        split at hc
        · cases hc
          cases call with
          | consume | publish => rfl
          | heartbeat => exact absurd rfl hcall
        · cases hc
    · cases hn.symm.trans hc
  | proceed m =>
    rw [next] at hc
    split at hc
    · rw [proceed] at hc
      split at hc
      · cases (hset _ m _ rfl).symm.trans hc
      · cases (hset _ m _ rfl).symm.trans hc
      · cases hn.symm.trans hc
    · cases hn.symm.trans hc
  | abandon m =>
    rw [next] at hc
    split at hc
    · rw [abandon] at hc
      split at hc
      · cases (hset _ m _ rfl).symm.trans hc
      · cases (hset _ m _ rfl).symm.trans hc
      · cases hn.symm.trans hc
    · cases hn.symm.trans hc
  | _ => cases hn.symm.trans hc

/-- The call of the number has come to its end. -/
def Over (h : History) (n : Nat) : Prop := ∃ c x, h.calls[n]? = some c ∧ c.course = .ended x

/-- A call that is over stays as it is, and tells nothing else any more. -/
theorem Over.next (ho : h.Over n) (e : Event) :
    (h.next e).Over n ∧ (h.next e).calls[n]? = h.calls[n]? ∧ (h.next e).telling n = h.telling n := by
  obtain ⟨c, x, hc, hx⟩ := ho
  obtain ⟨course, hc', hcourse⟩ := next_call hc e
  have hsame : (h.next e).calls[n]? = some c := by
    rw [hc', hcourse x hx, ← hx]
  have htrail : (h.next e).trail n = h.trail n := by
    rw [trail_next, List.filter_eq_nil_iff.mpr, List.append_nil]
    intro o ho hn
    obtain ⟨-, d, f, hd, hf, -⟩ := mem_added_call ho (by simpa using hn)
    cases hc.symm.trans hd
    cases hx.symm.trans hf
  exact ⟨⟨c, x, hsame, hx⟩, hsame.trans hc.symm, by rw [telling, telling, hsame, hc, htrail]⟩

theorem inFlight_iff : h.inFlight n = true ↔
    ∃ c f, h.calls[n]? = some c ∧ c.course.flight? = some f := by
  rw [inFlight]
  cases h.calls[n]? with
  | none => simp
  | some c => simp [Option.isSome_iff_exists]

theorem flight?_eq_none_iff {c : Course} : c.flight? = none ↔ ∃ x, c = .ended x := by
  cases c with
  | running f | held f => simp [Course.flight?]
  | ended x => simp [Course.flight?]

theorem closing?_eq_some_iff : h.closing? e = some n ↔
    e.call? = some n ∧ h.inFlight n = true ∧ (h.next e).inFlight n = false := by
  rw [closing?, Option.filter_eq_some_iff, Bool.and_eq_true, Bool.not_eq_true']

/-- A call that an event brings to its end is over after that. -/
theorem over_of_closing (hn : h.closing? e = some n) : (h.next e).Over n := by
  obtain ⟨-, hin, hout⟩ := closing?_eq_some_iff.mp hn
  obtain ⟨c, f, hc, -⟩ := inFlight_iff.mp hin
  obtain ⟨course, hc', -⟩ := next_call hc e
  cases course with
  | running g | held g =>
    rw [inFlight_iff.mpr ⟨_, g, hc', rfl⟩] at hout
    cases hout
  | ended x => exact ⟨_, x, hc', rfl⟩

theorem not_inFlight (ho : h.Over n) : h.inFlight n = false := by
  obtain ⟨c, x, hc, hx⟩ := ho
  rw [inFlight, hc, Option.any_some, hx]
  rfl

/-- What a run has told so far is what the calls tell that have come to their end in it. -/
structure Told (es : List Event) (h₀ h : History) : Prop where
  speech : (h₀.speech es).filter Note.tells = (h₀.closings es).flatMap h.telling
  once : (h₀.closings es).Nodup
  ended : ∀ n ∈ h₀.closings es, h.Over n
  complete : ∀ n c, h.calls[n]? = some c → c.call ≠ .heartbeat → c.course.flight? = none →
    n ∈ h₀.closings es

theorem speech_concat (h : History) (es : List Event) (e : Event) :
    h.speech (es ++ [e]) = h.speech es ++ (h.run es).said e := by
  simp [speech, scenes_append, scenes]

theorem Told.next {h₀ : History} {es : List Event} (ht : Told es h₀ (h₀.run es))
    (hS : (h₀.run es).Sound) (hs : (h₀.run es).Staged) (e : Event) :
    Told (es ++ [e]) h₀ ((h₀.run es).next e) where
  speech := by
    have hold : (h₀.closings es).flatMap ((h₀.run es).next e).telling =
        (h₀.closings es).flatMap (h₀.run es).telling :=
      List.flatMap_congr fun n hn => ((ht.ended n hn).next e).2.2
    rw [speech_concat, List.filter_append, ht.speech, said_tells hS hs, closings_concat,
      List.flatMap_append, hold]
  once := by
    rw [closings_concat]
    refine List.nodup_append.mpr ⟨ht.once, ?_, fun n hn m hm hnm => ?_⟩
    · cases (h₀.run es).closing? e <;> simp
    · subst hnm
      obtain ⟨-, hin, -⟩ := closing?_eq_some_iff.mp (Option.mem_toList.mp hm)
      cases hin.symm.trans (not_inFlight (ht.ended n hn))
  ended n hn := by
    rw [closings_concat] at hn
    rcases List.mem_append.mp hn with hn | hn
    · exact ((ht.ended n hn).next e).1
    · exact over_of_closing (Option.mem_toList.mp hn)
  complete n c' hc' hcall hend := by
    rw [closings_concat, List.mem_append, Option.mem_toList]
    cases hc : (h₀.run es).calls[n]? with
    | none =>
      have := flight_of_new hc hc' hcall
      rw [hend] at this
      cases this
    | some c =>
      obtain ⟨course, hnext, -⟩ := next_call hc e
      have hcall₀ : c.call ≠ .heartbeat := by
        cases hnext.symm.trans hc'
        exact hcall
      cases hf : c.course.flight? with
      | none => exact .inl (ht.complete n c hc hcall₀ hf)
      | some f =>
        right
        have hout : ((h₀.run es).next e).inFlight n = false := by
          obtain ⟨x, hx⟩ := flight?_eq_none_iff.mp hend
          exact not_inFlight ⟨_, x, hc', hx⟩
        have he : e.call? = some n := by
          by_contra hne
          cases (next_other hne hc).symm.trans hc'
          exact absurd (hf.symm.trans hend) (by simp)
        exact closing?_eq_some_iff.mpr ⟨he, inFlight_iff.mpr ⟨c, f, hc, hf⟩, hout⟩

theorem told (clock : Clock) (es : List Event) :
    Told es (start clock) ((start clock).run es) :=
  run_concat_induction (P := fun es h => h = (start clock).run es ∧ Told es (start clock) h)
    ⟨rfl, rfl, List.nodup_nil, fun n hn => (by cases hn), fun n c hc => by simp [start] at hc⟩
    (fun es e ⟨_, ht⟩ => ⟨by rw [run_append]; rfl,
      ht.next (sound clock es) (accounted clock es).2 e⟩) es |>.2

/-! ### What a read and a publication tell -/

theorem delivered?_eq_some_iff {r : Response (Option (List Batch))} {id : String} :
    r.delivered? = some id ↔ ∃ stream fields, r = .answer (some [⟨stream, [⟨id, fields⟩]⟩]) := by
  cases r with
  | answer reply => simp [Response.delivered?, deliveredId_eq_some_iff]
  | failure | stalled | broken => simp [Response.delivered?]

/-- The only operation of a read is that of its worker. -/
theorem delivered_iff {gone : Prop} {l : List Occurrence} {id : String} (hfol : c.Follows gone l)
    (hcall : c.call = .consume) : l.findSome? Occurrence.delivered? = some id ↔
      ∃ o ∈ l, ∃ stream fields,
        o.CameTo (.read c.worker.readRequest) (.answer (some [⟨stream, [⟨id, fields⟩]⟩])) := by
  rw [CallRecord.Follows, hcall] at hfol
  rcases hfol with ⟨stage, hstage, hask⟩ | ⟨rfl, -⟩
  · rcases hask.shape with rfl | ⟨o, rfl⟩
    · simp
    · have hop := hask.op_eq o (List.mem_singleton_self o)
      rw [List.findSome?_singleton]
      simp only [List.mem_singleton, exists_eq_left]
      cases stage with
      | reading =>
        rw [Occurrence.delivered?_of_read hop, delivered?_eq_some_iff]
        simp only [Occurrence.CameTo, hop, true_and]
      | beating value expiry =>
        have hnone : o.delivered? = none := by
          unfold Occurrence.delivered?
          rw [hop]
        simp [hnone, Occurrence.CameTo, hop]
      | claiming | acknowledging => cases hstage
  · simp

/-- What a publication tells, by how far it has come. The outcome is there exactly if it gave a result, and
it says which; the count of the result has the same text as its label. -/
structure TellsResult (c : CallRecord) (message : String) (ns : List Note) : Prop where
  notes : ns = c.worker.publishSpan message c.outcome?
  given : c.outcome?.isSome = true ↔ ∃ r, c.course = .ended (.finished r)
  ok : ∀ s, c.course = .ended (.finished (.ok s)) → c.outcome? = some (.ok, "ok")
  duplicate : ∀ m, c.course = .ended (.finished (.error (.resultExists m))) →
    c.outcome? = some (.duplicate, "duplicate")
  error : ∀ f, c.course = .ended (.finished (.error f)) → (∀ m, f ≠ .resultExists m) →
    c.outcome? = some (.error, "error")
  counted : ∀ outcome text, c.outcome? = some (outcome, text) →
    (Tally.result c.worker.settings.stream outcome).counter = "pubsub.consumer.results" ∧
    (Tally.result c.worker.settings.stream outcome).labels =
      ["result=" ++ text, "stream=" ++ c.worker.settings.stream]

theorem told_error {f : Failure} (hf : ∀ m, f ≠ .resultExists m) :
    PublishOutcome.told (.error f) = (.error, "error") := by
  cases f with
  | resultExists m => exact absurd rfl (hf m)
  | _ => rfl

theorem tellsResult {l : List Occurrence} {message result : String}
    (hcall : c.call = .publish message result) : TellsResult c message (c.telling l) where
  notes := by rw [CallRecord.telling, hcall]
  given := by
    rw [CallRecord.outcome?]
    cases c.course with
    | running f | held f => simp
    | ended x => cases x <;> simp
  ok s hs := by rw [CallRecord.outcome?, hs]; rfl
  duplicate m hm := by rw [CallRecord.outcome?, hm]; rfl
  error f hf hne := by rw [CallRecord.outcome?, hf]; exact congrArg some (told_error hne)
  counted outcome text ho := by
    rw [CallRecord.outcome?] at ho
    split at ho
    · next r _ =>
      cases r with
      | ok s => cases ho; exact ⟨rfl, rfl⟩
      | error f => cases f <;> (cases ho; exact ⟨rfl, rfl⟩)
    all_goals cases ho

theorem tells_of_isSpan {n : Note} (hn : n.isSpan = true) : n.tells = true ∧ n.isRecord = true := by
  cases n with
  | event | closed => exact ⟨by rw [Note.tells, hn, Bool.true_or], rfl⟩
  | count t => cases hn

/-- Only what calls tell in the end counts publications. -/
theorem count_result_tells (ns : List Note) (s : String) (o : PublishOutcome) :
    (tallies (ns.filter Note.tells)).count (.result s o) = (tallies ns).count (.result s o) := by
  induction ns with
  | nil => rfl
  | cons n ns ih =>
    cases n with
    | event level message fields span =>
      rw [List.filter_cons, tallies_event, ← ih]
      split <;> rfl
    | closed span fields => exact ih
    | count t =>
      rw [List.filter_cons, tallies_count, List.count_cons, ← ih]
      cases t with
      | result stream outcome =>
        have htells : (Note.count (.result stream outcome)).tells = true := rfl
        rw [if_pos htells, tallies_count, List.count_cons]
      | heartbeat | read | acknowledgment => simp [Note.tells, Note.isSpan, Note.isResult]

/-- After any events, what has been recorded of spans and of delivered messages is what the calls tell
that have come to their end, each once, whether they gave a result, broke off or were given up; and so is
what has been counted of publications. A read tells of its worker and its stream, and of an entry exactly
if that was the only one of the only batch that it was answered, whatever the payload of the entry is. A
publication tells of its worker and its message, and of an outcome exactly if it gave a result: ok if it
succeeded, duplicate if there was a result, and error otherwise, which is also the label of its count. -/
theorem spans_tell_calls (clock : Clock) (es : List Event) :
    let h := (start clock).run es
    ∃ ended : List Nat, ended.Nodup ∧
      (∀ n c, h.calls[n]? = some c → c.call ≠ .heartbeat → (n ∈ ended ↔ c.course.flight? = none)) ∧
      h.world.trace.toList.filter Note.isSpan = (ended.flatMap h.telling).filter Note.isSpan ∧
      (∀ s o, h.world.ledger.sum (.result s o) =
        (tallies (ended.flatMap h.telling)).count (.result s o)) ∧
      ∀ n c, h.calls[n]? = some c →
        (c.call = .consume → ∃ delivered, h.telling n = c.worker.readSpan delivered ∧
          ∀ id, delivered = some id ↔ ∃ o ∈ h.trail n, ∃ stream fields,
            o.CameTo (.read c.worker.readRequest) (.answer (some [⟨stream, [⟨id, fields⟩]⟩]))) ∧
        (∀ message result, c.call = .publish message result → TellsResult c message (h.telling n)) ∧
        (c.call = .heartbeat → h.telling n = []) := by
  intro h
  have ht : Told es (start clock) h := told clock es
  have hS : h.Sound := sound clock es
  refine ⟨(start clock).closings es, ht.once, fun n c hc hcall => ⟨fun hn => ?_, ht.complete n c hc hcall⟩,
    ?_, fun s o => ?_, fun n c hc => ?_⟩
  · obtain ⟨d, x, hd, hx⟩ := ht.ended n hn
    cases hc.symm.trans hd
    rw [hx]
    rfl
  · have hspan (n : Note) : (n.isSpan && n.tells) = (n.isSpan && n.isRecord) := by
      cases hn : n.isSpan with
      | false => rfl
      | true => rw [(tells_of_isSpan hn).1, (tells_of_isSpan hn).2]
    rw [← ht.speech, trace_run, List.filter_filter, List.filter_filter]
    simp only [hspan]
  · rw [← ht.speech, count_result_tells]
    exact sum_run clock es _
  · have htelling : h.telling n = c.telling (h.trail n) := by rw [telling, hc]; rfl
    have hfollows := (hS.calls n c hc).follows
    rw [htelling]
    refine ⟨fun hcall => ?_, fun message result hcall => tellsResult hcall, fun hcall => ?_⟩
    · rw [CallRecord.telling, hcall]
      exact ⟨_, rfl, fun id => delivered_iff hfollows hcall⟩
    · rw [CallRecord.telling, hcall]

/-- The second publication for a message tells that it is a duplicate, and one that was cancelled while
its acknowledgment stalled tells that it failed. -/
theorem spans_tell_calls_shift :
    let h := (start ⟨5, 0⟩).run shift
    ∃ ended : List Nat, ended.Nodup ∧
      h.world.trace.toList.filter Note.isSpan = (ended.flatMap h.telling).filter Note.isSpan ∧
      (4 ∈ ended ∧ ∃ w : Worker, h.telling 4 = w.publishSpan "5-0" (some (.duplicate, "duplicate"))) ∧
      5 ∈ ended ∧ ∃ w : Worker, h.telling 5 = w.publishSpan "6-0" (some (.error, "error")) := by
  intro h
  obtain ⟨ended, hn, hmem, htrace, -, hcalls⟩ := spans_tell_calls ⟨5, 0⟩ shift
  have htells (n : Nat) (message result : String) (o : Option (PublishOutcome × String))
      (hn : (h.calls[n]?).map (fun c => (c.call, c.course.flight?, c.outcome?)) =
        some (.publish message result, none, o)) :
      n ∈ ended ∧ ∃ w : Worker, h.telling n = w.publishSpan message o := by
    obtain ⟨c, hc, hx⟩ := Option.map_eq_some_iff.mp hn
    obtain ⟨hcall, hflight, houtcome⟩ : c.call = .publish message result ∧ c.course.flight? = none ∧
      c.outcome? = o := by simpa using hx
    obtain ⟨-, hpublish, -⟩ := hcalls n c hc
    exact ⟨(hmem n c hc (by simp [hcall])).mpr hflight, c.worker,
      houtcome ▸ (hpublish message result hcall).notes⟩
  exact ⟨ended, hn, htrace, htells 4 "5-0" "again" _ (by decide +kernel),
    htells 5 "6-0" "unseen" _ (by decide +kernel)⟩

end History

end StreamWorker
