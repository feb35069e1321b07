import StreamWorker.Proofs.History.LoopEvents
import StreamWorker.Proofs.Store.Unanswered

/-! Answers given in advance. They wait in a queue: a command adds one at its end, and a read that is made
neither to stall nor to fail takes the first one off and passes it on, without looking at any stream.
Nothing else touches the queue, so all answers that were given in advance are, in their order, those that
reads have passed on and those that still wait. -/

namespace StreamWorker

/-- The answer given in advance that an operation passed on. -/
def Occurrence.recited (o : Occurrence) : Option (Option (List Batch)) :=
  match o.op with
  | .read _ => if o.store.Open .read then o.store.scripted.head? else none
  | _ => none

/-- The answer that an event gives in advance. -/
def Event.scripted? : Event → Option (Option (List Batch))
  | .command (.script reply) => some reply
  | _ => none

namespace Store

variable {s : Store} {now clock : Nat} {op : Operation}

/-- Only reads take answers off the queue. -/
theorem perform_scripted (h : ∀ r, op ≠ .read r) :
    (s.perform now clock op).1.scripted = s.scripted := by
  cases op with
  | set key value ttl =>
    rcases set_contents s now key value ttl with ⟨hs, -⟩ | hs <;> rw [perform, hs]
  | claim key value ttl =>
    rcases claim_cases s now key value ttl with ⟨-, -, hs⟩ | ⟨hs, -⟩ <;> rw [perform, hs]
  | get key => rw [perform, get_store]
  | read r => exact absurd rfl (h r)
  | acknowledge stream group id =>
    rcases acknowledge_cases s stream group id with ⟨hs, -⟩ | ⟨-, -, hs⟩ | ⟨-, st, -, hs⟩ <;>
      rw [perform, hs]
  | createGroup stream group => rfl
  | append stream fields => rfl

end Store

namespace Occurrence

variable {o : Occurrence} {reply : Option (List Batch)}

/-- Whoever passes on an answer that was given in advance does nothing else. -/
theorem recited_eq_some : o.recited = some reply ↔
    ∃ r rest, o.op = .read r ∧ o.store.Open .read ∧ o.store.scripted = reply :: rest ∧
      o.CameTo (.read r) (.answer reply) ∧
      o.after = { o.store with lastRead := some r, scripted := rest } := by
  constructor
  · intro h
    unfold recited at h
    split at h
    · next r hop =>
      split at h
      · next ho =>
        obtain ⟨rest, hs⟩ := List.head?_eq_some_iff.mp h
        have hread : o.store.read r = _ := Store.read_of_scripted ho hs
        refine ⟨r, rest, hop, ho, hs, ⟨hop, ?_⟩, ?_⟩
        · rw [Store.perform, hread]
        · rw [after, hop, Store.perform, hread]
      · cases h
    · cases h
  · rintro ⟨r, rest, hop, ho, hs, -⟩
    rw [recited, hop]
    dsimp only
    rw [if_pos ho, hs, List.head?_cons]

/-- An operation takes off the queue what it passes on. -/
theorem scripted_eq (o : Occurrence) : o.store.scripted = o.recited.toList ++ o.after.scripted := by
  cases hr : o.recited with
  | some reply =>
    obtain ⟨r, rest, -, -, hs, -, hafter⟩ := recited_eq_some.mp hr
    rw [hafter, hs]
    rfl
  | none =>
    rw [Option.toList_none, List.nil_append]
    cases hop : o.op with
    | read r =>
      have hafter : o.after = (o.store.read r).1 := by rw [after, hop, Store.perform]
      rw [hafter]
      rcases Store.fault_cases o.store .read with hs | ⟨reason, hs, hf⟩ | ho
      · rw [Store.read_of_stalled hs]
      · rw [Store.read_of_failing hs hf]
      · have hs : o.store.scripted = [] := by
          rw [recited, hop] at hr
          dsimp only at hr
          rw [if_pos ho] at hr
          exact List.head?_eq_none_iff.mp hr
        obtain ⟨streams, h⟩ := Store.deliver_eq { o.store with lastRead := some r } r
        rw [Store.read_of_open ho hs, h]
    | _ => exact (Store.perform_scripted (by rw [hop]; simp)).symm

end Occurrence

namespace History

variable {h : History} {e : Event}

/-- What an event makes of the store, unless it is a command to it. -/
theorem next_store (h : History) (he : ∀ r, e ≠ .command r) :
    (h.added e = [] ∧ (h.next e).world.store = h.world.store) ∨
      ∃ asker op, h.added e = [h.occurrence asker op] ∧
        (h.next e).world.store = (h.occurrence asker op).after := by
  cases e with
  | hire name id settings kind => exact .inl ⟨rfl, (World.hire_leads h.world name id settings kind).1⟩
  | start member token => exact .inl ⟨rfl, (World.start_leads h.world member token).1⟩
  | stop member => exact .inl ⟨rfl, (World.stop_leads h.world member).1⟩
  | dismiss member => exact .inl ⟨rfl, (World.dismiss_leads h.world member).1⟩
  | begin member token call =>
    refine .inl ⟨rfl, ?_⟩
    rw [next]
    split <;> rfl
  | proceed n =>
    cases hc : h.calls[n]? with
    | none => exact .inl ⟨by simp [added, hc], by simp [next, hc]⟩
    | some c =>
      cases hf : c.course with
      | running f =>
        have hnext : (h.next (.proceed n)).world.store = (h.world.stepFlight f).1.store := by
          simp [next, hc, proceed, hf, mark]
        have hadded : h.added (.proceed n) = h.asked n f := by simp [added, hc, hf]
        rw [hnext, hadded]
        by_cases hx : h.world.isCancelled f.token = true
        · exact .inl ⟨if_pos hx, by rw [World.stepFlight_of_cancelled hx, World.notes_store]⟩
        · exact .inr ⟨_, _, if_neg hx, World.stepFlight_store hx⟩
      | held f =>
        obtain ⟨trace, ledger, hw⟩ := h.world.resume_world f
        exact .inl ⟨by simp [added, hc, hf], by simp [next, hc, proceed, hf, mark, hw]⟩
      | ended e => exact .inl ⟨by simp [added, hc, hf], by simp [next, hc, proceed, hf]⟩
  | abandon n =>
    refine .inl ⟨rfl, ?_⟩
    rw [next]
    split
    · rw [abandon]
      split
      · exact World.notes_store ..
      · exact World.notes_store ..
      · rfl
    · rfl
  | operation op => exact .inr ⟨_, op, rfl, rfl⟩
  | command r => exact absurd rfl (he r)
  | wake t =>
    have hs : (h.next (.wake t)).world.store =
        ((h.world.writer? t).map h.world.beaten).getD h.world.store := World.wake_store h.world t
    rw [hs]
    cases hw : h.world.writer? t with
    | none => exact .inl ⟨by cases t <;> simp [added, beats, hw], rfl⟩
    | some l =>
      cases t with
      | cancel token => cases hw
      | loop id => exact .inr ⟨_, _, by simp [added, beats, hw]; rfl, rfl⟩
  | elapse nanos => exact .inl ⟨rfl, rfl⟩

/-- A command adds an answer at the end of the queue or leaves the queue alone. -/
theorem command_scripted (w : World) (r : Request) : (w.command r).store.scripted =
    w.store.scripted ++ (Event.scripted? (.command r)).toList := by
  cases r with
  | script reply => rfl
  | cancel token => simp [World.command, Event.scripted?]
  | cancelAfter token millis =>
    rw [World.command]
    split <;> simp [Event.scripted?]
  | _ => exact (List.append_nil _).symm

/-- What was in the queue, and what an event adds to it, is passed on or still waits. -/
theorem scripted_next (h : History) (e : Event) :
    h.world.store.scripted ++ e.scripted?.toList =
      (h.added e).filterMap Occurrence.recited ++ (h.next e).world.store.scripted := by
  by_cases he : ∃ r, e = .command r
  · obtain ⟨r, rfl⟩ := he
    exact (command_scripted h.world r).symm
  · have hnone : e.scripted? = none := by
      cases e with
      | command r => exact absurd ⟨r, rfl⟩ he
      | _ => rfl
    rw [hnone, Option.toList_none, List.append_nil]
    rcases next_store h fun r hr => he ⟨r, hr⟩ with ⟨ha, hs⟩ | ⟨asker, op, ha, hs⟩
    · rw [ha, hs]
      rfl
    · rw [ha, hs]
      have ho : h.world.store.scripted = _ := (h.occurrence asker op).scripted_eq
      rw [ho, List.filterMap_cons]
      cases (h.occurrence asker op).recited <;> rfl

/-- The answers that were given in advance are those that reads have passed on and those that wait. -/
theorem scripted_run (clock : Clock) (es : List Event) : es.filterMap Event.scripted? =
    ((start clock).run es).log.filterMap Occurrence.recited ++
      ((start clock).run es).world.store.scripted := by
  refine run_concat_induction (P := fun es h => es.filterMap Event.scripted? =
    h.log.filterMap Occurrence.recited ++ h.world.store.scripted) rfl (fun es e ih => ?_) es
  have hsingle : [e].filterMap Event.scripted? = e.scripted?.toList := by
    rw [List.filterMap_cons]
    cases e.scripted? <;> rfl
  rw [log_next, List.filterMap_append, List.filterMap_append, List.append_assoc, ← scripted_next, ih,
    List.append_assoc, hsingle]

/-- An operation that fails, stalls or breaks off changes nothing, except that a read is noted. A read
fails if it is made to, or if its group is missing and no answer was given in advance; an answer that was
is passed on without any concern for streams; and asking does not make what is missing. All answers that
were given in advance are, in their order, those that open reads have passed on and those that wait. -/
theorem unanswered_changes_nothing (clock : Clock) (es : List Event) :
    let h := (start clock).run es
    (∀ (s : Store) (now clock : Nat) (op : Operation), s.Unanswered now clock op →
      (s.perform now clock op).1 = s.noted op ∧
      s.noted op = { s with lastRead := (s.noted op).lastRead } ∧
      ((∀ r, op ≠ .read r) → s.noted op = s)) ∧
    (∀ (s : Store) (r : ReadRequest),
      (∀ f, (s.read r).2 = .failure f ↔
        (.read ∉ s.stalled ∧ ∃ reason, s.failing.get? .read = some reason ∧ f = .store reason) ∨
        (s.Open .read ∧ s.scripted = [] ∧ s.Lacks r.stream r.group ∧
          f = Store.noGroup r.stream r.group)) ∧
      ∀ reply rest, s.Open .read → s.scripted = reply :: rest →
        s.read r = ({ s with lastRead := some r, scripted := rest }, .answer reply)) ∧
    (∀ (s : Store) (stream group : String), s.Lacks stream group →
      (∀ now clock op, op.Names stream group → (s.perform now clock op).1.streams = s.streams) ∧
      ∀ id, s.Open .acknowledge → s.acknowledge stream group id = (s, .answer 0)) ∧
    es.filterMap Event.scripted? = h.log.filterMap Occurrence.recited ++ h.world.store.scripted ∧
    ∀ o ∈ h.log, ∀ reply, o.recited = some reply ↔
      ∃ r rest, o.op = .read r ∧ o.store.Open .read ∧ o.store.scripted = reply :: rest ∧
        o.CameTo (.read r) (.answer reply) ∧
        o.after = { o.store with lastRead := some r, scripted := rest } := by
  intro h
  refine ⟨fun s now clock op hu => ⟨Store.perform_unanswered hu, ?_, fun hr => ?_⟩,
    fun s r => ⟨fun f => Store.read_failure_iff, fun reply rest => Store.read_of_scripted⟩,
    fun s stream group hl => ⟨fun now clock op hn => (Store.perform_of_lacking hl hn).1,
      fun id ho => Store.acknowledge_of_lacking id ho hl⟩,
    scripted_run clock es, fun o _ reply => Occurrence.recited_eq_some⟩
  · cases op <;> rfl
  · cases op with
    | read r => exact absurd rfl (hr r)
    | _ => rfl

/-- Reads of a group that is missing. -/
def anyone : ReadRequest := ⟨"s", "g", "a", 1, readBlock⟩

/-- An answer is given in advance, and there are three reads, the first of which is made to fail. -/
def prearranged : List Event :=
  [.command (.script none), .command (.fail .read "down"), .operation (.read anyone),
    .command (.clearFaults .read), .operation (.read anyone), .operation (.read anyone)]

/-- The read that fails leaves the answer to the second one, and the third one fails for want of the
group, which stays missing. -/
theorem unanswered_changes_nothing_prearranged :
    let h := (start ⟨5, 0⟩).run prearranged
    h.log.filterMap Occurrence.recited = [none] ∧
      (h.world.store.read anyone).2 = .failure (Store.noGroup "s" "g") ∧
      (h.world.store.read anyone).1 = h.world.store ∧ h.world.store.streams = .empty := by
  intro h
  obtain ⟨hnothing, hreads, -, hqueue, -⟩ := unanswered_changes_nothing ⟨5, 0⟩ prearranged
  have hscripted : h.world.store.scripted = [] := by decide +kernel
  have hlacks : h.world.store.Lacks "s" "g" := by decide +kernel
  have hfails : (h.world.store.read anyone).2 = .failure (Store.noGroup "s" "g") :=
    ((hreads h.world.store anyone).1 _).mpr (.inr ⟨by decide +kernel, hscripted, hlacks, rfl⟩)
  have hunanswered : h.world.store.Unanswered 0 5 (.read anyone) := fun a ha => by
    have := ha.symm.trans hfails
    cases this
  refine ⟨?_, hfails, ?_, by decide +kernel⟩
  · have hq : [none] = h.log.filterMap Occurrence.recited ++ h.world.store.scripted := hqueue
    rw [hq, hscripted, List.append_nil]
  · have hlast : h.world.store.lastRead = some anyone := by decide +kernel
    have hnoted : (h.world.store.read anyone).1 = { h.world.store with lastRead := some anyone } :=
      (hnothing h.world.store 0 5 (.read anyone) hunanswered).1
    rw [hnoted, ← hlast]

end History

end StreamWorker
