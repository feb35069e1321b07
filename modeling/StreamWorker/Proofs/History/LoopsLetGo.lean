import StreamWorker.Proofs.History.Trace
import StreamWorker.Proofs.Session.LoopEnds

/-! The ends of heartbeat loops in a history. A loop ends once, and only by being let go on after it was
cancelled, be it by its member, by its token or by whoever takes the member's name; it says so once, and
reports an error exactly if its write hung. Nothing else in a session reports an error, and no write goes
with the end of a loop. -/

namespace StreamWorker

/-! ### Kinds of notes -/

namespace Note

/-- The note is the record of a loop that has ended. -/
def isStop : Note → Bool
  | .event _ message _ _ => message = "heartbeat stopped"
  | .closed .. | .count _ => false

def isError : Note → Bool
  | .event .error .. => true
  | _ => false

/-- Records of calls are for debugging, and have their own messages. -/
def ofCall : Note → Bool
  | .event level message _ _ => level = .debug ∧ message ∈ ["consuming message",
      "result already set, leaving message pending", "message was not pending at ack"]
  | .closed .. | .count _ => true

variable {n : Note}

theorem isRecord_of_isStop (h : n.isStop = true) : n.isRecord = true := by
  cases n with
  | event | closed => rfl
  | count t => cases h

theorem isRecord_of_isError (h : n.isError = true) : n.isRecord = true := by
  cases n with
  | event | closed => rfl
  | count t => cases h

theorem quiet_of_ofCall (h : n.ofCall = true) : n.isStop = false ∧ n.isError = false := by
  cases n with
  | closed | count => exact ⟨rfl, rfl⟩
  | event level message fields span =>
    obtain ⟨rfl, hmessage⟩ := of_decide_eq_true h
    refine ⟨decide_eq_false fun he => ?_, rfl⟩
    subst he
    revert hmessage
    decide

end Note

namespace Worker

variable (w : Worker)

theorem react_ofCall (s : Stage) (answer : Except Failure (w.operation s).Answer) :
    (w.react s answer).notes.all Note.ofCall = true := by
  cases s with
  | reading =>
    simp only [react, finishRead, List.all_append, Bool.and_eq_true]
    refine ⟨List.all_eq_true.mpr fun n hn => ?_, rfl⟩
    obtain ⟨id, -, rfl⟩ := List.mem_map.mp hn
    rfl
  | claiming message result =>
    cases answer with
    | ok created => cases created <;> rfl
    | error f => rfl
  | acknowledging message =>
    cases answer with
    | ok n =>
      rw [react, afterAcknowledge]
      dsimp only
      split <;> rfl
    | error f => rfl
  | beating value expiry => rfl

theorem abandoned_ofCall (s : Stage) : (w.abandoned s).all Note.ofCall = true := by
  cases s <;> rfl

end Worker

namespace World

variable (w : World) (f : Flight)

theorem stepNotes_ofCall : (w.stepNotes f).all Note.ofCall = true := by
  unfold stepNotes
  split
  · exact f.worker.react_ofCall f.stage _
  · split
    · exact f.worker.react_ofCall f.stage _
    · exact f.worker.react_ofCall f.stage _
    · rfl
    · exact f.worker.abandoned_ofCall f.stage

theorem resumeNotes_ofCall : (w.resumeNotes f).all Note.ofCall = true := by
  unfold resumeNotes
  split
  · exact f.worker.react_ofCall f.stage _
  · rfl

end World

/-- The error of a loop whose write hung when it ended. -/
def HeartbeatLoop.hung (l : HeartbeatLoop) : Note :=
  l.record .error "updating heartbeat" [("error", .text Failure.cancelled.text)]

namespace History

variable {h : History} {e : Event} {id : Nat} {l : HeartbeatLoop}

/-! ### The end of a loop -/

/-- The loop that an event brings to its end, as it was before. -/
def ending? (h : History) : Event → Option (Nat × HeartbeatLoop)
  | .wake (.loop id) =>
    ((h.world.loops.get? id).filter fun l => l.cancelled && l.phase ≠ .ended).map (id, ·)
  | _ => none

/-- The loops that have ended in a run, in order, each as it was before. -/
def endings (h : History) (es : List Event) : List (Nat × HeartbeatLoop) :=
  (h.scenes es).flatMap fun p => (p.1.ending? p.2).toList

theorem endings_concat (h : History) (es : List Event) (e : Event) :
    h.endings (es ++ [e]) = h.endings es ++ ((h.run es).ending? e).toList := by
  simp [endings, scenes_append, scenes]

theorem ending?_eq_some (he : h.ending? e = some (id, l)) : e = .wake (.loop id) ∧
    h.world.loops.get? id = some l ∧ l.cancelled = true ∧ l.phase ≠ .ended := by
  cases e with
  | wake t =>
    cases t with
    | cancel token => cases he
    | loop id' =>
      obtain ⟨l', hl', hpair⟩ := Option.map_eq_some_iff.mp he
      cases hpair
      obtain ⟨hl, hp⟩ := Option.filter_eq_some_iff.mp hl'
      rw [Bool.and_eq_true, decide_eq_true_eq] at hp
      exact ⟨rfl, hl, hp.1, hp.2⟩
  | _ => cases he

theorem ending?_wake (hl : h.world.loops.get? id = some l) : h.ending? (.wake (.loop id)) =
    if l.cancelled = true ∧ l.phase ≠ .ended then some (id, l) else none := by
  simp only [ending?, hl, Option.filter, Bool.and_eq_true, decide_eq_true_eq]
  split <;> rfl

/-- The end of a loop reports its farewell, and concerns neither the store nor the clock. -/
theorem ending_effect (he : h.ending? e = some (id, l)) :
    World.Reports l.farewell h.world (h.next e).world ∧
      (h.next e).world.store = h.world.store ∧ (h.next e).world.now = h.world.now ∧
      (h.next e).world.loops.get? id = some { l with phase := .ended } := by
  obtain ⟨rfl, hl, hc, hp⟩ := ending?_eq_some he
  have hsaid : h.said (.wake (.loop id)) = l.farewell := by
    simp [said, World.taskNotes, World.loopNotes, hl, hc]
  obtain ⟨ns, hw⟩ := World.runLoop_of_cancelled
    (w := { h.world with ready := h.world.ready.erase (.loop id) }) hl hc hp
  have hwake : (h.next (.wake (.loop id))).world = _ := hw
  refine ⟨hsaid ▸ reports_next h _, ?_, World.wake_now .., ?_⟩
  · rw [hwake, World.endLoop_store, World.notes_store]
  · rw [hwake, World.endLoop_loops, Table.get?_insert_self]

/-- The loop of the number is there and has ended. -/
def Ended (h : History) (id : Nat) : Prop :=
  ∃ l, h.world.loops.get? id = some l ∧ l.phase = .ended

/-- A loop has ended after an event if it had ended before, or if the event brings it to its end. -/
theorem ended_next (ho : h.world.Orderly) (e : Event) (id : Nat) :
    (h.next e).Ended id ↔ h.Ended id ∨ ∃ l, h.ending? e = some (id, l) := by
  constructor
  · rintro ⟨l', hl', hp'⟩
    rcases loop_next hl' with ⟨l, hl, hlead⟩ | ⟨_, _, _, _, -, -, -, rfl⟩
    · by_cases hp : l.phase = .ended
      · exact .inl ⟨l, hl, hp⟩
      rcases loopsKept_next h e with hk | ⟨name, token, m, expiry, -, -, -, -, -, hw⟩
      · have hmoved : e.loop? = some id := by
          by_contra hne
          exact hp ((hk.phase id l l' hne hl hl').symm.trans hp')
        cases e with
        | wake t =>
          cases t with
          | cancel token => cases hmoved
          | loop id' =>
            cases hmoved
            refine .inr ⟨l, ?_⟩
            rw [ending?_wake hl, if_pos]
            refine ⟨?_, hp⟩
            have hsame {l'' : HeartbeatLoop}
                (hloops : (h.next (.wake (.loop id))).world.loops = h.world.loops.insert id l'') :
                l' = l'' := by
              rw [hloops, Table.get?_insert_self] at hl'
              exact (Option.some.inj hl').symm
            rcases World.wake_cases hl with ⟨-, hw⟩ | ⟨-, hc, -⟩ | ⟨d, -, -, hw⟩
            · rw [show (h.next (.wake (.loop id))).world.loops = h.world.loops from hw, hl] at hl'
              cases hl'
              exact absurd hp' hp
            · exact hc
            · rw [hsame hw] at hp'
              dsimp only at hp'
              split at hp' <;> cases hp'
        | _ => cases hmoved
      · rw [hw, World.spawn_loops] at hl'
        split at hl'
        · cases hl'
          cases hp'
        · cases hl.symm.trans hl'
          exact absurd hp' hp
    · cases hp'
  · rintro (⟨l, hl, hp⟩ | ⟨l, he⟩)
    · obtain ⟨l', hl', hlead⟩ := loopsLead_next ho e id l hl
      exact ⟨l', hl', hlead.ended hp⟩
    · exact ⟨_, (ending_effect he).2.2.2, rfl⟩

/-- Every loop that has ended did so once. -/
theorem endings_once (clock : Clock) (es : List Event) :
    (((start clock).endings es).map Prod.fst).Nodup ∧
      ∀ id, id ∈ ((start clock).endings es).map Prod.fst ↔ ((start clock).run es).Ended id := by
  refine run_concat_induction (h := start clock) (P := fun es h =>
    (((start clock).endings es).map Prod.fst).Nodup ∧
      ∀ id, id ∈ ((start clock).endings es).map Prod.fst ↔ h.Ended id)
    ⟨List.nodup_nil, fun id => iff_of_false (by simp [endings, scenes]) fun ⟨l, hl, _⟩ => by cases hl⟩
    (fun es e ⟨hn, hmem⟩ => ?_) es
  have ho := (orderly_run clock es).1
  rw [endings_concat, List.map_append]
  cases he : ((start clock).run es).ending? e with
  | none =>
    refine ⟨by simpa using hn, fun id => ?_⟩
    rw [ended_next ho, he]
    simpa using hmem id
  | some p =>
    obtain ⟨id, l⟩ := p
    obtain ⟨-, hl, -, hp⟩ := ending?_eq_some he
    refine ⟨?_, fun id' => ?_⟩
    · refine List.nodup_append.mpr ⟨hn, by simp, fun a ha b hb hab => ?_⟩
      have hb : b = id := by simpa using hb
      obtain ⟨l', hl', hp'⟩ := (hmem id).mp (hb ▸ hab ▸ ha)
      cases hl.symm.trans hl'
      exact hp hp'
    · rw [ended_next ho, he, ← hmem id']
      simp [eq_comm]

/-! ### What is reported of it -/

theorem filter_beatNotes {p : Note → Bool} (l : HeartbeatLoop) (r : Response Unit)
    (hp : ∀ f, (l.missed .info f).filter p = []) (hcount : p (.count (.heartbeat true)) = false) :
    (l.beatNotes r).filter p = [] := by
  cases r with
  | answer a => simp [HeartbeatLoop.beatNotes, hcount]
  | failure f => exact hp f
  | stalled | broken => rfl

/-- Notes of a kind that are reported of the ends of loops alone. -/
theorem filter_said {p : Note → Bool} (told : HeartbeatLoop → List Note)
    (hcall : ∀ n : Note, n.ofCall = true → p n = false)
    (hwarn : ∀ fields span, p (.event .warn "consumer already started" fields span) = false)
    (hbeat : ∀ (l : HeartbeatLoop) r, (l.beatNotes r).filter p = [])
    (hgreet : ∀ l : HeartbeatLoop, p l.greeting = false)
    (htold : ∀ l : HeartbeatLoop, l.phase ≠ .ended → l.farewell.filter p = told l) (e : Event) :
    (h.said e).filter p = (h.ending? e).toList.flatMap fun x => told x.2 := by
  have hcalls {ns : List Note} (hns : ns.all Note.ofCall = true) : ns.filter p = [] :=
    List.filter_eq_nil_iff.mpr fun n hn => by simp [hcall n (List.all_eq_true.mp hns n hn)]
  cases e with
  | start member token =>
    rw [said, World.startNotes]
    split
    · rfl
    · split
      · simp [hwarn, ending?]
      · rfl
  | proceed n =>
    refine (?_ : _ = []).trans rfl
    rw [said]
    split
    · exact hcalls (h.world.stepNotes_ofCall _)
    · exact hcalls (h.world.resumeNotes_ofCall _)
    · rfl
  | abandon n =>
    refine (?_ : _ = []).trans rfl
    rw [said]
    split
    · exact hcalls (Worker.abandoned_ofCall ..)
    · exact hcalls (Worker.abandoned_ofCall ..)
    · rfl
  | wake t =>
    cases t with
    | cancel token => rfl
    | loop id =>
      rw [said, World.taskNotes]
      cases hl : h.world.loops.get? id with
      | none => simp [ending?, hl]
      | some l =>
        rw [ending?_wake hl, Option.map_some, Option.getD_some, World.loopNotes]
        by_cases hc : l.cancelled = true
        · by_cases hp : l.phase = .ended
          · simp [hc, hp, HeartbeatLoop.farewell]
          · simp [hc, hp, htold l hp]
        · rw [if_neg hc, if_neg fun hx => hc hx.1]
          cases hp : l.phase with
          | fresh => simp [hgreet, hbeat]
          | ticking deadline =>
            dsimp only
            split
            · exact hbeat l _
            · rfl
          | writing | ended => rfl
  | _ => rfl

/-- A loop says once that it has stopped. -/
theorem filter_isStop (h : History) (e : Event) :
    (h.said e).filter Note.isStop = (h.ending? e).toList.map fun x => x.2.stopped := by
  rw [filter_said (fun l => [l.stopped]) (fun n hn => (Note.quiet_of_ofCall hn).1) (fun _ _ => rfl)
    (fun l r => filter_beatNotes l r (fun f => rfl) rfl) (fun l => rfl) fun l hp => ?_]
  · cases h.ending? e <;> rfl
  · rw [HeartbeatLoop.farewell]
    cases hp' : l.phase with
    | ended => exact absurd hp' hp
    | fresh | ticking | writing => rfl

/-- It reports an error exactly if its write hung, and nobody else reports one. -/
theorem filter_isError (h : History) (e : Event) : (h.said e).filter Note.isError =
    ((h.ending? e).toList.filter fun x => x.2.phase = .writing).map fun x => x.2.hung := by
  rw [filter_said (fun l => if l.phase = .writing then [l.hung] else []) (fun n hn =>
      (Note.quiet_of_ofCall hn).2)
    (fun _ _ => rfl) (fun l r => filter_beatNotes l r (fun f => rfl) rfl) (fun l => rfl) fun l hp => ?_]
  · cases h.ending? e with
    | none => rfl
    | some x => by_cases hx : x.2.phase = .writing <;> simp [hx]
  · rw [HeartbeatLoop.farewell]
    cases hp' : l.phase with
    | ended => exact absurd hp' hp
    | fresh | ticking | writing => rfl

/-- Whatever the store is like, loops come to their end as soon as they are let go of, in every state that
a script of steps or a history leads to. The end of a loop reports its farewell and concerns neither the
store nor the clock: if a write hung, one heartbeat is counted as failed and one error is recorded, and
neither otherwise. A loop ends once, in an event of its own; so of every loop that has ended there is one
record that says so, and the errors of a session are those of the loops whose writes hung in the end. -/
theorem loops_end_when_let_go (clock : Clock) :
    (∀ steps, (World.reached clock steps).ready = [] ∧ (World.reached clock steps).Closes) ∧
    ∀ es, let h := (start clock).run es
      h.world.Closes ∧
      (∀ e id, (h.next e).Ended id ↔ h.Ended id ∨ ∃ l, h.ending? e = some (id, l)) ∧
      (∀ e id l, h.ending? e = some (id, l) → World.Reports l.farewell h.world (h.next e).world ∧
        (h.next e).world.store = h.world.store ∧ (h.next e).world.now = h.world.now) ∧
      (((start clock).endings es).map Prod.fst).Nodup ∧
      (∀ id, id ∈ ((start clock).endings es).map Prod.fst ↔ h.Ended id) ∧
      h.world.trace.toList.filter Note.isStop =
        ((start clock).endings es).map (fun x => x.2.stopped) ∧
      h.world.trace.toList.filter Note.isError =
        (((start clock).endings es).filter fun x => x.2.phase = .writing).map fun x => x.2.hung := by
  refine ⟨fun steps => ⟨World.reached_ready clock steps, (World.sound_reached clock steps).closes⟩,
    fun es => ?_⟩
  intro h
  obtain ⟨ho, hc⟩ : h.world.Orderly ∧ h.world.Checked := orderly_run clock es
  obtain ⟨hn, hmem⟩ := endings_once clock es
  have hsound : h.world.Sound := ⟨ho, hc⟩
  refine ⟨hsound.closes, fun e id => ended_next ho e id, fun e id l he => ?_, hn, hmem, ?_, ?_⟩
  · obtain ⟨hr, hs, hnow, -⟩ := ending_effect he
    exact ⟨hr, hs, hnow⟩
  · rw [filter_trace_run clock es fun n => Note.isRecord_of_isStop, endings, List.map_flatMap]
    simp only [filter_isStop]
  · rw [filter_trace_run clock es fun n => Note.isRecord_of_isError, endings, List.filter_flatMap,
      List.map_flatMap]
    simp only [filter_isError]

/-- A worker whose first heartbeat hangs. -/
def choked : List Step :=
  [.hire "w" "a" { Settings.brisk with address := ⟨"redis://localhost"⟩ } .text,
    .request (.stall .set) 1, .start "w" "main"]

/-- Stopping it ends its loop, and no other, with the report of a write that hung. -/
theorem loops_end_when_let_go_choked :
    let w := World.reached ⟨5, 0⟩ choked
    w.members.get? "w" = some ⟨⟨"a", { Settings.brisk with address := ⟨"redis://localhost"⟩ }, .text⟩,
        some 0⟩ ∧
      (w.loops.get? 0).map (·.phase) = some .writing ∧
      ∃ ids, (∀ id, id ∈ ids ↔ id = 0) ∧ World.Parts ids w (w.step (.stop "w")).1 := by
  intro w
  have hm : w.members.get? "w" = some ⟨⟨"a", { Settings.brisk with
      address := ⟨"redis://localhost"⟩ }, .text⟩, some 0⟩ := by decide +kernel
  have hp : (w.loops.get? 0).map (·.phase) = some .writing := by decide +kernel
  obtain ⟨hreached, -⟩ := loops_end_when_let_go ⟨5, 0⟩
  obtain ⟨hq, hcloses⟩ := hreached choked
  obtain ⟨⟨ids, -, hids, hparts⟩, -⟩ := hcloses.member hq _ _ hm
  refine ⟨hm, hp, ids, fun id => ?_, hparts⟩
  rw [hids]
  constructor
  · rintro ⟨hid, -⟩
    exact (Option.some.inj hid).symm
  · rintro rfl
    obtain ⟨l, hl, hl'⟩ := Option.map_eq_some_iff.mp hp
    exact ⟨rfl, l, hl, by simp [hl']⟩

end History

end StreamWorker
