import StreamWorker.Proofs.History.Writes
import StreamWorker.Proofs.Session.Order

/-! The loops of a history. Every event keeps the order among members, tokens, loops, timers and ready
tasks; no loop is ever lost, and one that has ended or was cancelled stays so. Whatever a loop has asked
for is the heartbeat of its worker, as the clock showed it then, for the time that its expiry says. -/

namespace StreamWorker

namespace World

theorem resume_world (w : World) (f : Flight) :
    ∃ trace ledger, (w.resume f).1 = { w with trace, ledger } := by
  rw [resume_eq]
  split
  · exact notes_eq w _
  · exact ⟨_, _, rfl⟩

end World

/-- Events that concern calls and the store alone. -/
def Event.isAside : Event → Bool
  | .begin .. | .proceed _ | .abandon _ | .operation _ => true
  | _ => false

/-- The loop that an event lets go on. -/
def Event.loop? : Event → Option Nat
  | .wake t => t.loop?
  | _ => none

theorem Event.eq_wake_of_loop? {e : Event} {id : Nat} (h : e.loop? = some id) : e = .wake (.loop id) := by
  cases e with
  | wake t =>
    cases t with
    | loop id' =>
      cases h
      rfl
    | cancel token => cases h
  | _ => cases h

namespace History

variable {h : History} {e : Event} {o : Occurrence} {id n : Nat}

/-- What holds at first and is preserved by every event, in view of the events so far, holds ever
after. -/
theorem run_concat_induction {P : List Event → History → Prop} {h : History} (h0 : P [] h)
    (hs : ∀ es e, P es (h.run es) → P (es ++ [e]) ((h.run es).next e)) (es : List Event) :
    P es (h.run es) := by
  have key : ∀ rest sofar, P sofar (h.run sofar) → P (sofar ++ rest) (h.run (sofar ++ rest)) := by
    intro rest
    induction rest with
    | nil => intro sofar hp; rwa [List.append_nil]
    | cons e rest ih =>
      intro sofar hp
      have hnext : P (sofar ++ [e]) (h.run (sofar ++ [e])) := by
        rw [run_append]
        exact hs sofar e hp
      have := ih (sofar ++ [e]) hnext
      rwa [List.append_assoc] at this
  exact key es [] h0

/-- Each event with the history in which it took place. -/
def scenes : History → List Event → List (History × Event)
  | _, [] => []
  | h, e :: es => (h, e) :: scenes (h.next e) es

theorem scenes_append (h : History) (es es' : List Event) :
    h.scenes (es ++ es') = h.scenes es ++ (h.run es).scenes es' := by
  induction es generalizing h with
  | nil => rfl
  | cons e es ih => exact congrArg ((h, e) :: ·) (ih (h.next e))

/-- An event of a run took place after the events before it. -/
theorem exists_of_mem_scenes {h : History} {es : List Event} {p : History × Event}
    (hp : p ∈ h.scenes es) : ∃ es₁ es₂, es = es₁ ++ p.2 :: es₂ ∧ p.1 = h.run es₁ := by
  induction es generalizing h with
  | nil => cases hp
  | cons e es ih =>
    rcases List.mem_cons.mp hp with rfl | hp
    · exact ⟨[], es, rfl, rfl⟩
    · obtain ⟨es₁, es₂, rfl, hrun⟩ := ih hp
      exact ⟨e :: es₁, es₂, rfl, hrun⟩

/-! ### The order of the world -/

theorem next_aside (h : History) {e : Event} (he : e.isAside = true) :
    ∃ store trace ledger, (h.next e).world = { h.world with store, trace, ledger } := by
  have hn (ns : List Note) : ∃ store trace ledger,
      h.world.notes ns = { h.world with store, trace, ledger } := by
    obtain ⟨trace, ledger, hw⟩ := World.notes_eq h.world ns
    exact ⟨_, trace, ledger, hw⟩
  cases e with
  | begin member token call => rw [next]; split <;> exact ⟨_, _, _, rfl⟩
  | proceed n =>
    rw [next]
    split
    · rw [proceed]
      split
      · next f _ =>
        obtain ⟨trace, ledger, hw⟩ := h.world.stepFlight_eq f
        exact ⟨_, trace, ledger, hw⟩
      · next f _ =>
        obtain ⟨trace, ledger, hw⟩ := h.world.resume_world f
        exact ⟨_, trace, ledger, hw⟩
      · exact ⟨_, _, _, rfl⟩
    · exact ⟨_, _, _, rfl⟩
  | abandon n =>
    rw [next]
    split
    · rw [abandon]
      split
      · exact hn _
      · exact hn _
      · exact ⟨_, _, _, rfl⟩
    · exact ⟨_, _, _, rfl⟩
  | operation op => exact ⟨_, _, _, rfl⟩
  | _ => cases he

theorem orderly_next (ho : h.world.Orderly) (hc : h.world.Checked) (e : Event) :
    (h.next e).world.Orderly := by
  by_cases ha : e.isAside = true
  · obtain ⟨store, trace, ledger, hw⟩ := h.next_aside ha
    rw [hw]
    exact ho.still rfl rfl rfl rfl rfl rfl
  · cases e with
    | hire name id settings kind => exact ho.hire name id settings kind
    | start member token => exact ho.start hc member token
    | stop member => exact ho.stop member
    | dismiss member => exact ho.dismiss member
    | command r => exact ho.command r
    | wake t => exact ho.wake t
    | elapse nanos => exact ho.arrive (Nat.le_add_right ..)
    | _ => exact absurd rfl ha

theorem orderly_run (clock : Clock) (es : List Event) :
    ((start clock).run es).world.Orderly ∧ ((start clock).run es).world.Checked :=
  run_induction (P := fun h => h.world.Orderly ∧ h.world.Checked)
    ⟨.new clock, fun name m hm => by cases hm⟩
    (fun h e ⟨ho, hc⟩ => ⟨orderly_next ho hc e, (h.next_leads e).checked hc⟩) es

/-! ### Loops stay -/

/-- Nothing but a start that begins a loop makes a new one. -/
theorem loopsKept_next (h : History) (e : Event) :
    World.LoopsKept e.loop? h.world (h.next e).world ∨
      ∃ name token m expiry, e = .start name token ∧ h.world.spawns name = true ∧
        h.world.members.get? name = some m ∧ ¬ h.world.isRunning m = true ∧
        m.worker.settings.expiry? = some expiry ∧
        (h.next e).world = h.world.spawn name m token expiry := by
  by_cases ha : e.isAside = true
  · obtain ⟨store, trace, ledger, hw⟩ := h.next_aside ha
    exact .inl (.of_eq (by rw [hw]))
  · cases e with
    | start name token =>
      rcases World.start_cases h.world name token with ⟨m, expiry, hsp, hm, hr, he, hs⟩ | ⟨-, ns, hs⟩
      · exact .inr ⟨name, token, m, expiry, rfl, hsp, hm, hr, he, hs⟩
      · exact .inl (.of_eq (by rw [next, hs, World.notes_loops]))
    | hire name id settings kind => exact .inl (.hire h.world name id settings kind)
    | stop member => exact .inl (.stop h.world member)
    | dismiss member => exact .inl (.dismiss h.world member)
    | command r => exact .inl (.command h.world r)
    | wake t => exact .inl (.wake h.world t)
    | elapse nanos => exact .inl (.of_eq rfl)
    | _ => exact absurd rfl ha

theorem loopsLead_next (ho : h.world.Orderly) (e : Event) :
    World.LoopsLead h.world (h.next e).world := by
  cases e with
  | start name token => exact World.loopsLead_start ho.free name token
  | _ =>
    rcases loopsKept_next h _ with hk | ⟨_, _, _, _, he, -⟩
    · exact hk.lead
    · cases he

/-- A loop was there before, or it has just been started. -/
theorem loop_next {l : HeartbeatLoop} (hl : (h.next e).world.loops.get? id = some l) :
    (∃ l₀, h.world.loops.get? id = some l₀ ∧ l₀.Leads l) ∨
      ∃ name token m expiry, e = .start name token ∧ h.world.spawns name = true ∧
        h.world.members.get? name = some m ∧ l = h.world.newLoop m token expiry := by
  rcases loopsKept_next h e with hk | ⟨name, token, m, expiry, he, hsp, hm, -, -, hw⟩
  · left
    cases hl₀ : h.world.loops.get? id with
    | none => rw [hk.old id hl₀] at hl; cases hl
    | some l₀ =>
      obtain ⟨l', hl', hlead⟩ := hk.lead id l₀ hl₀
      rw [hl] at hl'
      cases hl'
      exact ⟨l₀, rfl, hlead⟩
  · rw [hw, World.spawn_loops] at hl
    split at hl
    · cases hl
      exact .inr ⟨name, token, m, expiry, he, hsp, hm, rfl⟩
    · exact .inl ⟨l, hl, .refl l⟩

/-! ### What an event adds to the log -/

/-- The operations that take place in an event. -/
def added (h : History) : Event → List Occurrence
  | .proceed n =>
    match (h.calls[n]?).map CallRecord.course with
    | some (.running f) => h.asked n f
    | _ => []
  | .operation op => [h.occurrence .outsider op]
  | .wake t => h.beats t
  | _ => []

theorem log_next (h : History) (e : Event) : (h.next e).log = h.log ++ h.added e := by
  cases e with
  | begin member token call => rw [next]; split <;> simp [begin, added]
  | proceed n =>
    rw [next]
    cases hc : h.calls[n]? with
    | none => simp [added, hc]
    | some c => cases hf : c.course <;> simp [proceed, mark, added, hc, hf]
  | abandon n =>
    rw [next]
    cases hc : h.calls[n]? with
    | none => simp [added]
    | some c => cases hf : c.course <;> simp [abandon, mark, added, hf]
  | operation op => rfl
  | wake t => rfl
  | _ => simp [next, added]

/-- The log is what the events of a run have added to it, in order. -/
theorem log_run (h : History) (es : List Event) :
    (h.run es).log = h.log ++ (h.scenes es).flatMap fun p => p.1.added p.2 := by
  induction es generalizing h with
  | nil => exact (List.append_nil _).symm
  | cons e es ih => rw [run_cons, ih, log_next, scenes, List.flatMap_cons, List.append_assoc]

theorem mem_added_loop (ho : o ∈ h.added e) (hid : o.asker = .loop id) :
    e = .wake (.loop id) ∧ ∃ l, h.world.beating? id = some l ∧
      o = h.occurrence (.loop id) (.set l.worker.heartbeatKey (toString h.world.clock) l.expiry) := by
  cases e with
  | proceed n =>
    unfold added at ho
    dsimp only at ho
    split at ho
    · next f _ =>
      rcases asked_eq_nil_or h n f with ha | ⟨op, ha⟩
      · rw [ha] at ho; cases ho
      · rw [ha, List.mem_singleton] at ho
        rw [ho] at hid
        cases hid
    · cases ho
  | operation op =>
    rw [added, List.mem_singleton] at ho
    rw [ho] at hid
    cases hid
  | wake t =>
    unfold added beats at ho
    dsimp only at ho
    split at ho
    · next id' l hw =>
      rw [List.mem_singleton] at ho
      subst ho
      cases hid
      exact ⟨rfl, l, hw, rfl⟩
    · cases ho
  | _ => cases ho

theorem mem_added_call (ho : o ∈ h.added e) (hn : o.asker = .call n) :
    e = .proceed n ∧ ∃ c f, h.calls[n]? = some c ∧ c.course = .running f ∧
      h.world.isCancelled f.token = false ∧
      o = h.occurrence (.call n) (f.worker.operation f.stage) := by
  cases e with
  | proceed m =>
    unfold added at ho
    dsimp only at ho
    split at ho
    · next f hrun =>
      obtain ⟨c, hc, hf⟩ := Option.map_eq_some_iff.mp hrun
      unfold asked at ho
      split at ho
      · cases ho
      · next hx =>
        rw [List.mem_singleton] at ho
        subst ho
        cases hn
        exact ⟨rfl, c, f, hc, hf, by simpa using hx, rfl⟩
    · cases ho
  | operation op =>
    rw [added, List.mem_singleton] at ho
    rw [ho] at hn
    cases hn
  | wake t =>
    rcases beats_eq_nil_or h t with hb | ⟨id, key, value, ttl, hb⟩
    · rw [added, hb] at ho; cases ho
    · rw [added, hb, List.mem_singleton] at ho
      rw [ho] at hn
      cases hn
  | _ => cases ho

/-! ### What loops ask for -/

/-- An operation that a loop of the history has asked for is the heartbeat of its worker. -/
def BeatenBy (h : History) (id : Nat) (o : Occurrence) : Prop :=
  ∃ l, h.world.loops.get? id = some l ∧
    o.op = .set l.worker.heartbeatKey (toString o.clock) l.expiry

theorem loops_beat (clock : Clock) (es : List Event) :
    ∀ o ∈ ((start clock).run es).log, ∀ id, o.asker = .loop id →
      ((start clock).run es).BeatenBy id o := by
  refine run_concat_induction (P := fun _ h => ∀ o ∈ h.log, ∀ id, o.asker = .loop id → h.BeatenBy id o)
    (by intro o ho; cases ho) (fun es e ih o ho id hid => ?_) es
  have hlead := loopsLead_next (orderly_run clock es).1 e
  rw [log_next] at ho
  rcases List.mem_append.mp ho with ho | ho
  · obtain ⟨l, hl, hop⟩ := ih o ho id hid
    obtain ⟨l', hl', hsame⟩ := hlead id l hl
    exact ⟨l', hl', by rw [hop, hsame.worker, hsame.expiry]⟩
  · obtain ⟨-, l, hl, rfl⟩ := mem_added_loop ho hid
    obtain ⟨hl, -⟩ := Option.filter_eq_some_iff.mp hl
    obtain ⟨l', hl', hsame⟩ := hlead id l hl
    exact ⟨l', hl', by rw [hsame.worker, hsame.expiry]; rfl⟩

end History

end StreamWorker
