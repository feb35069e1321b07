import StreamWorker.Proofs.Session.World

/-! Heartbeat loops in a session. A loop that was not cancelled belongs to the member that started it and
is attached to its token, and it waits for its next tick. One that was cancelled is ready to notice it,
and does nothing else before it ends. So if nothing is ready, the loops that have not ended are those of
the members that run one. -/

namespace StreamWorker

/-- What does not change in a loop, and what stays once it is so. -/
structure HeartbeatLoop.Leads (l l' : HeartbeatLoop) : Prop where
  worker : l'.worker = l.worker
  interval : l'.interval = l.interval
  expiry : l'.expiry = l.expiry
  token : l'.token = l.token
  cancelled : l.cancelled = true → l'.cancelled = true
  ended : l.phase = .ended → l'.phase = .ended

theorem HeartbeatLoop.Leads.refl (l : HeartbeatLoop) : l.Leads l :=
  ⟨rfl, rfl, rfl, rfl, id, id⟩

theorem HeartbeatLoop.Leads.trans {l l' l'' : HeartbeatLoop} (h : l.Leads l') (h' : l'.Leads l'') :
    l.Leads l'' :=
  ⟨h'.worker.trans h.worker, h'.interval.trans h.interval, h'.expiry.trans h.expiry,
    h'.token.trans h.token, h'.cancelled ∘ h.cancelled, h'.ended ∘ h.ended⟩

/-- The loop that goes on when a task is run. -/
def Task.loop? : Task → Option Nat
  | .loop id => some id
  | .cancel _ => none

namespace World

variable {w v u : World} {id : Nat} {l : HeartbeatLoop}

/-! ### What a loop does when it is let go on -/

theorem note_eq_notes (w : World) (n : Note) : w.note n = w.notes [n] := rfl

section Notes
variable (w : World) (ns : List Note)

@[simp] theorem notes_now : (w.notes ns).now = w.now := by
  obtain ⟨trace, ledger, h⟩ := notes_eq w ns
  rw [h]

@[simp] theorem notes_members : (w.notes ns).members = w.members := by
  obtain ⟨trace, ledger, h⟩ := notes_eq w ns
  rw [h]

@[simp] theorem notes_tokens : (w.notes ns).tokens = w.tokens := by
  obtain ⟨trace, ledger, h⟩ := notes_eq w ns
  rw [h]

@[simp] theorem notes_loops : (w.notes ns).loops = w.loops := by
  obtain ⟨trace, ledger, h⟩ := notes_eq w ns
  rw [h]

@[simp] theorem notes_timers : (w.notes ns).timers = w.timers := by
  obtain ⟨trace, ledger, h⟩ := notes_eq w ns
  rw [h]

@[simp] theorem notes_ready : (w.notes ns).ready = w.ready := by
  obtain ⟨trace, ledger, h⟩ := notes_eq w ns
  rw [h]

end Notes

/-- From one world to the next, a loop has begun to wait for a tick. It has a timer for that, unless the
tick has come already: then the loop is ready, before everything else that is. -/
def Waits (w : World) (id : Nat) (l : HeartbeatLoop) (next : Nat) (v : World) : Prop :=
  v.loops = w.loops.insert id { l with phase := .ticking next } ∧
    (Instant.ceilMilli next ≤ w.now ∧ v.timers = w.timers ∧ v.ready = .loop id :: w.ready ∨
      w.now < Instant.ceilMilli next ∧ v.timers = w.timers ++ [⟨Instant.ceilMilli next, .loop id⟩] ∧
        v.ready = w.ready)

theorem awaitTick_waits (w : World) (id : Nat) (l : HeartbeatLoop) (deadline : Nat) :
    Waits w id l (nextTick w.now l deadline) (w.awaitTick id l deadline) := by
  refine ⟨rfl, ?_⟩
  by_cases h : Instant.ceilMilli (nextTick w.now l deadline) ≤ w.now
  · exact .inl ⟨h, if_pos h, if_pos h⟩
  · exact .inr ⟨Nat.lt_of_not_le h, if_neg h, if_neg h⟩

section Parts
variable (w : World) (id : Nat) (l : HeartbeatLoop) (deadline : Nat)

@[simp] theorem endLoop_now : (w.endLoop id l).now = w.now := by
  rw [endLoop, note_eq_notes]
  exact notes_now ..

@[simp] theorem endLoop_members : (w.endLoop id l).members = w.members := by
  rw [endLoop, note_eq_notes]
  exact notes_members ..

@[simp] theorem endLoop_ready : (w.endLoop id l).ready = w.ready := by
  rw [endLoop, note_eq_notes]
  exact notes_ready ..

@[simp] theorem endLoop_loops :
    (w.endLoop id l).loops = w.loops.insert id { l with phase := .ended } := by
  rw [endLoop, note_eq_notes]
  exact notes_loops ..

@[simp] theorem endLoop_tokens : (w.endLoop id l).tokens =
    w.tokens.insert l.token { w.token l.token with loops := swapRemove (w.token l.token).loops id } := by
  rw [endLoop, note_eq_notes]
  dsimp only
  rw [notes_tokens]
  rfl

@[simp] theorem endLoop_timers :
    (w.endLoop id l).timers = w.timers.filter (·.task ≠ .loop id) := by
  rw [endLoop, note_eq_notes]
  dsimp only
  rw [notes_timers]
  rfl

@[simp] theorem beat_now : (w.beat id l deadline).now = w.now := by
  obtain ⟨_, _, _, _, _, h⟩ := beat_eq w id l deadline
  rw [h]

@[simp] theorem beat_members : (w.beat id l deadline).members = w.members := by
  obtain ⟨_, _, _, _, _, h⟩ := beat_eq w id l deadline
  rw [h]

@[simp] theorem beat_tokens : (w.beat id l deadline).tokens = w.tokens := by
  obtain ⟨_, _, _, _, _, h⟩ := beat_eq w id l deadline
  rw [h]

/-- A beat is followed by the wait for the next one, unless its write has stalled. -/
theorem beat_phase :
    (.set ∈ w.store.stalled ∧
      (w.beat id l deadline).loops = w.loops.insert id { l with phase := .writing } ∧
      (w.beat id l deadline).timers = w.timers ∧ (w.beat id l deadline).ready = w.ready) ∨
    .set ∉ w.store.stalled ∧ Waits w id l (nextTick w.now l deadline) (w.beat id l deadline) := by
  have key (v : World) (ns : List Note)
      (hv : v.loops = w.loops ∧ v.timers = w.timers ∧ v.ready = w.ready ∧ v.now = w.now) :
      Waits w id l (nextTick w.now l deadline) ((v.notes ns).awaitTick id l deadline) := by
    have hw := (v.notes ns).awaitTick_waits id l deadline
    simpa only [Waits, notes_loops, notes_timers, notes_ready, notes_now, hv] using hw
  rcases Store.fault_cases w.store .set with hs | ⟨reason, hs, hf⟩ | ho
  · have h : w.store.set w.now l.worker.heartbeatKey (toString w.clock) l.expiry =
      (w.store, .stalled) := Store.gate_of_stalled hs
    exact .inl ⟨hs, by rw [beat, h]; exact ⟨rfl, rfl, rfl⟩⟩
  · have h : w.store.set w.now l.worker.heartbeatKey (toString w.clock) l.expiry =
      (w.store, .failure (.store reason)) := Store.gate_of_failing hs hf
    exact .inr ⟨hs, by rw [beat, h]; exact key w _ ⟨rfl, rfl, rfl, rfl⟩⟩
  · obtain ⟨store, h⟩ : ∃ store, w.store.set w.now l.worker.heartbeatKey (toString w.clock) l.expiry =
      (store, .answer ()) := ⟨_, Store.gate_of_open ho⟩
    refine .inr ⟨ho.1, ?_⟩
    rw [beat, h]
    exact key { w with store } [.count (.heartbeat true)] ⟨rfl, rfl, rfl, rfl⟩

end Parts

/-- A loop that is let go on still waits, or it ends because it was cancelled, or it beats. -/
theorem runLoop_cases (w : World) (id : Nat) :
    (w.runLoop id = w ∧ w.beating? id = none ∧ ∀ l, w.loops.get? id = some l → l.phase ≠ .ended →
      l.cancelled = false ∧ l.phase ≠ .fresh ∧
        ∀ d, l.phase = .ticking d → ¬ Instant.ceilMilli d ≤ w.now) ∨
    (∃ l ns, w.loops.get? id = some l ∧ w.beating? id = none ∧ l.phase ≠ .ended ∧ l.cancelled = true ∧
      w.runLoop id = (w.notes ns).endLoop id l) ∨
    (∃ l d ns, w.loops.get? id = some l ∧ w.beating? id = some l ∧ l.cancelled = false ∧
      (l.phase = .fresh ∧ d = w.now ∨ l.phase = .ticking d ∧ Instant.ceilMilli d ≤ w.now) ∧
      w.runLoop id = (w.notes ns).beat id l d) := by
  cases hl : w.loops.get? id with
  | none => exact .inl ⟨by simp [runLoop, hl], by simp [beating?, hl], by simp⟩
  | some l =>
    have hb : w.beating? id = if due w.now l then some l else none := by
      simp [beating?, hl, Option.filter]
    by_cases hc : l.cancelled = true
    · have hd : due w.now l = false := by simp [due, hc]
      rw [hd] at hb
      cases hp : l.phase with
      | ended =>
        refine .inl ⟨by simp [runLoop, hl, hp], hb, fun l' hl' hne => ?_⟩
        rw [← Option.some.inj hl'] at hne
        exact absurd hp hne
      | fresh =>
        obtain ⟨ns, hns⟩ : ∃ ns, w.runLoop id = (w.notes ns).endLoop id l := by
          simp only [runLoop, hl, hp, hc, if_true, note_eq_notes]
          exact ⟨_, rfl⟩
        exact .inr (.inl ⟨l, ns, rfl, hb, by rw [hp]; simp, hc, hns⟩)
      | ticking d =>
        have hns : w.runLoop id = (w.notes []).endLoop id l := by
          simp only [runLoop, hl, hp, hc, if_true]
          rfl
        exact .inr (.inl ⟨l, [], rfl, hb, by rw [hp]; simp, hc, hns⟩)
      | writing =>
        obtain ⟨ns, hns⟩ : ∃ ns, w.runLoop id = (w.notes ns).endLoop id l := by
          simp only [runLoop, hl, hp, hc, if_true]
          exact ⟨_, rfl⟩
        exact .inr (.inl ⟨l, ns, rfl, hb, by rw [hp]; simp, hc, hns⟩)
    · have hf : l.cancelled = false := by simpa using hc
      cases hp : l.phase with
      | fresh =>
        have hd : due w.now l = true := by simp [due, hp, hf]
        rw [hd, if_pos rfl] at hb
        obtain ⟨ns, hns⟩ : ∃ ns, w.runLoop id = (w.notes ns).beat id l w.now := by
          simp only [runLoop, hl, hp, hf, note_eq_notes, notes_now, Bool.false_eq_true, if_false]
          exact ⟨_, rfl⟩
        exact .inr (.inr ⟨l, w.now, ns, rfl, hb, hf, .inl ⟨hp, rfl⟩, hns⟩)
      | ticking d =>
        by_cases ht : Instant.ceilMilli d ≤ w.now
        · have hd : due w.now l = true := by simp [due, hp, hf, ht]
          rw [hd, if_pos rfl] at hb
          refine .inr (.inr ⟨l, d, [], rfl, hb, hf, .inr ⟨hp, ht⟩, ?_⟩)
          simp only [runLoop, hl, hp, hf, ht, if_true]
          rfl
        · have hd : due w.now l = false := by simp [due, hp, hf, ht]
          rw [hd] at hb
          refine .inl ⟨by simp [runLoop, hl, hp, hf, ht], hb, fun l' hl' _ => ?_⟩
          rw [← Option.some.inj hl']
          refine ⟨hf, by rw [hp]; simp, fun d' hd' => ?_⟩
          rw [hp] at hd'
          cases hd'
          exact ht
      | writing =>
        have hd : due w.now l = false := by simp [due, hp]
        rw [hd] at hb
        refine .inl ⟨by simp [runLoop, hl, hp, hf], hb, fun l' hl' _ => ?_⟩
        rw [← Option.some.inj hl']
        exact ⟨hf, by rw [hp]; simp, fun d' hd' => by rw [hp] at hd'; cases hd'⟩
      | ended =>
        have hd : due w.now l = false := by simp [due, hp]
        rw [hd] at hb
        refine .inl ⟨by simp [runLoop, hl, hp], hb, fun l' hl' hne => ?_⟩
        rw [← Option.some.inj hl'] at hne
        exact absurd hp hne

/-- What becomes of a loop whose task is taken off the ready ones and run. -/
theorem wake_cases (hl : w.loops.get? id = some l) :
    (w.beating? id = none ∧ (w.wake (.loop id)).loops = w.loops) ∨
    (w.beating? id = none ∧ l.cancelled = true ∧
      (w.wake (.loop id)).loops = w.loops.insert id { l with phase := .ended }) ∨
    ∃ d, w.beating? id = some l ∧
      (l.phase = .fresh ∧ d = w.now ∨ l.phase = .ticking d ∧ Instant.ceilMilli d ≤ w.now) ∧
      (w.wake (.loop id)).loops = w.loops.insert id { l with
        phase := if .set ∈ w.store.stalled then .writing else .ticking (nextTick w.now l d) } := by
  rcases runLoop_cases { w with ready := w.ready.erase (.loop id) } id with
    ⟨hw, hb, -⟩ | ⟨l₀, ns, hl₀, hb, -, hc, hw⟩ | ⟨l₀, d, ns, hl₀, hb, -, hp, hw⟩
  · exact .inl ⟨hb, by rw [wake, runTask, hw]⟩
  · have he : l₀ = l := Option.some.inj (hl₀.symm.trans hl)
    subst he
    exact .inr (.inl ⟨hb, hc, by rw [wake, runTask, hw, endLoop_loops, notes_loops]⟩)
  · have he : l₀ = l := Option.some.inj (hl₀.symm.trans hl)
    subst he
    refine .inr (.inr ⟨d, hb, hp, ?_⟩)
    rw [wake, runTask, hw]
    rcases beat_phase (({ w with ready := w.ready.erase (.loop id) } : World).notes ns) id l₀ d with
      ⟨hs, hloops, -⟩ | ⟨hs, hloops, -⟩
    · rw [notes_store] at hs
      rw [hloops, notes_loops, if_pos hs]
    · rw [notes_store] at hs
      rw [hloops, notes_loops, notes_now, if_neg hs]

/-- A loop that writes is neither cancelled nor has it ended. -/
theorem beating?_eq_some (hb : w.beating? id = some l) :
    w.loops.get? id = some l ∧ l.cancelled = false ∧ l.phase ≠ .ended := by
  obtain ⟨hl, hd⟩ := Option.filter_eq_some_iff.mp hb
  refine ⟨hl, ?_, fun hp => ?_⟩
  · cases hc : l.cancelled with
    | false => rfl
    | true => simp [due, hc] at hd
  · simp [due, hp] at hd

/-! ### Cancelling loops -/

/-- Some loops have been cancelled, and those that were not so before are ready to notice it. -/
structure Cancels (ids : List Nat) (w v : World) : Prop where
  loops : ∀ id, v.loops.get? id =
    (w.loops.get? id).map fun l => if id ∈ ids then { l with cancelled := true } else l
  size : v.loops.entries.length = w.loops.entries.length
  ready : ∀ t ∈ w.ready, t ∈ v.ready
  woken : ∀ id ∈ ids, ∀ l, w.loops.get? id = some l → l.cancelled = false → .loop id ∈ v.ready

namespace Cancels

theorem refl (w : World) : Cancels [] w w :=
  ⟨fun id => by simp, rfl, fun _ h => h, by simp⟩

theorem trans {ids ids' : List Nat} (h : Cancels ids w v) (h' : Cancels ids' v u) :
    Cancels (ids ++ ids') w u where
  loops id := by
    rw [h'.loops, h.loops, Option.map_map]
    congr 1
    funext l
    by_cases h₁ : id ∈ ids <;> by_cases h₂ : id ∈ ids' <;> simp [h₁, h₂]
  size := h'.size.trans h.size
  ready t ht := h'.ready t (h.ready t ht)
  woken id hid l hl hc := by
    by_cases h₁ : id ∈ ids
    · exact h'.ready _ (h.woken id h₁ l hl hc)
    · have h₂ : id ∈ ids' := (List.mem_append.mp hid).resolve_left h₁
      exact h'.woken id h₂ l (by rw [h.loops, hl]; simp [h₁]) hc

end Cancels

theorem cancels_cancelLoop (w : World) (id : Nat) : Cancels [id] w (w.cancelLoop id) := by
  unfold cancelLoop
  split
  · next l hl =>
    split
    · next hc =>
      refine ⟨fun id' => ?_, rfl, fun _ h => h, fun id' hid l' hl' hf => ?_⟩
      · by_cases he : id' = id
        · subst he
          simp [hl, ← hc]
        · simp [he]
      · rw [List.mem_singleton.mp hid, hl] at hl'
        rw [← Option.some.inj hl', hc] at hf
        cases hf
    · refine ⟨fun id' => ?_, ?_, fun t ht => List.mem_append_left _ ht, fun id' hid l' hl' hf => ?_⟩
      · rw [Table.get?_insert]
        by_cases he : id = id'
        · subst he
          simp [hl]
        · simp [he, Ne.symm he]
      · rw [Table.length_insert, hl]
        rfl
      · rw [List.mem_singleton.mp hid]
        exact List.mem_append_right _ (List.mem_singleton_self _)
  · next hl =>
    refine ⟨fun id' => ?_, rfl, fun _ h => h, fun id' hid l' hl' hf => ?_⟩
    · by_cases he : id' = id
      · subst he
        simp [hl]
      · simp [he]
    · rw [List.mem_singleton.mp hid, hl] at hl'
      cases hl'

theorem cancels_foldl (w : World) (ids : List Nat) : Cancels ids w (ids.foldl cancelLoop w) := by
  induction ids generalizing w with
  | nil => exact .refl w
  | cons id ids ih => exact (cancels_cancelLoop w id).trans (ih (w.cancelLoop id))

/-- The loops that a member stops. -/
theorem cancels_stopLoop (w : World) (m : Member) : Cancels m.loop.toList w (w.stopLoop m) := by
  unfold stopLoop
  cases m.loop with
  | none => exact .refl w
  | some id => exact cancels_cancelLoop w id

/-! ### Loops later on -/

/-- Every loop is still there, and what is settled about it stays so. -/
def LoopsLead (w w' : World) : Prop :=
  ∀ id l, w.loops.get? id = some l → ∃ l', w'.loops.get? id = some l' ∧ l.Leads l'

theorem LoopsLead.trans (h : LoopsLead w v) (h' : LoopsLead v u) : LoopsLead w u := fun id l hl => by
  obtain ⟨l', hl', hlead⟩ := h id l hl
  obtain ⟨l'', hl'', hlead'⟩ := h' id l' hl'
  exact ⟨l'', hl'', hlead.trans hlead'⟩

/-- Every loop is still there, there is no new one, and at most one was let go on. -/
structure LoopsKept (moved : Option Nat) (w w' : World) : Prop where
  lead : LoopsLead w w'
  old : ∀ id, w.loops.get? id = none → w'.loops.get? id = none
  phase : ∀ id l l', moved ≠ some id → w.loops.get? id = some l → w'.loops.get? id = some l' →
    l'.phase = l.phase

namespace LoopsKept

variable {moved : Option Nat}

theorem of_eq (h : v.loops = w.loops) : LoopsKept moved w v where
  lead _ l hl := ⟨l, by rw [h, hl], .refl l⟩
  old _ hn := by rw [h, hn]
  phase _ l l' _ hl hl' := by
    rw [h, hl] at hl'
    cases hl'
    rfl

theorem trans (h : LoopsKept moved w v) (h' : LoopsKept moved v u) : LoopsKept moved w u where
  lead := h.lead.trans h'.lead
  old id hn := h'.old id (h.old id hn)
  phase id l l'' hne hl hl'' := by
    obtain ⟨l', hl', -⟩ := h.lead id l hl
    rw [h'.phase id l' l'' hne hl' hl'', h.phase id l l' hne hl hl']

theorem of_cancels {ids : List Nat} (h : Cancels ids w v) : LoopsKept moved w v where
  lead id l hl := by
    refine ⟨_, by rw [h.loops, hl]; rfl, ?_⟩
    split
    · exact ⟨rfl, rfl, rfl, rfl, fun _ => rfl, fun hp => hp⟩
    · exact .refl l
  old id hn := by
    rw [h.loops, hn]
    rfl
  phase id l l' _ hl hl' := by
    rw [h.loops, hl] at hl'
    cases hl'
    dsimp only
    split <;> rfl

/-- A loop that has not ended goes to another phase. -/
theorem setPhase {phase : LoopPhase} (hl : w.loops.get? id = some l) (hp : l.phase ≠ .ended)
    (hv : v.loops = w.loops.insert id { l with phase }) : LoopsKept (some id) w v where
  lead id' l' hl' := by
    rw [hv, Table.get?_insert]
    split
    · next he =>
      rw [← he, hl] at hl'
      cases hl'
      exact ⟨_, rfl, rfl, rfl, rfl, rfl, fun hc => hc, fun he => absurd he hp⟩
    · exact ⟨l', hl', .refl l'⟩
  old id' hn := by
    rw [hv, Table.get?_insert, if_neg, hn]
    rintro rfl
    rw [hl] at hn
    cases hn
  phase id' l₁ l₂ hne hl₁ hl₂ := by
    rw [hv, Table.get?_insert_of_ne _ (fun he => hne (congrArg some he)), hl₁] at hl₂
    cases hl₂
    rfl

theorem runLoop (w : World) (id : Nat) : LoopsKept (some id) w (w.runLoop id) := by
  rcases runLoop_cases w id with ⟨hw, -⟩ | ⟨l, ns, hl, -, hp, -, hw⟩ | ⟨l, d, ns, hl, -, -, hp, hw⟩
  · exact of_eq (by rw [hw])
  · exact setPhase hl hp (by rw [hw, endLoop_loops, notes_loops])
  · have hp : l.phase ≠ .ended := fun he => by
      rcases hp with ⟨hp, -⟩ | ⟨hp, -⟩ <;> exact absurd (hp.symm.trans he) (by simp)
    rcases beat_phase (w.notes ns) id l d with ⟨-, hb, -⟩ | ⟨-, hb, -⟩
    · exact setPhase hl hp (by rw [hw, hb, notes_loops])
    · exact setPhase hl hp (by rw [hw, hb, notes_loops])

theorem cancelToken (w : World) (name : String) : LoopsKept moved w (w.cancelToken name) := by
  by_cases hx : (w.token name).cancelled = true
  · exact of_eq (by rw [World.cancelToken, if_pos hx])
  · have hc := cancels_foldl { w with tokens := w.tokens.insert name { cancelled := true } }
      (w.token name).loops.reverse
    rw [World.cancelToken, if_neg hx]
    exact of_cancels (w := w) ⟨hc.loops, hc.size, hc.ready, hc.woken⟩

theorem wake (w : World) (t : Task) : LoopsKept t.loop? w (w.wake t) := by
  have hr : LoopsKept t.loop? w { w with ready := w.ready.erase t } := of_eq rfl
  cases t with
  | loop id => exact hr.trans (runLoop _ id)
  | cancel token => exact hr.trans (cancelToken _ token)

theorem stopLoop (w : World) (m : Member) : LoopsKept moved w (w.stopLoop m) :=
  of_cancels (cancels_stopLoop w m)

theorem hire (w : World) (name id : String) (settings : Settings) (kind : Payload.Kind) :
    LoopsKept moved w (w.hire name id settings kind).1 := by
  unfold World.hire
  split
  · exact of_eq rfl
  · split
    · next m _ => exact (stopLoop w m).trans (of_eq rfl)
    · exact of_eq rfl

theorem stop (w : World) (name : String) : LoopsKept moved w (w.stop name).1 := by
  unfold World.stop
  split
  · exact of_eq rfl
  · next m _ => exact (stopLoop w m).trans (of_eq rfl)

theorem dismiss (w : World) (name : String) : LoopsKept moved w (w.dismiss name).1 := by
  unfold World.dismiss
  split
  · exact of_eq rfl
  · next m _ => exact (stopLoop w m).trans (of_eq rfl)

theorem command (w : World) (r : Request) : LoopsKept moved w (w.command r) := by
  cases r with
  | cancel token => exact cancelToken w token
  | cancelAfter token millis =>
    by_cases h : millis = 0
    · exact of_eq (by rw [World.command, if_pos h])
    · exact of_eq (by rw [World.command, if_neg h])
  | _ => exact of_eq rfl

end LoopsKept

/-! ### Starting -/

/-- Whether a start of the member begins a loop. -/
def spawns (w : World) (name : String) : Bool :=
  match w.members.get? name with
  | some m => !w.isRunning m && m.worker.settings.expiry?.isSome
  | none => false

/-- The loop that a start begins. -/
def newLoop (w : World) (m : Member) (token : String) (expiry : Duration) : HeartbeatLoop :=
  { worker := m.worker, interval := m.worker.settings.interval, expiry, token
    cancelled := w.isCancelled token }

/-- A start begins a loop, or it only leaves a note, or not even that. -/
theorem start_cases (w : World) (name token : String) :
    (∃ m expiry, w.spawns name = true ∧ w.members.get? name = some m ∧ ¬ w.isRunning m = true ∧
      m.worker.settings.expiry? = some expiry ∧
      (w.start name token).1 = w.spawn name m token expiry) ∨
    (w.spawns name = false ∧ ∃ ns, (w.start name token).1 = w.notes ns) := by
  cases hm : w.members.get? name with
  | none => exact .inr ⟨by simp [spawns, hm], [], by simp only [start, hm]; rfl⟩
  | some m =>
    by_cases hr : w.isRunning m = true
    · refine .inr ⟨by simp [spawns, hm, hr], ?_⟩
      simp only [start, hm, if_pos hr]
      exact ⟨_, note_eq_notes ..⟩
    · cases he : m.worker.settings.expiry? with
      | none => exact .inr ⟨by simp [spawns, hm, he], [], by simp only [start, hm, if_neg hr, he]; rfl⟩
      | some expiry =>
        exact .inl ⟨m, expiry, by simp [spawns, hm, hr, he], rfl, hr, he,
          by simp only [start, hm, if_neg hr, he]⟩

theorem spawn_loops (w : World) (name : String) (m : Member) (token : String) (expiry : Duration)
    (id : Nat) : (w.spawn name m token expiry).loops.get? id =
      if w.loops.entries.length = id then some (w.newLoop m token expiry) else w.loops.get? id :=
  Table.get?_insert ..

theorem spawn_members (w : World) (name : String) (m : Member) (token : String) (expiry : Duration)
    (n : String) : (w.spawn name m token expiry).members.get? n =
      if name = n then some { m with loop := some w.loops.entries.length }
      else w.members.get? n :=
  Table.get?_insert ..

/-- Starting leaves other loops alone, because the new one has a number of its own. -/
theorem loopsLead_start (hfree : w.loops.get? w.loops.entries.length = none) (name token : String) :
    LoopsLead w (w.start name token).1 := by
  rcases start_cases w name token with ⟨m, expiry, -, -, -, -, hs⟩ | ⟨-, ns, hs⟩
  · intro id l hl
    rw [hs, spawn_loops, if_neg, hl]
    · exact ⟨l, rfl, .refl l⟩
    · rintro rfl
      rw [hfree] at hl
      cases hl
  · rw [hs]
    exact (LoopsKept.of_eq (notes_loops w ns) : LoopsKept none w _).lead

/-! ### Members -/

theorem stopLoop_members (w : World) (m : Member) : (w.stopLoop m).members = w.members := by
  obtain ⟨loops, ready, h⟩ := stopLoop_eq w m
  rw [h]

/-- Workers are made, stopped and dismissed without regard to the store, to tokens and to time. -/
theorem hire_eq (w : World) (name id : String) (settings : Settings) (kind : Payload.Kind) :
    ∃ members loops ready, (w.hire name id settings kind).1 = { w with members, loops, ready } := by
  unfold hire
  split
  · exact ⟨_, _, _, rfl⟩
  · split
    · next m _ =>
      obtain ⟨loops, ready, h⟩ := stopLoop_eq w m
      rw [h]
      exact ⟨_, _, _, rfl⟩
    · exact ⟨_, _, _, rfl⟩

theorem stop_eq (w : World) (name : String) :
    ∃ members loops ready, (w.stop name).1 = { w with members, loops, ready } := by
  unfold stop
  split
  · exact ⟨_, _, _, rfl⟩
  · next m _ =>
    obtain ⟨loops, ready, h⟩ := stopLoop_eq w m
    rw [h]
    exact ⟨_, _, _, rfl⟩

theorem dismiss_eq (w : World) (name : String) :
    ∃ members loops ready, (w.dismiss name).1 = { w with members, loops, ready } := by
  unfold dismiss
  split
  · exact ⟨_, _, _, rfl⟩
  · next m _ =>
    obtain ⟨loops, ready, h⟩ := stopLoop_eq w m
    rw [h]
    exact ⟨_, _, _, rfl⟩

theorem hire_members (w : World) (name id : String) (settings : Settings) (kind : Payload.Kind)
    (n : String) : (w.hire name id settings kind).1.members.get? n =
      if name = n ∧ settings.check.isOk then some ⟨⟨id, settings, kind⟩, none⟩
      else w.members.get? n := by
  cases hc : settings.check with
  | error fault =>
    have hw : Worker.create id settings kind = .error fault := by rw [Worker.create, hc]; rfl
    simp [hire, hw, Except.isOk, Except.toBool]
  | ok u =>
    have hw : Worker.create id settings kind = .ok ⟨id, settings, kind⟩ := by
      rw [Worker.create, hc]; rfl
    cases hm : w.members.get? name <;>
      simp [hire, hw, hm, stopLoop_members, Table.get?_insert, Except.isOk, Except.toBool]

theorem stop_members (w : World) (name n : String) : (w.stop name).1.members.get? n =
    if name = n then (w.members.get? name).map ({ · with loop := none }) else w.members.get? n := by
  cases hm : w.members.get? name with
  | none =>
    simp only [stop, hm, Option.map_none]
    split
    · next hn => rw [← hn, hm]
    · rfl
  | some m => simp [stop, hm, Table.get?_insert]

theorem dismiss_members (w : World) (name n : String) : (w.dismiss name).1.members.get? n =
    if name = n then none else w.members.get? n := by
  cases hm : w.members.get? name with
  | none =>
    simp only [dismiss, hm]
    split
    · next hn => rw [← hn, hm]
    · rfl
  | some m => simp [dismiss, hm, Table.get?_erase]

theorem cancelToken_members (w : World) (name : String) : (w.cancelToken name).members = w.members := by
  rcases cancelToken_eq w name with h | ⟨loops, ready, h⟩ <;> rw [h]

theorem command_members (w : World) (r : Request) : (w.command r).members = w.members := by
  cases r with
  | cancel token => exact cancelToken_members w token
  | cancelAfter token millis =>
    by_cases h : millis = 0
    · rw [command, if_pos h]
    · rw [command, if_neg h]
  | _ => rfl

theorem cancelToken_now (w : World) (name : String) : (w.cancelToken name).now = w.now := by
  rcases cancelToken_eq w name with h | ⟨loops, ready, h⟩ <;> rw [h]

theorem command_now (w : World) (r : Request) : (w.command r).now = w.now := by
  cases r with
  | cancel token => exact cancelToken_now w token
  | cancelAfter token millis =>
    by_cases h : millis = 0
    · rw [command, if_pos h]
    · rw [command, if_neg h]
  | _ => rfl

theorem wake_now (w : World) (t : Task) : (w.wake t).now = w.now := by
  cases t with
  | cancel token => exact cancelToken_now _ token
  | loop id =>
    rcases runLoop_cases { w with ready := w.ready.erase (.loop id) } id with
      ⟨hw, -⟩ | ⟨l, ns, -, -, -, -, hw⟩ | ⟨l, d, ns, -, -, -, -, hw⟩
    · rw [wake, runTask, hw]
    · rw [wake, runTask, hw, endLoop_now, notes_now]
    · rw [wake, runTask, hw, beat_now, notes_now]

theorem wake_members (w : World) (t : Task) : (w.wake t).members = w.members := by
  cases t with
  | cancel token => exact cancelToken_members _ token
  | loop id =>
    rcases runLoop_cases { w with ready := w.ready.erase (.loop id) } id with
      ⟨hw, -⟩ | ⟨l, ns, -, -, -, -, hw⟩ | ⟨l, d, ns, -, -, -, -, hw⟩
    · rw [wake, runTask, hw]
    · rw [wake, runTask, hw, endLoop_members, notes_members]
    · rw [wake, runTask, hw, beat_members, notes_members]

/-! ### Lists of loops -/

theorem mem_of_mem_swapRemove {l : List Nat} {x y : Nat} (h : y ∈ swapRemove l x) : y ∈ l := by
  unfold swapRemove at h
  split at h
  · next last hlast =>
    split at h
    · obtain ⟨front, rfl⟩ := List.getLast?_eq_some_iff.mp hlast
      rw [List.dropLast_concat] at h
      obtain ⟨z, hz, rfl⟩ := List.mem_map.mp h
      split
      · exact List.mem_append_right _ (List.mem_singleton_self last)
      · exact List.mem_append_left _ hz
    · exact h
  · exact h

theorem mem_swapRemove_of_ne {l : List Nat} {x y : Nat} (h : y ∈ l) (hne : y ≠ x) :
    y ∈ swapRemove l x := by
  unfold swapRemove
  split
  · next last hlast =>
    split
    · next hx =>
      obtain ⟨front, rfl⟩ := List.getLast?_eq_some_iff.mp hlast
      rw [List.dropLast_concat, List.mem_map]
      rcases List.mem_append.mp h with hy | hy
      · exact ⟨y, hy, if_neg hne⟩
      · -- the last element has taken the place of the one that was taken out
        have hy' : y = last := List.mem_singleton.mp hy
        rcases List.mem_append.mp hx with hx | hx
        · exact ⟨x, hx, by rw [if_pos rfl, hy']⟩
        · exact absurd (hy'.trans (List.mem_singleton.mp hx).symm) hne
    · exact h
  · exact h

end World

end StreamWorker
