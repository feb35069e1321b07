import StreamWorker.Proofs.Store.Memory
import StreamWorker.Session.Script

/-! What the moves of a session leave alone. The store changes only where an operation is performed on
it: a heartbeat loop performs at most one, the write of its tick, whenever it is let go on. Time never
goes back, a token that is cancelled stays cancelled, and every worker was made with settings that can
be used. -/

namespace StreamWorker.World

variable {w w' : World}

/-- Every worker was made with settings that can be used. -/
def Checked (w : World) : Prop :=
  ∀ name m, w.members.get? name = some m → m.worker.settings.check = .ok ()

/-- What only grows from one state of a session to a later one. -/
structure Leads (w w' : World) : Prop where
  now_le : w.now ≤ w'.now
  cancelled : ∀ t, w.isCancelled t = true → w'.isCancelled t = true
  checked : w.Checked → w'.Checked

theorem Leads.refl (w : World) : Leads w w := ⟨Nat.le_refl _, fun _ h => h, id⟩

theorem Leads.trans {w'' : World} (h : Leads w w') (h' : Leads w' w'') : Leads w w'' :=
  ⟨Nat.le_trans h.now_le h'.now_le, fun t ht => h'.cancelled t (h.cancelled t ht), h'.checked ∘ h.checked⟩

/-- Later states with the same tokens and the same members. -/
theorem leads_of_eq (hn : w.now ≤ w'.now) (ht : w'.tokens = w.tokens) (hm : w'.members = w.members) :
    Leads w w' where
  now_le := hn
  cancelled t h := by rwa [isCancelled, token, ht]
  checked h := by rwa [Checked, hm]

theorem isCancelled_congr {t : String} (h : w'.tokens.get? t = w.tokens.get? t) :
    w'.isCancelled t = w.isCancelled t := by
  rw [isCancelled, token, Table.getD, h]
  rfl

/-- Replacing a token by one that is cancelled if the old one was. -/
theorem leads_insert_token {name : String} {t : Token} (hn : w'.now = w.now)
    (ht : w'.tokens = w.tokens.insert name t) (hm : w'.members = w.members)
    (hc : w.isCancelled name = true → t.cancelled = true) : Leads w w' where
  now_le := Nat.le_of_eq hn.symm
  cancelled s h := by
    by_cases e : name = s
    · subst e
      simp [isCancelled, token, ht, Table.getD, hc h]
    · rwa [isCancelled_congr (w := w) (by rw [ht, Table.get?_insert_of_ne _ e])]
  checked h := by rwa [Checked, hm]

/-! ### Notes -/

theorem notes_eq (w : World) (l : List Note) :
    ∃ trace ledger, w.notes l = { w with trace, ledger } := by
  induction l generalizing w with
  | nil => exact ⟨_, _, rfl⟩
  | cons n l ih =>
    obtain ⟨trace, ledger, h⟩ := ih (w.note n)
    exact ⟨trace, ledger, by rw [show w.notes (n :: l) = (w.note n).notes l from rfl, h]; cases n <;> rfl⟩

theorem note_eq (w : World) (n : Note) : ∃ trace ledger, w.note n = { w with trace, ledger } :=
  notes_eq w [n]

@[simp] theorem notes_store (w : World) (l : List Note) : (w.notes l).store = w.store := by
  obtain ⟨trace, ledger, h⟩ := notes_eq w l
  rw [h]

@[simp] theorem note_store (w : World) (n : Note) : (w.note n).store = w.store :=
  notes_store w [n]

theorem leads_notes (w : World) (l : List Note) : Leads w (w.notes l) := by
  obtain ⟨trace, ledger, h⟩ := notes_eq w l
  rw [h]
  exact leads_of_eq (Nat.le_refl _) rfl rfl

/-! ### Cancelling -/

theorem cancelLoop_eq (w : World) (id : Nat) :
    ∃ loops ready, w.cancelLoop id = { w with loops, ready } := by
  unfold cancelLoop
  split
  · split
    · exact ⟨_, _, rfl⟩
    · exact ⟨_, _, rfl⟩
  · exact ⟨_, _, rfl⟩

theorem cancelLoops_eq (w : World) (l : List Nat) :
    ∃ loops ready, l.foldl cancelLoop w = { w with loops, ready } := by
  induction l generalizing w with
  | nil => exact ⟨_, _, rfl⟩
  | cons id l ih =>
    obtain ⟨loops, ready, h⟩ := cancelLoop_eq w id
    obtain ⟨loops', ready', h'⟩ := ih (w.cancelLoop id)
    exact ⟨loops', ready', by rw [List.foldl_cons, h', h]⟩

theorem cancelToken_eq (w : World) (name : String) :
    w.cancelToken name = w ∨ ∃ loops ready, w.cancelToken name =
      { w with tokens := w.tokens.insert name { cancelled := true }, loops, ready } := by
  by_cases ht : (w.token name).cancelled = true
  · exact .inl (by simp [cancelToken, ht])
  · right
    obtain ⟨loops, ready, h⟩ := cancelLoops_eq
      { w with tokens := w.tokens.insert name { cancelled := true } } (w.token name).loops.reverse
    exact ⟨loops, ready, by simp [cancelToken, ht, h]⟩

@[simp] theorem cancelToken_store (w : World) (name : String) :
    (w.cancelToken name).store = w.store := by
  rcases cancelToken_eq w name with h | ⟨loops, ready, h⟩ <;> rw [h]

theorem leads_cancelToken (w : World) (name : String) : Leads w (w.cancelToken name) := by
  rcases cancelToken_eq w name with h | ⟨loops, ready, h⟩
  · rw [h]; exact Leads.refl w
  · rw [h]; exact leads_insert_token rfl rfl rfl fun _ => rfl

theorem stopLoop_eq (w : World) (m : Member) :
    ∃ loops ready, w.stopLoop m = { w with loops, ready } := by
  unfold stopLoop
  split
  · exact cancelLoop_eq w _
  · exact ⟨_, _, rfl⟩

/-! ### Heartbeat loops -/

theorem endLoop_eq (w : World) (id : Nat) (l : HeartbeatLoop) :
    ∃ loops trace ledger timers, w.endLoop id l =
      { w with
          loops, trace, ledger, timers
          tokens := w.tokens.insert l.token
            { w.token l.token with loops := swapRemove (w.token l.token).loops id } } := by
  have key (n : Note) : ∃ trace ledger, ((w.setPhase id l .ended).note n) =
      { w with loops := w.loops.insert id { l with phase := .ended }, trace, ledger } :=
    note_eq (w.setPhase id l .ended) n
  obtain ⟨trace, ledger, h⟩ := key _
  exact ⟨_, trace, ledger, _, by rw [endLoop, h]⟩

@[simp] theorem endLoop_store (w : World) (id : Nat) (l : HeartbeatLoop) :
    (w.endLoop id l).store = w.store := by
  obtain ⟨_, _, _, _, h⟩ := endLoop_eq w id l
  rw [h]

theorem leads_endLoop (w : World) (id : Nat) (l : HeartbeatLoop) : Leads w (w.endLoop id l) := by
  obtain ⟨loops, trace, ledger, timers, h⟩ := endLoop_eq w id l
  rw [h]
  exact leads_insert_token rfl rfl rfl fun h => h

/-- Whether a loop would write the heartbeat of a tick if it were let go on now. -/
def due (now : Nat) (l : HeartbeatLoop) : Bool :=
  !l.cancelled && match l.phase with
    | .fresh => true
    | .ticking deadline => Instant.ceilMilli deadline ≤ now
    | .writing | .ended => false

/-- The loop of an id, if it would write now. -/
def beating? (w : World) (id : Nat) : Option HeartbeatLoop := (w.loops.get? id).filter (due w.now)

/-- The store after the write of a loop. -/
def beaten (w : World) (l : HeartbeatLoop) : Store :=
  (w.store.set w.now l.worker.heartbeatKey (toString w.clock) l.expiry).1

/-- A beat performs its write and otherwise only concerns loops, timers, ready tasks and notes. -/
theorem beat_eq (w : World) (id : Nat) (l : HeartbeatLoop) (deadline : Nat) :
    ∃ loops trace ledger timers ready, w.beat id l deadline =
      { w with store := w.beaten l, loops, trace, ledger, timers, ready } := by
  have key (v : World) (ns : List Note) :
      ∃ loops trace ledger timers ready, (v.notes ns).awaitTick id l deadline =
        { v with loops, trace, ledger, timers, ready } := by
    obtain ⟨trace, ledger, h⟩ := notes_eq v ns
    exact ⟨_, trace, ledger, _, _, by rw [h]; rfl⟩
  cases h : w.store.set w.now l.worker.heartbeatKey (toString w.clock) l.expiry with
  | mk store response =>
    have hs : w.beaten l = store := congrArg Prod.fst h
    rw [hs]
    cases response with
    | answer a =>
      obtain ⟨loops, trace, ledger, timers, ready, hk⟩ :=
        key { w with store } [.count (.heartbeat true)]
      exact ⟨loops, trace, ledger, timers, ready, by rw [← hk, beat, h]; rfl⟩
    | failure f =>
      have hk (ns : List Note) := key { w with store } ns
      simp only [beat, h]
      exact hk _
    | stalled => exact ⟨_, _, _, _, _, by rw [beat, h]; rfl⟩
    | broken b => exact ⟨_, _, _, _, _, by rw [beat, h]; rfl⟩

theorem beat_store (w : World) (id : Nat) (l : HeartbeatLoop) (deadline : Nat) :
    (w.beat id l deadline).store = w.beaten l := by
  obtain ⟨_, _, _, _, _, h⟩ := beat_eq w id l deadline
  rw [h]

theorem leads_beat (w : World) (id : Nat) (l : HeartbeatLoop) (deadline : Nat) :
    Leads w (w.beat id l deadline) := by
  obtain ⟨_, _, _, _, _, h⟩ := beat_eq w id l deadline
  rw [h]
  exact leads_of_eq (Nat.le_refl _) rfl rfl

/-- The only operation of a loop that is let go on is the write of its heartbeat. -/
theorem runLoop_store (w : World) (id : Nat) :
    (w.runLoop id).store = ((w.beating? id).map w.beaten).getD w.store := by
  have hn (n : Note) (l : HeartbeatLoop) : (w.note n).beaten l = w.beaten l := by
    obtain ⟨trace, ledger, h⟩ := note_eq w n
    rw [h]
    rfl
  cases hl : w.loops.get? id with
  | none => simp [runLoop, beating?, hl]
  | some l =>
    have hb : w.beating? id = if due w.now l then some l else none := by
      simp [beating?, hl, Option.filter]
    rw [hb]
    by_cases hc : l.cancelled = true
    · have hd : due w.now l = false := by simp [due, hc]
      rw [hd]
      cases hp : l.phase <;> simp [runLoop, hl, hp, hc, endLoop_store]
    · cases hp : l.phase with
      | fresh => simp [runLoop, hl, hp, hc, due, beat_store, hn]
      | ticking deadline =>
        by_cases hd : Instant.ceilMilli deadline ≤ w.now <;>
          simp [runLoop, hl, hp, hc, hd, due, beat_store]
      | writing => simp [runLoop, hl, hp, hc, due]
      | ended => simp [runLoop, hl, hp, hc, due]

theorem leads_runLoop (w : World) (id : Nat) : Leads w (w.runLoop id) := by
  have hn (n : Note) : Leads w (w.note n) := leads_notes w [n]
  unfold runLoop
  split
  · exact Leads.refl w
  · split
    · dsimp only
      split
      · exact (hn _).trans (leads_endLoop _ id _)
      · exact (hn _).trans (leads_beat _ id _ _)
    · split
      · exact leads_endLoop w id _
      · split
        · exact leads_beat w id _ _
        · exact Leads.refl w
    · split
      · exact (leads_notes w _).trans (leads_endLoop _ id _)
      · exact Leads.refl w
    · exact Leads.refl w

/-! ### Tasks, time and members -/

/-- The loop that writes when a task is run. -/
def writer? (w : World) : Task → Option HeartbeatLoop
  | .loop id => w.beating? id
  | .cancel _ => none

theorem runTask_store (w : World) (t : Task) :
    (w.runTask t).store = ((w.writer? t).map w.beaten).getD w.store := by
  cases t with
  | loop id => exact runLoop_store w id
  | cancel token => exact cancelToken_store w token

theorem leads_runTask (w : World) (t : Task) : Leads w (w.runTask t) := by
  cases t with
  | loop id => exact leads_runLoop w id
  | cancel token => exact leads_cancelToken w token

/-- Takes a task off the ready ones, if it is one of them, and runs it. -/
def wake (w : World) (t : Task) : World := { w with ready := w.ready.erase t }.runTask t

theorem wake_store (w : World) (t : Task) :
    (w.wake t).store = ((w.writer? t).map w.beaten).getD w.store :=
  (runTask_store _ t).trans (by cases t <;> rfl)

theorem leads_wake (w : World) (t : Task) : Leads w (w.wake t) := by
  have hr : Leads w { w with ready := w.ready.erase t } := leads_of_eq (Nat.le_refl _) rfl rfl
  exact hr.trans (leads_runTask _ t)

/-- The next timer is one of those that are set, and no other one is due before it. -/
theorem nextDue_eq_some {t : Nat} (h : w.nextDue = some t) :
    (∃ timer ∈ w.timers, timer.due = t) ∧ ∀ timer ∈ w.timers, t ≤ timer.due := by
  obtain ⟨hmem, hle⟩ := List.min?_eq_some_iff.mp h
  exact ⟨List.mem_map.mp hmem, fun timer ht => hle _ (List.mem_map_of_mem ht)⟩

theorem nextDue_eq_none (h : w.nextDue = none) : w.timers = [] :=
  List.map_eq_nil_iff.mp (List.min?_eq_none_iff.mp h)

theorem leads_arrive {t : Nat} (h : w.now ≤ t) : Leads w (w.arrive t) := leads_of_eq h rfl rfl

/-- Replacing a member by one whose worker has settings that can be used. -/
theorem leads_insert_member {name : String} {m : Member} (hn : w'.now = w.now)
    (ht : w'.tokens = w.tokens) (hm : w'.members = w.members.insert name m)
    (hc : w.Checked → m.worker.settings.check = .ok ()) : Leads w w' where
  now_le := Nat.le_of_eq hn.symm
  cancelled t h := by rwa [isCancelled, token, ht]
  checked h name' m' hg := by
    rw [hm, Table.get?_insert] at hg
    split at hg
    · rw [← Option.some.inj hg]; exact hc h
    · exact h name' m' hg

theorem leads_stopLoop (w : World) (m : Member) : Leads w (w.stopLoop m) := by
  obtain ⟨loops, ready, h⟩ := stopLoop_eq w m
  rw [h]
  exact leads_of_eq (Nat.le_refl _) rfl rfl

@[simp] theorem stopLoop_store (w : World) (m : Member) : (w.stopLoop m).store = w.store := by
  obtain ⟨loops, ready, h⟩ := stopLoop_eq w m
  rw [h]

/-- A worker that could be made has settings that can be used. -/
theorem check_of_create {id : String} {settings : Settings} {kind : Payload.Kind} {worker : Worker}
    (h : Worker.create id settings kind = .ok worker) : worker.settings.check = .ok () := by
  cases hc : settings.check with
  | error e => simp [Worker.create, hc, Except.map] at h
  | ok u =>
    simp only [Worker.create, hc, Except.map, Except.ok.injEq] at h
    rw [← h, hc]

theorem hire_leads (w : World) (name id : String) (settings : Settings) (kind : Payload.Kind) :
    (w.hire name id settings kind).1.store = w.store ∧
      Leads w (w.hire name id settings kind).1 := by
  cases hw : Worker.create id settings kind with
  | error fault => simp only [hire, hw, true_and]; exact Leads.refl w
  | ok worker =>
    have hins (v : World) : Leads v { v with members := v.members.insert name { worker } } :=
      leads_insert_member rfl rfl rfl fun _ => check_of_create hw
    cases hm : w.members.get? name with
    | none => simp only [hire, hw, hm, true_and]; exact hins w
    | some m =>
      simpa only [hire, hw, hm] using
        ⟨stopLoop_store w m, (leads_stopLoop w m).trans (hins (w.stopLoop m))⟩

theorem start_leads (w : World) (name token : String) :
    (w.start name token).1.store = w.store ∧ Leads w (w.start name token).1 := by
  cases hm : w.members.get? name with
  | none => simp only [start, hm, true_and]; exact Leads.refl w
  | some m =>
    by_cases hr : w.isRunning m = true
    · simp only [start, hm, if_pos hr, note_store, true_and]
      exact leads_notes w [.event .warn _ _ _]
    · cases he : m.worker.settings.expiry? with
      | none => simp only [start, hm, if_neg hr, he, true_and]; exact Leads.refl w
      | some expiry =>
        simp only [start, hm, if_neg hr, he, spawn, true_and]
        have ht : Leads w { w with tokens := w.tokens.insert token (
            if (w.token token).cancelled then w.token token
            else { w.token token with loops := (w.token token).loops ++ [w.loops.entries.length] }) } :=
          leads_insert_token rfl rfl rfl fun h => by
            have h' : (w.token token).cancelled = true := h
            rw [if_pos h', h']
        exact ht.trans (leads_insert_member rfl rfl rfl fun hc => hc name m hm)

theorem stop_leads (w : World) (name : String) :
    (w.stop name).1.store = w.store ∧ Leads w (w.stop name).1 := by
  cases hm : w.members.get? name with
  | none => simp only [stop, hm, true_and]; exact Leads.refl w
  | some m =>
    have hs : Leads w { w.stopLoop m with members := w.members.insert name { m with loop := none } } := by
      obtain ⟨loops, ready, h⟩ := stopLoop_eq w m
      rw [h]
      exact leads_insert_member rfl rfl rfl fun hc => hc name m hm
    simpa only [stop, hm] using ⟨stopLoop_store w m, hs⟩

theorem dismiss_leads (w : World) (name : String) :
    (w.dismiss name).1.store = w.store ∧ Leads w (w.dismiss name).1 := by
  cases hm : w.members.get? name with
  | none => simp only [dismiss, hm, true_and]; exact Leads.refl w
  | some m =>
    have hs : Leads w { w.stopLoop m with members := w.members.erase name } := by
      obtain ⟨loops, ready, h⟩ := stopLoop_eq w m
      rw [h]
      refine ⟨Nat.le_refl _, fun _ h => h, fun hc name' m' hg => ?_⟩
      rw [Table.get?_erase] at hg
      split at hg
      · cases hg
      · exact hc name' m' hg
    simpa only [dismiss, hm] using ⟨stopLoop_store w m, hs⟩

/-- Commands to a session concern faults, answers given in advance, tokens and the clock. -/
theorem command_leads (w : World) (r : Request) :
    Store.SameContents w.store (w.command r).store ∧ Leads w (w.command r) := by
  have hsame (s : Store) (h : Store.SameContents w.store s) :
      Store.SameContents w.store { w with store := s }.store ∧ Leads w { w with store := s } :=
    ⟨h, leads_of_eq (Nat.le_refl _) rfl rfl⟩
  have heq (v : World) (hs : v.store = w.store) (h : Leads w v) :
      Store.SameContents w.store v.store ∧ Leads w v := ⟨hs ▸ .refl _, h⟩
  cases r with
  | fail p reason => exact hsame _ ⟨rfl, rfl, rfl⟩
  | stall p => exact hsame _ ⟨rfl, rfl, rfl⟩
  | clearFaults p => exact hsame _ ⟨rfl, rfl, rfl⟩
  | script reply => exact hsame _ ⟨rfl, rfl, rfl⟩
  | cancel token => exact heq _ (cancelToken_store w token) (leads_cancelToken w token)
  | cancelAfter token millis =>
    by_cases h : millis = 0
    · simp only [command, if_pos h]; exact ⟨.refl _, leads_of_eq (Nat.le_refl _) rfl rfl⟩
    · simp only [command, if_neg h]; exact ⟨.refl _, leads_of_eq (Nat.le_refl _) rfl rfl⟩
  | setClock millis => exact heq _ rfl (leads_of_eq (Nat.le_refl _) rfl rfl)
  | _ => exact heq _ rfl (Leads.refl w)

end StreamWorker.World
