import StreamWorker.Proofs.Session.Order
import StreamWorker.Proofs.Settings.Basic

/-! Ready tasks are run until none is left. A loop that is cancelled becomes ready once more, and a loop
that catches up becomes ready for a later tick each time, so a session in order has only so much to do
before time passes: every task that is run leaves less than there was, and in the end nothing is ready.
What every single task preserves holds then. -/

namespace StreamWorker.World

variable {w v : World} {id : Nat} {l k : HeartbeatLoop} {t : Task}

/-! ### One task after the other -/

theorem drain_of_quiet (hq : w.ready = []) (n : Nat) : drain n w = w := by
  cases n with
  | zero => rfl
  | succ n => rw [drain, hq]

theorem settle_of_quiet (hq : w.ready = []) : w.settle = w := drain_of_quiet hq _

theorem drain_succ {ts : List Task} (hr : w.ready = t :: ts) (n : Nat) :
    drain (n + 1) w = drain n (w.wake t) := by
  rw [drain, hr]
  dsimp only
  rw [wake, hr, List.erase_cons_head]

/-- The tasks that are run, in order. -/
def drained : Nat → World → List Task
  | 0, _ => []
  | n + 1, w =>
    match w.ready with
    | [] => []
    | t :: _ => t :: drained n (w.wake t)

theorem drain_eq (n : Nat) (w : World) : drain n w = (drained n w).foldl wake w := by
  induction n generalizing w with
  | zero => rfl
  | succ n ih =>
    cases hr : w.ready with
    | nil => rw [drain_of_quiet hr, drained, hr, List.foldl_nil]
    | cons t ts => rw [drain_succ hr, drained, hr, List.foldl_cons, ih]

/-- What tasks preserve that are woken holds once they have run. -/
theorem drain_induction {P : World → Prop} (h : P w) (hs : ∀ w t, P w → P (w.wake t)) (n : Nat) :
    P (drain n w) := by
  induction n generalizing w with
  | zero => exact h
  | succ n ih =>
    cases hr : w.ready with
    | nil => rwa [drain_of_quiet hr]
    | cons t ts =>
      rw [drain_succ hr]
      exact ih (hs w t h)

theorem settle_induction {P : World → Prop} (h : P w) (hs : ∀ w t, P w → P (w.wake t)) : P w.settle :=
  drain_induction h hs w.work

theorem settle_now (w : World) : w.settle.now = w.now :=
  settle_induction (P := fun v => v.now = w.now) rfl fun v t h => (wake_now v t).trans h

theorem settle_members (w : World) : w.settle.members = w.members :=
  settle_induction (P := fun v => v.members = w.members) rfl fun v t h => (wake_members v t).trans h

theorem leads_settle (w : World) : Leads w w.settle :=
  settle_induction (P := Leads w) (.refl w) fun v t h => h.trans (leads_wake v t)

theorem loopsLead_settle (w : World) : LoopsLead w w.settle :=
  settle_induction (P := LoopsLead w) (fun _ l hl => ⟨l, hl, .refl l⟩)
    fun v t h => h.trans (LoopsKept.wake v t).lead

theorem orderly_settle (h : Orderly w) : Orderly w.settle :=
  settle_induction h fun _ t h => h.wake t

/-! ### What there is left to do -/

/-- The next tick is later than the one that has come. -/
theorem lt_nextTick {now d : Nat} (hd : d ≤ now) (hpos : 0 < l.interval.nanos) : d < nextTick now l d := by
  rw [nextTick]
  split <;> omega

/-- Where a loop changes, the work changes by what the loop still does, and by how many tasks are ready. -/
theorem work_lt (hl : w.loops.get? id = some l) (hnow : v.now = w.now)
    (hloops : v.loops = w.loops.insert id k)
    (h : v.ready.length + outstanding w.now k < w.ready.length + outstanding w.now l) :
    v.work < w.work := by
  have := Table.total_insert hl (outstanding w.now) k
  rw [work, work, hloops, hnow]
  omega

/-- A loop that is cancelled becomes ready and will not be cancelled again. -/
theorem cancelLoop_work (w : World) (id : Nat) : (w.cancelLoop id).work = w.work := by
  unfold cancelLoop
  split
  · next l hl =>
    split
    · rfl
    · next hc =>
      have := Table.total_insert hl (outstanding w.now) { l with cancelled := true }
      simp only [work, List.length_append, List.length_singleton]
      simp only [outstanding, hc, Bool.false_eq_true, if_false, if_true] at this ⊢
      omega
  · rfl

theorem cancelToken_work (w : World) (name : String) : (w.cancelToken name).work = w.work := by
  have hfold (ids : List Nat) (w : World) : (ids.foldl cancelLoop w).work = w.work := by
    induction ids generalizing w with
    | nil => rfl
    | cons id ids ih => rw [List.foldl_cons, ih, cancelLoop_work]
  rw [cancelToken]
  dsimp only
  split
  · rfl
  · exact hfold _ { w with tokens := w.tokens.insert name { cancelled := true } }

/-- A loop that beats for a tick that has come has one tick less to catch up with. -/
theorem outstanding_nextTick {d : Nat} (hpos : 0 < l.interval.nanos)
    (hp : l.phase = .fresh ∧ d = w.now ∨ l.phase = .ticking d ∧ Instant.ceilMilli d ≤ w.now) :
    outstanding w.now { l with phase := .ticking (nextTick w.now l d) } +
      (if Instant.ceilMilli (nextTick w.now l d) ≤ w.now then 1 else 0) ≤ outstanding w.now l := by
  have hle := Instant.le_ceilMilli (nextTick w.now l d)
  have hd : d ≤ w.now := by
    rcases hp with ⟨-, rfl⟩ | ⟨-, hd⟩
    · exact Nat.le_refl _
    · exact Nat.le_trans (Instant.le_ceilMilli d) hd
  have hlt := lt_nextTick hd hpos
  have hthen : (if Instant.ceilMilli (nextTick w.now l d) ≤ w.now then 1 else 0) ≤
      min 1 (w.now + 1 - nextTick w.now l d) := by
    split <;> omega
  rcases hp with ⟨hf, rfl⟩ | ⟨ht, -⟩
  · simp only [outstanding, hf]
    omega
  · simp only [outstanding, ht]
    omega

/-- A beat leaves a loop with less to do. -/
theorem work_beat {d : Nat} (hl : w.loops.get? id = some l) (hpos : 0 < l.interval.nanos)
    (hp : l.phase = .fresh ∧ d = w.now ∨ l.phase = .ticking d ∧ Instant.ceilMilli d ≤ w.now)
    (hnow : v.now = w.now) (hloops : v.loops = w.loops) (hready : v.ready.length < w.ready.length) :
    (v.beat id l d).work < w.work := by
  rcases beat_phase v id l d with ⟨-, hbeat, -, hr⟩ | ⟨-, hbeat, hwait⟩
  · refine work_lt (k := { l with phase := .writing }) hl (by rw [beat_now, hnow])
      (by rw [hbeat, hloops]) ?_
    have hwriting : outstanding w.now { l with phase := .writing } ≤ outstanding w.now l :=
      Nat.add_le_add_left (Nat.zero_le _) _
    rw [hr]
    omega
  · have hleft := outstanding_nextTick hpos hp
    rw [hnow] at hbeat hwait
    refine work_lt (k := { l with phase := .ticking (nextTick w.now l d) }) hl (by rw [beat_now, hnow])
      (by rw [hbeat, hloops]) ?_
    rcases hwait with ⟨hdue, -, hr⟩ | ⟨hdue, -, hr⟩
    · rw [if_pos hdue] at hleft
      rw [hr, List.length_cons]
      omega
    · rw [if_neg (Nat.not_le_of_lt hdue)] at hleft
      rw [hr]
      omega

/-- A task that is run leaves less to do. -/
theorem Orderly.work_wake (h : Orderly w) (hr : t ∈ w.ready) : (w.wake t).work < w.work := by
  have hless : (w.ready.erase t).length < w.ready.length := by
    rw [List.length_erase_of_mem hr]
    exact Nat.sub_lt (List.length_pos_of_mem hr) Nat.one_pos
  have hrest : ({ w with ready := w.ready.erase t } : World).work < w.work :=
    Nat.add_lt_add_right hless _
  cases t with
  | cancel token =>
    rw [World.wake, runTask, cancelToken_work]
    exact hrest
  | loop id =>
    rcases runLoop_cases { w with ready := w.ready.erase (.loop id) } id with
      ⟨hw, -⟩ | ⟨l, ns, hl, -, -, -, hw⟩ | ⟨l, d, ns, hl, -, -, hp, hw⟩
    · rwa [World.wake, runTask, hw]
    · rw [World.wake, runTask, hw]
      refine work_lt (k := { l with phase := .ended }) hl (by rw [endLoop_now, notes_now])
        (by rw [endLoop_loops, notes_loops]) ?_
      rw [endLoop_ready, notes_ready]
      exact Nat.add_lt_add_of_lt_of_le hless (Nat.add_le_add_left (Nat.zero_le _) _)
    · have hplaced := h.placed id l hl
      rw [World.wake, runTask, hw]
      exact work_beat hl (hplaced.interval ▸ Settings.interval_pos hplaced.checked) hp
        (notes_now ..) (notes_loops ..) (by rw [notes_ready]; exact hless)

/-- With fuel for all the work there is, nothing is left ready. -/
theorem Orderly.drain_ready {n : Nat} (h : Orderly w) (hn : w.work ≤ n) : (drain n w).ready = [] := by
  induction n generalizing w with
  | zero =>
    have hlen : w.ready.length ≤ w.work := Nat.le_add_right ..
    exact List.length_eq_zero_iff.mp (by rw [drain]; omega)
  | succ n ih =>
    cases hr : w.ready with
    | nil => rw [drain_of_quiet hr, hr]
    | cons t ts =>
      have hless := h.work_wake (t := t) (by rw [hr]; exact List.mem_cons_self)
      rw [drain_succ hr]
      exact ih (h.wake t) (by omega)

/-- Once everything has run that was ready, and what that has made ready, nothing is ready. -/
theorem Orderly.settle_ready (h : Orderly w) : w.settle.ready = [] := h.drain_ready (Nat.le_refl _)

end StreamWorker.World
