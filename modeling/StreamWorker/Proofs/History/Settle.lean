import StreamWorker.Proofs.History.SteadyRuns
import StreamWorker.Proofs.Session.Drain

/-! Background work as events of a history. A session that runs everything that is ready wakes one task
after the other until none is left, and time that passes in a session stops at every timer and runs what
is due there. Both are runs of a history, and the second one is steady, so that what is so of steady runs
is so of time that passes. -/

namespace StreamWorker.World

variable {w : World}

/-! ### Timers -/

theorem cancelToken_timers (w : World) (name : String) : (w.cancelToken name).timers = w.timers := by
  rcases cancelToken_eq w name with h | ⟨loops, ready, h⟩ <;> rw [h]

/-- A request sets a timer only after whole milliseconds. -/
theorem command_timers {request : Request} {t : Timer} (ht : t ∈ (w.command request).timers) :
    t ∈ w.timers ∨ ∃ millis, t.due = w.now + millis * Instant.milli := by
  cases request with
  | cancel token =>
    rw [command, cancelToken_timers] at ht
    exact .inl ht
  | cancelAfter token millis =>
    rw [command] at ht
    split at ht
    · exact .inl ht
    · rcases List.mem_append.mp ht with ht | ht
      · exact .inl ht
      · exact .inr ⟨millis, by rw [List.mem_singleton.mp ht]⟩
  | _ => exact .inl ht

/-- A loop sets its timer to a whole millisecond. -/
theorem wake_timers {task : Task} {t : Timer} (ht : t ∈ (w.wake task).timers) :
    t ∈ w.timers ∨ ∃ deadline, t.due = Instant.ceilMilli deadline := by
  cases task with
  | cancel token =>
    rw [wake, runTask, cancelToken_timers] at ht
    exact .inl ht
  | loop id =>
    rw [wake, runTask] at ht
    rcases runLoop_cases { w with ready := w.ready.erase (.loop id) } id with
      ⟨hw, -⟩ | ⟨l, ns, -, -, -, -, hw⟩ | ⟨l, d, ns, -, -, -, -, hw⟩
    · rw [hw] at ht
      exact .inl ht
    · rw [hw, endLoop_timers, notes_timers] at ht
      exact .inl (List.mem_filter.mp ht).1
    · rw [hw] at ht
      rcases beat_phase (({ w with ready := w.ready.erase (.loop id) } : World).notes ns) id l d with
        ⟨-, -, htimers, -⟩ | ⟨-, -, ⟨-, htimers, -⟩ | ⟨-, htimers, -⟩⟩
      · rw [htimers, notes_timers] at ht
        exact .inl ht
      · rw [htimers, notes_timers] at ht
        exact .inl ht
      · rw [htimers, notes_timers] at ht
        rcases List.mem_append.mp ht with ht | ht
        · exact .inl ht
        · exact .inr ⟨_, by rw [List.mem_singleton.mp ht]⟩

/-! ### Time -/

/-- Time passes exactly up to where it is said to. -/
theorem elapseTo_now (w : World) (target : Nat) : (w.elapseTo target).now = target := by
  rw [elapseTo]
  have harrive (w : World) : (w.arrive target).settle.now = target := by rw [settle_now]; rfl
  generalize target - w.now = fuel
  induction fuel generalizing w with
  | zero => exact harrive w
  | succ fuel ih =>
    rw [elapse]
    cases w.nextDue with
    | none => exact harrive w
    | some t =>
      dsimp only
      split
      · exact ih _
      · exact harrive w

end StreamWorker.World

namespace StreamWorker

/-- The clock moves, or a task that is ready goes on: all that happens while time passes. -/
def Event.passes : Event → Bool
  | .elapse _ | .wake _ => true
  | _ => false

end StreamWorker

namespace StreamWorker.History

/-! ### Settling -/

theorem run_wakes (h : History) (ts : List Task) :
    (h.run (ts.map .wake)).world = ts.foldl World.wake h.world := by
  induction ts generalizing h with
  | nil => rfl
  | cons t ts ih => exact ih (h.next (.wake t))

theorem steadyRun_wakes (h : History) (ts : List Task) : h.SteadyRun (ts.map .wake) := by
  induction ts generalizing h with
  | nil => exact fun _ hp => (by cases hp)
  | cons t ts ih =>
    intro p hp
    rcases List.mem_cons.mp hp with rfl | hp
    · rfl
    · exact ih (h.next (.wake t)) p hp

/-- The events by which a session runs everything that is ready. -/
def settling (h : History) : List Event := (World.drained h.world.work h.world).map .wake

theorem run_settling (h : History) : (h.run h.settling).world = h.world.settle := by
  rw [settling, run_wakes, ← World.drain_eq]
  rfl

theorem steadyRun_settling (h : History) : h.SteadyRun h.settling := steadyRun_wakes h _

theorem passes_settling (h : History) : ∀ e ∈ h.settling, e.passes = true := by
  intro e he
  obtain ⟨t, -, rfl⟩ := List.mem_map.mp he
  rfl

/-! ### Time that passes -/

/-- The clock and all timers are at whole milliseconds. -/
structure Aligned (h : History) : Prop where
  now : Instant.milli ∣ h.world.now
  timers : ∀ t ∈ h.world.timers, Instant.milli ∣ t.due

theorem aligned_next {h : History} {e : Event} (ha : h.Aligned) (hs : h.Steady e) :
    (h.next e).Aligned := by
  have hnow : Instant.milli ∣ (h.next e).world.now := by
    rw [next_now]
    refine Nat.dvd_add ha.now ?_
    cases e with
    | elapse nanos => exact hs.2.1
    | _ => exact Nat.dvd_zero _
  refine ⟨hnow, fun t ht => ?_⟩
  by_cases haside : e.isAside = true
  · obtain ⟨store, trace, ledger, hw⟩ := h.next_aside haside
    rw [hw] at ht
    exact ha.timers t ht
  · cases e with
    | hire name id settings kind =>
      obtain ⟨_, _, _, hw⟩ := World.hire_eq h.world name id settings kind
      rw [next, hw] at ht
      exact ha.timers t ht
    | start name token =>
      rcases World.start_cases h.world name token with ⟨m, expiry, -, -, -, -, hw⟩ | ⟨-, ns, hw⟩
      · rw [next, hw] at ht
        exact ha.timers t ht
      · rw [next, hw, World.notes_timers] at ht
        exact ha.timers t ht
    | stop name =>
      obtain ⟨_, _, _, hw⟩ := World.stop_eq h.world name
      rw [next, hw] at ht
      exact ha.timers t ht
    | dismiss name =>
      obtain ⟨_, _, _, hw⟩ := World.dismiss_eq h.world name
      rw [next, hw] at ht
      exact ha.timers t ht
    | command r =>
      rcases World.command_timers ht with ht | ⟨millis, hdue⟩
      · exact ha.timers t ht
      · rw [hdue]
        exact Nat.dvd_add ha.now (Nat.dvd_mul_left ..)
    | wake u =>
      rcases World.wake_timers ht with ht | ⟨deadline, hdue⟩
      · exact ha.timers t ht
      · rw [hdue]
        exact Nat.dvd_mul_left ..
    | elapse nanos => exact ha.timers t (List.mem_filter.mp ht).1
    | _ => exact absurd rfl haside

theorem aligned (clock : Clock) {es : List Event} (hr : (start clock).SteadyRun es) :
    ((start clock).run es).Aligned :=
  hr.induction ⟨Nat.dvd_zero _, fun _ ht => (by cases ht)⟩ fun _ _ => aligned_next

/-- The events bring a history to a world in which nothing is ready, and all that happens in them is that
time passes as in a session. -/
structure Passing (h : History) (es : List Event) (w : World) : Prop where
  world : (h.run es).world = w
  steady : h.SteadyRun es
  quiet : w.ready = []
  passes : ∀ e ∈ es, e.passes = true

theorem Passing.append {h : History} {es es' : List Event} {v w : World} (hp : h.Passing es v)
    (hp' : (h.run es).Passing es' w) : h.Passing (es ++ es') w where
  world := by rw [run_append, hp'.world]
  steady := steadyRun_append.mpr ⟨hp.steady, hp'.steady⟩
  quiet := hp'.quiet
  passes e he := (List.mem_append.mp he).elim (hp.passes e) (hp'.passes e)

variable {h : History}

/-- Time passes up to an instant before which no timer is due, and what is due then is run. -/
theorem exists_arrival {t : Nat} (ho : h.world.Orderly) (hq : h.world.ready = [])
    (hle : h.world.now ≤ t) (hdvd : Instant.milli ∣ t - h.world.now)
    (hdue : ∀ timer ∈ h.world.timers, t ≤ timer.due) :
    ∃ es, h.Passing es (h.world.arrive t).settle := by
  have hsum : h.world.now + (t - h.world.now) = t := Nat.add_sub_cancel' hle
  refine ⟨.elapse (t - h.world.now) :: settling (h.next (.elapse (t - h.world.now))), ?_, ?_,
    (ho.arrive hle).settle_ready, ?_⟩
  · rw [run_cons, run_settling, next, hsum]
  · intro p hp
    rcases List.mem_cons.mp hp with rfl | hp
    · refine ⟨hq, hdvd, fun timer ht => ?_⟩
      rw [hsum]
      exact hdue timer ht
    · exact steadyRun_settling _ p hp
  · intro e he
    rcases List.mem_cons.mp he with rfl | he
    · rfl
    · exact passes_settling _ e he

/-- Time that passes in a session up to a whole millisecond is a steady run. -/
theorem exists_elapse {target : Nat} (ho : h.world.Orderly) (hc : h.world.Checked) (ha : h.Aligned)
    (hq : h.world.ready = []) (hle : h.world.now ≤ target) (hdvd : Instant.milli ∣ target) :
    ∃ es, h.Passing es (h.world.elapseTo target) := by
  have hlast {h : History} (ho : h.world.Orderly) (ha : h.Aligned) (hq : h.world.ready = [])
      (hle : h.world.now ≤ target) (hdue : ∀ timer ∈ h.world.timers, target ≤ timer.due) :
      ∃ es, h.Passing es (h.world.arrive target).settle :=
    exists_arrival ho hq hle (Nat.dvd_sub hdvd ha.now) hdue
  suffices hall : ∀ fuel (h : History), h.world.Orderly → h.world.Checked → h.Aligned →
      h.world.ready = [] → h.world.now ≤ target → target - h.world.now ≤ fuel →
      ∃ es, h.Passing es (World.elapse fuel target h.world) from hall _ h ho hc ha hq hle (Nat.le_refl _)
  intro fuel
  induction fuel with
  | zero =>
    intro h ho hc ha hq hle hfuel
    refine hlast ho ha hq hle fun timer ht => ?_
    have := ho.timers timer ht
    omega
  | succ fuel ih =>
    intro h ho hc ha hq hle hfuel
    rw [World.elapse]
    cases hnext : h.world.nextDue with
    | none => exact hlast ho ha hq hle fun timer ht => by simp [World.nextDue_eq_none hnext] at ht
    | some t =>
      obtain ⟨⟨timer, htimer, rfl⟩, hdue⟩ := World.nextDue_eq_some hnext
      dsimp only
      split
      · next hlt =>
        have hnow := ho.timers timer htimer
        obtain ⟨es, hp⟩ := exists_arrival ho hq (Nat.le_of_lt hnow)
          (Nat.dvd_sub (ha.timers timer htimer) ha.now) hdue
        obtain ⟨ho', hc'⟩ := run_induction (P := fun h => h.world.Orderly ∧ h.world.Checked) ⟨ho, hc⟩
          (fun h e ⟨ho, hc⟩ => ⟨orderly_next ho hc e, (h.next_leads e).checked hc⟩) es
        have ha' : (h.run es).Aligned := hp.steady.induction ha fun _ _ => aligned_next
        have hnow' : (h.run es).world.now = timer.due := by rw [hp.world, World.settle_now]; rfl
        have hq' : (h.run es).world.ready = [] := by rw [hp.world]; exact hp.quiet
        obtain ⟨es', hp'⟩ := ih (h.run es) ho' hc' ha' hq' (by omega) (by omega)
        rw [hp.world] at hp'
        exact ⟨es ++ es', hp.append hp'⟩
      · next hge =>
        exact hlast ho ha hq hle fun timer' ht => Nat.le_trans (Nat.not_lt.mp hge) (hdue timer' ht)

/-- After a steady run of a new session, time passes steadily as well. -/
theorem elapse_steady (clock : Clock) {es : List Event} {target : Nat}
    (hr : (start clock).SteadyRun es) (hq : ((start clock).run es).world.ready = [])
    (hle : ((start clock).run es).world.now ≤ target) (hdvd : Instant.milli ∣ target) :
    ∃ es', ((start clock).run es).Passing es' (((start clock).run es).world.elapseTo target) := by
  obtain ⟨ho, hc⟩ := orderly_run clock es
  exact exists_elapse ho hc (aligned clock hr) hq hle hdvd

end StreamWorker.History
