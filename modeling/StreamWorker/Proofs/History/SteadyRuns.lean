import StreamWorker.Proofs.History.LoopEvents
import StreamWorker.Proofs.Settings.Basic

/-! The pace of a heartbeat loop. Where time moves as in a session, which is in whole milliseconds, only
while nothing is ready and never past a timer, and where no write stalls, a loop whose interval is a
whole number of milliseconds beats when it is started and then once after every interval, until it
ends. -/

namespace StreamWorker

theorem Instant.ceilMilli_of_dvd {t : Nat} (h : milli ∣ t) : ceilMilli t = t := by
  obtain ⟨n, rfl⟩ := h
  simp only [ceilMilli, milli]
  omega

/-- How much time passes in an event. -/
def Event.nanos : Event → Nat
  | .elapse nanos => nanos
  | _ => 0

/-- The event makes the operations of a kind stall. -/
def Event.stalls (p : FaultPoint) : Event → Bool
  | .command (.stall q) => p = q
  | _ => false

/-- The write of a loop does not change what stalls. -/
theorem World.beaten_stalled (w : World) (l : HeartbeatLoop) :
    (w.beaten l).stalled = w.store.stalled :=
  w.store.perform_stalled w.now w.clock (.set l.worker.heartbeatKey (toString w.clock) l.expiry)

namespace History

variable {h : History} {e : Event} {id t₀ : Nat} {l : HeartbeatLoop}

/-! ### Time and faults -/

theorem next_now (h : History) (e : Event) : (h.next e).world.now = h.world.now + e.nanos := by
  by_cases ha : e.isAside = true
  · obtain ⟨store, trace, ledger, hw⟩ := h.next_aside ha
    rw [hw]
    cases e with
    | begin | proceed | abandon | operation => rfl
    | _ => cases ha
  · cases e with
    | hire name id settings kind =>
      obtain ⟨_, _, _, hw⟩ := World.hire_eq h.world name id settings kind
      rw [next, hw]
      rfl
    | start name token =>
      rcases World.start_cases h.world name token with ⟨m, expiry, -, -, -, -, hs⟩ | ⟨-, ns, hs⟩
      · rw [next, hs]
        rfl
      · rw [next, hs, World.notes_now]
        rfl
    | stop name =>
      obtain ⟨_, _, _, hw⟩ := World.stop_eq h.world name
      rw [next, hw]
      rfl
    | dismiss name =>
      obtain ⟨_, _, _, hw⟩ := World.dismiss_eq h.world name
      rw [next, hw]
      rfl
    | command r => rw [next, World.command_now]; rfl
    | wake t => rw [next, World.wake_now]; rfl
    | elapse nanos => rfl
    | _ => exact absurd rfl ha

/-- Only a command makes operations stall. -/
theorem next_stalled {p : FaultPoint} (hs : p ∉ h.world.store.stalled) (he : e.stalls p = false) :
    p ∉ (h.next e).world.store.stalled := by
  cases e with
  | hire name id settings kind =>
    obtain ⟨_, _, _, hw⟩ := World.hire_eq h.world name id settings kind
    rwa [next, hw]
  | start name token => rwa [next, (World.start_leads h.world name token).1]
  | stop name => rwa [next, (World.stop_leads h.world name).1]
  | dismiss name => rwa [next, (World.dismiss_leads h.world name).1]
  | begin member token call =>
    rw [next]
    split <;> exact hs
  | proceed n =>
    rw [next]
    split
    · rw [proceed]
      split
      · next f _ =>
        by_cases hc : h.world.isCancelled f.token = true
        · rwa [mark, World.stepFlight_of_cancelled hc, World.notes_store]
        · rwa [mark, World.stepFlight_store hc, Store.perform_stalled]
      · next f _ =>
        obtain ⟨trace, ledger, hw⟩ := h.world.resume_world f
        rwa [mark, hw]
      · exact hs
    · exact hs
  | abandon n =>
    rw [next]
    split
    · rw [abandon]
      split
      · rwa [mark, World.abandon, World.notes_store]
      · rwa [mark, World.abandon, World.notes_store]
      · exact hs
    · exact hs
  | operation op => rwa [next, Occurrence.after, Store.perform_stalled]
  | command r =>
    cases r with
    | stall q =>
      have hpq : p ≠ q := fun hpq => by simp [Event.stalls, hpq] at he
      simpa [next, World.command, Store.stall, hpq] using hs
    | clearFaults q =>
      exact fun hmem => hs (List.mem_filter.mp hmem).1
    | cancel token => rwa [next, World.command, World.cancelToken_store]
    | cancelAfter token millis =>
      by_cases hz : millis = 0
      · rwa [next, World.command, if_pos hz]
      · rwa [next, World.command, if_neg hz]
    | _ => exact hs
  | wake t =>
    have hw : (h.next (.wake t)).world.store =
        ((h.world.writer? t).map h.world.beaten).getD h.world.store := World.wake_store h.world t
    rw [hw]
    cases h.world.writer? t with
    | none => exact hs
    | some l => rwa [Option.map_some, Option.getD_some, World.beaten_stalled]
  | elapse nanos => exact hs

/-- Time moves as in a session, and no write is made to stall. -/
def Steady (h : History) : Event → Prop
  | .elapse nanos => h.world.ready = [] ∧ Instant.milli ∣ nanos ∧
    ∀ t ∈ h.world.timers, h.world.now + nanos ≤ t.due
  | e => e.stalls .set = false

instance (h : History) (e : Event) : Decidable (h.Steady e) :=
  match e with
  | .elapse _ => inferInstanceAs (Decidable (_ ∧ _ ∧ _))
  | .hire .. | .start .. | .stop .. | .dismiss .. | .begin .. | .proceed .. | .abandon ..
  | .operation .. | .command .. | .wake .. => inferInstanceAs (Decidable (_ = _))

theorem Steady.stalls (hs : h.Steady e) : e.stalls .set = false := by
  cases e with
  | elapse nanos => rfl
  | _ => exact hs

/-- All events of a run are steady. -/
def SteadyRun (h : History) (es : List Event) : Prop := ∀ p ∈ h.scenes es, p.1.Steady p.2

instance (h : History) (es : List Event) : Decidable (h.SteadyRun es) :=
  inferInstanceAs (Decidable (∀ _ ∈ _, _))

theorem steadyRun_append {es es' : List Event} :
    h.SteadyRun (es ++ es') ↔ h.SteadyRun es ∧ (h.run es).SteadyRun es' := by
  simp only [SteadyRun, scenes_append, List.mem_append, or_imp, forall_and]

/-- What is so at first and is preserved by steady events is so after a steady run. -/
theorem SteadyRun.induction {P : History → Prop} {es : List Event} (hr : h.SteadyRun es) (h0 : P h)
    (hs : ∀ h e, P h → h.Steady e → P (h.next e)) : P (h.run es) := by
  induction es generalizing h with
  | nil => exact h0
  | cons e es ih =>
    exact ih (fun p hp => hr p (List.mem_cons_of_mem _ hp)) (hs h e h0 (hr _ List.mem_cons_self))

/-! ### The ticks of a loop -/

/-- The operations of a loop, in order. -/
def ticks (h : History) (id : Nat) : List Occurrence := h.log.filter (·.asker = .loop id)

theorem ticks_next (h : History) (e : Event) (id : Nat) :
    (h.next e).ticks id = h.ticks id ++ (h.added e).filter (·.asker = .loop id) := by
  rw [ticks, log_next, List.filter_append]
  rfl

theorem ticks_next_of_ne (he : e.loop? ≠ some id) : (h.next e).ticks id = h.ticks id := by
  rw [ticks_next, List.filter_eq_nil_iff.mpr, List.append_nil]
  intro o ho hid
  obtain ⟨rfl, -⟩ := mem_added_loop ho (by simpa using hid)
  exact he rfl

/-- A loop that does not beat when it is let go on has the ticks that it had. -/
theorem ticks_of_idle (hb : h.world.beating? id = none) :
    (h.next (.wake (.loop id))).ticks id = h.ticks id := by
  rw [ticks_next, List.filter_eq_nil_iff.mpr, List.append_nil]
  intro o ho hid
  obtain ⟨-, l, hl, -⟩ := mem_added_loop ho (by simpa using hid)
  rw [hb] at hl
  cases hl

theorem ticks_of_beating (hb : h.world.beating? id = some l) :
    (h.next (.wake (.loop id))).ticks id = h.ticks id ++
      [h.occurrence (.loop id) (.set l.worker.heartbeatKey (toString h.world.clock) l.expiry)] := by
  have hw : h.world.writer? (.loop id) = some l := hb
  have hadded : h.added (.wake (.loop id)) = [h.occurrence (.loop id)
      (.set l.worker.heartbeatKey (toString h.world.clock) l.expiry)] := by
    simp only [added, beats, hw]
  rw [ticks_next, hadded, List.filter_cons_of_pos (by simp [occurrence]), List.filter_nil]

/-- A loop that is not let go on stays in its phase. -/
theorem loop_of_ne (ho : h.world.Orderly) (hl : h.world.loops.get? id = some l)
    (he : e.loop? ≠ some id) :
    ∃ l', (h.next e).world.loops.get? id = some l' ∧ l.Leads l' ∧ l'.phase = l.phase := by
  rcases loopsKept_next h e with hk | ⟨name, token, m, expiry, -, -, -, -, -, hw⟩
  · obtain ⟨l', hl', hlead⟩ := hk.lead id l hl
    exact ⟨l', hl', hlead, hk.phase id l l' he hl hl'⟩
  · refine ⟨l, ?_, .refl l, rfl⟩
    rw [hw, World.spawn_loops, if_neg (Nat.ne_of_gt (ho.numbered id l hl)), hl]

/-- While nothing is ready, the timer of a loop that waits for its tick is still to come. -/
theorem lt_ceilMilli_tick {d : Nat} (ho : h.world.Orderly) (hq : h.world.ready = [])
    (hl : h.world.loops.get? id = some l) (hp : l.phase = .ticking d) :
    h.world.now < Instant.ceilMilli d := by
  have hne : l.phase ≠ .ended := by rw [hp]; simp
  rcases (ho.placed id l hl).ticking d hp (ho.not_cancelled hq hl hne).1 with ht | ⟨-, hr⟩
  · exact ho.timers _ ht
  · rw [hq] at hr
    cases hr

/-- A loop that was started at `t₀` beats then and after every interval. -/
structure Paced (h : History) (id t₀ : Nat) (l : HeartbeatLoop) : Prop where
  loop : h.world.loops.get? id = some l
  begun : t₀ ≤ h.world.now
  times : ∀ i o, (h.ticks id)[i]? = some o → o.now = t₀ + i * l.interval.nanos
  fresh : l.phase = .fresh → h.ticks id = [] ∧ h.world.now = t₀
  ticking : ∀ d, l.phase = .ticking d →
    d = t₀ + (h.ticks id).length * l.interval.nanos ∧ h.world.now ≤ d
  /-- No write holds it up. -/
  moving : l.phase ≠ .writing

namespace Paced

/-- Time does not pass a tick, because the timer of the loop is due by then. -/
theorem le_tick {nanos d : Nat} (hp : h.Paced id t₀ l) (ho : h.world.Orderly)
    (hs : h.Steady (.elapse nanos)) (hd : l.phase = .ticking d)  (hdvd : Instant.milli ∣ d) :
    h.world.now + nanos ≤ d := by
  obtain ⟨hq, -, hdue⟩ := hs
  have hplaced := ho.placed id l hp.loop
  have hc : l.cancelled = false := (ho.not_cancelled hq hp.loop (by rw [hd]; simp)).1
  rcases hplaced.ticking d hd hc with ht | ⟨-, hr⟩
  · have := hdue _ ht
    rwa [Instant.ceilMilli_of_dvd hdvd] at this
  · rw [hq] at hr
    cases hr

/-- Events that do not let the loop go on keep its pace. -/
theorem next_of_ne (hp : h.Paced id t₀ l) (ho : h.world.Orderly) (hs : h.Steady e)
    (ht₀ : Instant.milli ∣ t₀) (hk : Instant.milli ∣ l.interval.nanos) (he : e.loop? ≠ some id) :
    ∃ l', (h.next e).Paced id t₀ l' ∧ l.Leads l' := by
  obtain ⟨l', hl', hlead, hphase⟩ := loop_of_ne ho hp.loop he
  have hticks := ticks_next_of_ne (h := h) he
  have hnow := h.next_now e
  refine ⟨l', ⟨hl', by rw [hnow]; exact Nat.le_trans hp.begun (Nat.le_add_right ..), ?_, ?_, ?_, ?_⟩,
    hlead⟩
  · rw [hticks, hlead.interval]
    exact hp.times
  · intro hf
    rw [hphase] at hf
    rw [hticks, hnow]
    cases e with
    | elapse nanos =>
      have hr := (ho.placed id l hp.loop).fresh hf
      rw [hs.1] at hr
      cases hr
    | _ => exact hp.fresh hf
  · intro d hd
    rw [hphase] at hd
    rw [hticks, hnow, hlead.interval]
    obtain ⟨hd', hle⟩ := hp.ticking d hd
    refine ⟨hd', ?_⟩
    cases e with
    | elapse nanos =>
      refine hp.le_tick ho hs hd ?_
      rw [hd']
      exact Nat.dvd_add ht₀ (Nat.dvd_trans hk (Nat.dvd_mul_left ..))
    | _ => exact hle
  · rw [hphase]
    exact hp.moving

/-- A loop that is let go on beats at its tick, or it ends. -/
theorem next_wake (hp : h.Paced id t₀ l) (hstall : .set ∉ h.world.store.stalled)
    (hk : 0 < l.interval.nanos) : ∃ l', (h.next (.wake (.loop id))).Paced id t₀ l' ∧ l.Leads l' := by
  have hnow : (h.next (.wake (.loop id))).world.now = h.world.now := h.next_now _
  have hbegun : t₀ ≤ (h.next (.wake (.loop id))).world.now := by rw [hnow]; exact hp.begun
  rcases World.wake_cases hp.loop with ⟨hb, hw⟩ | ⟨hb, -, hw⟩ | ⟨d, hb, hphase, hw⟩
  · have hticks := ticks_of_idle hb
    refine ⟨l, ⟨hw ▸ hp.loop, hbegun, ?_, ?_, ?_, hp.moving⟩, .refl l⟩
    · rw [hticks]; exact hp.times
    · rw [hticks, hnow]; exact hp.fresh
    · rw [hticks, hnow]; exact hp.ticking
  · have hticks := ticks_of_idle hb
    refine ⟨{ l with phase := .ended }, ⟨by rw [next, hw, Table.get?_insert_self], hbegun, ?_,
      fun hf => (by cases hf), fun _ hd => (by cases hd), fun hx => (by cases hx)⟩,
      rfl, rfl, rfl, rfl, fun hc => hc, fun _ => rfl⟩
    rw [hticks]
    exact hp.times
  · have hticks := ticks_of_beating hb
    rw [if_neg hstall] at hw
    -- the tick is due now: neither later, because it beats, nor sooner, because time does not pass it
    have hdue : h.world.now = t₀ + (h.ticks id).length * l.interval.nanos ∧ d = h.world.now := by
      rcases hphase with ⟨hf, hd⟩ | ⟨ht, hd⟩
      · obtain ⟨hnil, hnow'⟩ := hp.fresh hf
        exact ⟨by simp [hnil, hnow'], hd⟩
      · obtain ⟨hd', hle⟩ := hp.ticking d ht
        have hge : d ≤ h.world.now := Nat.le_trans (Instant.le_ceilMilli d) hd
        omega
    have hended : l.phase ≠ .ended := (World.beating?_eq_some hb).2.2
    refine ⟨{ l with phase := .ticking (World.nextTick h.world.now l d) },
      ⟨by rw [next, hw, Table.get?_insert_self], hbegun, fun i o hi => ?_, fun hf => (by cases hf),
        fun d' hd' => ?_, fun hx => (by cases hx)⟩,
      rfl, rfl, rfl, rfl, fun hc => hc, fun he => absurd he hended⟩
    · rw [hticks, List.getElem?_append] at hi
      split at hi
      · exact hp.times i o hi
      · next hlt =>
        obtain ⟨hlen, rfl⟩ : i = (h.ticks id).length ∧ _ = o := by
          rw [List.getElem?_singleton] at hi
          split at hi
          · exact ⟨by omega, Option.some.inj hi⟩
          · cases hi
        rw [hlen]
        exact hdue.1
    · cases hd'
      have hlen : ((h.next (.wake (.loop id))).ticks id).length = (h.ticks id).length + 1 := by
        rw [hticks, List.length_append, List.length_singleton]
      rw [hnow, hlen, hdue.2, World.nextTick, if_neg (Nat.not_lt.mpr (Nat.le_add_right ..)), Nat.add_mul,
        Nat.one_mul]
      dsimp only
      omega

theorem next (hp : h.Paced id t₀ l) (ho : h.world.Orderly) (hs : h.Steady e)
    (hstall : .set ∉ h.world.store.stalled) (ht₀ : Instant.milli ∣ t₀)
    (hk : Instant.milli ∣ l.interval.nanos) (hpos : 0 < l.interval.nanos) :
    ∃ l', (h.next e).Paced id t₀ l' ∧ l.Leads l' := by
  by_cases he : e = .wake (.loop id)
  · subst he
    exact hp.next_wake hstall hpos
  · exact hp.next_of_ne ho hs ht₀ hk fun hloop => he (Event.eq_wake_of_loop? hloop)

/-- While nothing is ready, the last tick of a loop that has not ended is less than an interval ago. -/
theorem lt_next_tick (hp : h.Paced id t₀ l) (ho : h.world.Orderly) (hq : h.world.ready = [])
    (hne : l.phase ≠ .ended) (ht₀ : Instant.milli ∣ t₀) (hk : Instant.milli ∣ l.interval.nanos) :
    h.world.now < t₀ + (h.ticks id).length * l.interval.nanos := by
  have hplaced := ho.placed id l hp.loop
  cases hphase : l.phase with
  | fresh =>
    have hr := hplaced.fresh hphase
    rw [hq] at hr
    cases hr
  | writing => exact absurd hphase hp.moving
  | ended => exact absurd hphase hne
  | ticking d =>
    obtain ⟨hd, -⟩ := hp.ticking d hphase
    have hdvd : Instant.milli ∣ d := by
      rw [hd]
      exact Nat.dvd_add ht₀ (Nat.dvd_trans hk (Nat.dvd_mul_left ..))
    have hdue := lt_ceilMilli_tick ho hq hp.loop hphase
    rwa [Instant.ceilMilli_of_dvd hdvd, hd] at hdue

end Paced

/-! ### The pace of a run -/

theorem steady_start (clock : Clock) {es : List Event} (hr : (start clock).SteadyRun es) :
    Instant.milli ∣ ((start clock).run es).world.now ∧
      .set ∉ ((start clock).run es).world.store.stalled := by
  refine hr.induction (P := fun h => Instant.milli ∣ h.world.now ∧ .set ∉ h.world.store.stalled)
    ⟨Nat.dvd_zero _, List.not_mem_nil⟩ fun h e ⟨hd, hn⟩ hs => ?_
  constructor
  · rw [next_now]
    refine Nat.dvd_add hd ?_
    cases e with
    | elapse nanos => exact hs.2.1
    | _ => exact Nat.dvd_zero _
  · exact next_stalled hn hs.stalls

/-- A loop that is not there has asked for nothing. -/
theorem ticks_of_absent (hw : ∀ o ∈ h.log, ∀ id, o.asker = .loop id → h.BeatenBy id o)
    (hl : h.world.loops.get? id = none) : h.ticks id = [] := by
  rw [ticks, List.filter_eq_nil_iff]
  intro o hmem hasker
  obtain ⟨l, hl', -⟩ := hw o hmem _ (by simpa using hasker)
  rw [hl] at hl'
  cases hl'

/-- The next loop has not asked for anything yet. -/
theorem ticks_free (ho : h.world.Orderly)
    (hw : ∀ o ∈ h.log, ∀ id, o.asker = .loop id → h.BeatenBy id o) :
    h.ticks h.world.loops.entries.length = [] :=
  ticks_of_absent hw ho.free

section Started

variable {clock : Clock} {es₁ es₂ : List Event} {name token : String} {m : Member} {expiry : Duration}

theorem next_start (hm : h.world.members.get? name = some m) (hrun : ¬ h.world.isRunning m = true)
    (he : m.worker.settings.expiry? = some expiry) :
    (h.next (.start name token)).world = h.world.spawn name m token expiry := by
  rw [next, World.start, hm]
  dsimp only
  rw [if_neg hrun, he]

/-- A loop that is started goes on at its pace. -/
theorem paced_from (ho : h.world.Orderly) (hc : h.world.Checked)
    (hw : ∀ o ∈ h.log, ∀ id, o.asker = .loop id → h.BeatenBy id o)
    (haligned : Instant.milli ∣ h.world.now) (hstall : .set ∉ h.world.store.stalled)
    (hr : h.SteadyRun (.start name token :: es₂)) (hm : h.world.members.get? name = some m)
    (hrun : ¬ h.world.isRunning m = true) (he : m.worker.settings.expiry? = some expiry)
    (hk : Instant.milli ∣ m.worker.settings.interval.nanos) :
    ∃ l, (h.run (.start name token :: es₂)).Paced h.world.loops.entries.length h.world.now l ∧
      (h.world.newLoop m token expiry).Leads l := by
  have hpos := Settings.interval_pos (hc name m hm)
  have hspawn : (h.next (.start name token)).world = h.world.spawn name m token expiry :=
    next_start hm hrun he
  have hticks : (h.next (.start name token)).ticks h.world.loops.entries.length = [] := by
    have hne : (Event.start name token).loop? ≠ some h.world.loops.entries.length :=
      fun hx => (by cases hx)
    rw [ticks_next_of_ne hne, ticks_free ho hw]
  have hstart : (h.next (.start name token)).Paced h.world.loops.entries.length h.world.now
      (h.world.newLoop m token expiry) := by
    have hnow : (h.next (.start name token)).world.now = h.world.now := h.next_now _
    refine ⟨?_, Nat.le_of_eq hnow.symm, ?_, fun _ => ⟨hticks, hnow⟩, fun _ hd => (by cases hd),
      fun hx => (by cases hx)⟩
    · rw [hspawn, World.spawn_loops, if_pos rfl]
    · rw [hticks]
      intro i o hi
      cases hi
  have hrest : (h.next (.start name token)).SteadyRun es₂ :=
    fun p hp => hr p (List.mem_cons_of_mem _ hp)
  refine (hrest.induction (P := fun h' => (h'.world.Orderly ∧ h'.world.Checked) ∧
    .set ∉ h'.world.store.stalled ∧ ∃ l, h'.Paced h.world.loops.entries.length h.world.now l ∧
      (h.world.newLoop m token expiry).Leads l)
    ⟨⟨orderly_next ho hc _, (h.next_leads _).checked hc⟩, next_stalled hstall rfl, _, hstart, .refl _⟩
    fun h' e hP hs => ?_).2.2
  obtain ⟨⟨ho', hc'⟩, hn, l, hp, hlead⟩ := hP
  have hinterval : l.interval = m.worker.settings.interval := hlead.interval
  obtain ⟨l', hp', hlead'⟩ := hp.next ho' hs hn haligned (hinterval ▸ hk) (hinterval ▸ hpos)
  exact ⟨⟨orderly_next ho' hc' e, (h'.next_leads e).checked hc'⟩, next_stalled hn hs.stalls, l', hp',
    hlead.trans hlead'⟩

/-- So does one that is started in a steady run. -/
theorem paced_run (hr : (start clock).SteadyRun (es₁ ++ .start name token :: es₂))
    (hm : ((start clock).run es₁).world.members.get? name = some m)
    (hrun : ¬ ((start clock).run es₁).world.isRunning m = true)
    (he : m.worker.settings.expiry? = some expiry)
    (hk : Instant.milli ∣ m.worker.settings.interval.nanos) :
    ∃ l, ((start clock).run (es₁ ++ .start name token :: es₂)).Paced
        ((start clock).run es₁).world.loops.entries.length ((start clock).run es₁).world.now l ∧
      (((start clock).run es₁).world.newLoop m token expiry).Leads l := by
  obtain ⟨hr₁, hr₂⟩ := steadyRun_append.mp hr
  obtain ⟨ho, hc⟩ := orderly_run clock es₁
  obtain ⟨haligned, hstall⟩ := steady_start clock hr₁
  rw [run_append]
  exact paced_from ho hc (loops_beat clock es₁) haligned hstall hr₂ hm hrun he hk

end Started

end History

end StreamWorker
