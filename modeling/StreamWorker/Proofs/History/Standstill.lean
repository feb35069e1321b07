import StreamWorker.Proofs.History.Ticks

/-! Heartbeat loops that stand still. A write that fails is left to the next tick, so a loop whose writes
only ever fail beats again as soon as they succeed. A write that stalls is never taken up again: clearing
the fault lets later operations through, but it does not let go of the one that waits already. So the
attempt that met a stall was the last one, and although its member goes on to say that it runs, nothing
but a heartbeat that somebody calls for keeps the worker from being taken for dead. -/

namespace StreamWorker

/-- After a tick that was due, the next one is at most an interval away. -/
theorem World.nextTick_le {now d : Nat} {l : HeartbeatLoop} (hd : d ≤ now) :
    nextTick now l d ≤ now + l.interval.nanos := by
  refine Nat.add_le_add_right ?_ _
  split
  · exact Nat.le_refl now
  · exact hd

theorem Occurrence.writes_of_open {o : Occurrence} {key value : String} {ttl : Duration}
    (hop : o.op = .set key value ttl) (ho : o.store.Open .set) : o.Writes key := by
  have hset : (o.store.set o.now key value ttl).2 = .answer () := by rw [Store.set, Store.gate_of_open ho]
  rw [Writes, wrote?, hop]
  simp [hset]

namespace History

variable {h : History} {e : Event} {es : List Event} {name : String} {m : Member} {clock : Clock} {id : Nat}
variable {l : HeartbeatLoop} {o : Occurrence}

/-! ### Attempts -/

/-- The phase of a loop tells whether its last attempt to write has stalled. No attempt before did. -/
structure Attempts (h : History) (id : Nat) (l : HeartbeatLoop) : Prop where
  earlier : ∀ before o, h.ticks id = before ++ [o] → ∀ p ∈ before, .set ∉ p.store.stalled
  fresh : l.phase = .fresh → h.ticks id = []
  /-- The next tick is at most an interval after the last. -/
  ticking : ∀ d, l.phase = .ticking d → ∃ before o, h.ticks id = before ++ [o] ∧
    .set ∉ o.store.stalled ∧ d ≤ o.now + l.interval.nanos
  writing : l.phase = .writing → ∃ before o, h.ticks id = before ++ [o] ∧ .set ∈ o.store.stalled

namespace Attempts

variable {l' : HeartbeatLoop} {h' : History}

theorem of_ticks_eq (ha : h.Attempts id l) (ht : h'.ticks id = h.ticks id) (hi : l'.interval = l.interval)
    (hp : l'.phase = l.phase) : h'.Attempts id l' where
  earlier := by rw [ht]; exact ha.earlier
  fresh := by rw [ht, hp]; exact ha.fresh
  ticking := by rw [ht, hp, hi]; exact ha.ticking
  writing := by rw [ht, hp]; exact ha.writing

theorem of_ticks_nil (ht : h.ticks id = []) (hp : l.phase = .fresh) : h.Attempts id l where
  earlier before o hb := by simp [ht] at hb
  fresh _ := ht
  ticking d hd := by rw [hp] at hd; cases hd
  writing hw := by rw [hp] at hw; cases hw

/-- A loop that makes an attempt has not stalled before. -/
theorem clear (ha : h.Attempts id l) (hne : l.phase ≠ .writing) (hend : l.phase ≠ .ended) :
    ∀ o ∈ h.ticks id, .set ∉ o.store.stalled := by
  intro o ho
  cases hp : l.phase with
  | fresh =>
    rw [ha.fresh hp] at ho
    cases ho
  | ticking d =>
    obtain ⟨before, p, ht, hclear, -⟩ := ha.ticking d hp
    rw [ht] at ho
    rcases List.mem_append.mp ho with ho | ho
    · exact ha.earlier before p ht o ho
    · rw [List.mem_singleton.mp ho]
      exact hclear
  | writing => exact absurd hp hne
  | ended => exact absurd hp hend

theorem next_wake (ha : h.Attempts id l) (hl : h.world.loops.get? id = some l)
    (hl' : (h.next (.wake (.loop id))).world.loops.get? id = some l') :
    (h.next (.wake (.loop id))).Attempts id l' := by
  rcases World.wake_cases hl with ⟨hb, hw⟩ | ⟨hb, -, hw⟩ | ⟨d, hb, hphase, hw⟩
  · rw [History.next, hw, hl] at hl'
    cases hl'
    exact ha.of_ticks_eq (ticks_of_idle hb) rfl rfl
  · rw [History.next, hw, Table.get?_insert_self] at hl'
    cases hl'
    refine ⟨?_, fun hp => (by cases hp), fun d hd => (by cases hd), fun hp => (by cases hp)⟩
    rw [ticks_of_idle hb]
    exact ha.earlier
  · rw [History.next, hw, Table.get?_insert_self] at hl'
    cases hl'
    have hticks := ticks_of_beating hb
    have hbefore : ∀ p ∈ h.ticks id, .set ∉ p.store.stalled := by
      refine ha.clear (fun hp => ?_) (World.beating?_eq_some hb).2.2
      rcases hphase with ⟨hf, -⟩ | ⟨ht, -⟩
      · rw [hp] at hf; cases hf
      · rw [hp] at ht; cases ht
    have hdue : d ≤ h.world.now := by
      rcases hphase with ⟨-, hd⟩ | ⟨-, hd⟩
      · exact Nat.le_of_eq hd
      · exact Nat.le_trans (Instant.le_ceilMilli d) hd
    refine ⟨fun before o hb' => ?_, fun hp => ?_, fun d' hd' => ?_, fun hp => ?_⟩
    · rw [hticks] at hb'
      rwa [← (List.append_inj' hb' rfl).1]
    · dsimp only at hp
      split at hp <;> cases hp
    · refine ⟨_, _, hticks, ?_⟩
      dsimp only at hd'
      split at hd'
      · cases hd'
      · next hclear =>
        cases hd'
        exact ⟨hclear, World.nextTick_le hdue⟩
    · refine ⟨_, _, hticks, ?_⟩
      dsimp only at hp
      split at hp
      · next hs => exact hs
      · cases hp

end Attempts

theorem attempts_next (ho : h.world.Orderly) (hbeat : ∀ o ∈ h.log, ∀ id, o.asker = .loop id → h.BeatenBy id o)
    (ha : ∀ id l, h.world.loops.get? id = some l → h.Attempts id l) (e : Event) :
    ∀ id l, (h.next e).world.loops.get? id = some l → (h.next e).Attempts id l := by
  intro id l' hl'
  cases hl : h.world.loops.get? id with
  | some l =>
    by_cases he : e.loop? = some id
    · obtain rfl := Event.eq_wake_of_loop? he
      exact (ha id l hl).next_wake hl hl'
    · obtain ⟨l'', hl'', hlead, hphase⟩ := loop_of_ne ho hl he
      cases hl'.symm.trans hl''
      exact (ha id l hl).of_ticks_eq (ticks_next_of_ne he) hlead.interval hphase
  | none =>
    rcases loop_next hl' with ⟨l, hl₀, -⟩ | ⟨name, token, m, expiry, rfl, -, -, rfl⟩
    · rw [hl] at hl₀
      cases hl₀
    · have hne : (Event.start name token).loop? ≠ some id := fun hx => (by cases hx)
      refine .of_ticks_nil ?_ rfl
      rw [ticks_next_of_ne hne, ticks_of_absent hbeat hl]

theorem attempts (clock : Clock) (es : List Event) :
    ∀ id l, ((start clock).run es).world.loops.get? id = some l → ((start clock).run es).Attempts id l :=
  run_concat_induction (P := fun _ h => ∀ id l, h.world.loops.get? id = some l → h.Attempts id l)
    (fun _ _ hl => (by cases hl))
    (fun es e ha => attempts_next (orderly_run clock es).1 (loops_beat clock es) ha e) es

/-! ### Members that say that they run -/

/-- A member says that it runs, and the token of its loop is not cancelled. -/
structure Employs (h : History) (name : String) (m : Member) (id : Nat) (l : HeartbeatLoop) : Prop where
  member : h.world.members.get? name = some m
  loop : m.loop = some id
  found : h.world.loops.get? id = some l
  running : h.world.isRunning m = true
  live : h.world.isCancelled l.token = false

namespace Employs

theorem not_ended (hE : h.Employs name m id l) : l.phase ≠ .ended := by
  have hr := hE.running
  rwa [World.Orderly.isRunning_eq hE.loop hE.found, decide_eq_true_eq] at hr

theorem worker (hE : h.Employs name m id l) (ho : h.world.Orderly) : l.worker = m.worker := by
  obtain ⟨l', hl', hw, -⟩ := ho.engaged name m id hE.member hE.loop
  cases hE.found.symm.trans hl'
  exact hw

theorem not_cancelled (hE : h.Employs name m id l) (ho : h.world.Orderly) : l.cancelled = false := by
  obtain ⟨l', hl', -, hgone⟩ := ho.engaged name m id hE.member hE.loop
  cases hE.found.symm.trans hl'
  refine Bool.eq_false_iff.mpr fun hc => ?_
  rw [hE.live] at hgone
  cases hgone hc

theorem expiry (hE : h.Employs name m id l) (ho : h.world.Orderly) :
    m.worker.settings.expiry? = some l.expiry := by
  rw [← hE.worker ho]
  exact (ho.placed id l hE.found).expiry

theorem interval (hE : h.Employs name m id l) (ho : h.world.Orderly) :
    l.interval = m.worker.settings.interval := by
  rw [← hE.worker ho]
  exact (ho.placed id l hE.found).interval

/-- Its loop waits for a write exactly if an attempt of the loop has stalled. -/
theorem writing_iff (hE : h.Employs name m id l) (ha : h.Attempts id l) :
    l.phase = .writing ↔ ∃ o ∈ h.ticks id, .set ∈ o.store.stalled := by
  constructor
  · intro hp
    obtain ⟨before, o, ht, hs⟩ := ha.writing hp
    exact ⟨o, by simp [ht], hs⟩
  · rintro ⟨o, ho, hs⟩
    exact Decidable.byContradiction fun hp => ha.clear hp hE.not_ended o ho hs

end Employs

/-! ### Where a write stalls -/

/-- A loop that waits for a write goes on waiting, whatever happens to the faults. -/
theorem writing_next (hE : h.Employs name m id l) (ho : h.world.Orderly) (hp : l.phase = .writing)
    (e : Event) : ∃ l', (h.next e).world.loops.get? id = some l' ∧ l.Leads l' ∧ l'.phase = .writing ∧
      (h.next e).ticks id = h.ticks id := by
  by_cases he : e.loop? = some id
  · obtain rfl := Event.eq_wake_of_loop? he
    rcases World.wake_cases hE.found with ⟨hb, hw⟩ | ⟨-, hc, -⟩ | ⟨d, -, ⟨hf, -⟩ | ⟨ht, -⟩, -⟩
    · exact ⟨l, by rw [next, hw, hE.found], .refl l, hp, ticks_of_idle hb⟩
    · rw [hE.not_cancelled ho] at hc
      cases hc
    · rw [hp] at hf
      cases hf
    · rw [hp] at ht
      cases ht
  · obtain ⟨l', hl', hlead, hphase⟩ := loop_of_ne ho hE.found he
    exact ⟨l', hl', hlead, hphase.trans hp, ticks_next_of_ne he⟩

/-- So the member goes on to say that it runs, and the loop makes no attempt any more. -/
theorem held_run (hE : h.Employs name m id l) (ho : h.world.Orderly) (hc : h.world.Checked)
    (hp : l.phase = .writing) (he : ∀ e ∈ es, e.releases name = false)
    (hlive : (h.run es).world.isCancelled l.token = false) :
    (∃ l', (h.run es).Employs name m id l') ∧ (h.run es).ticks id = h.ticks id := by
  induction es generalizing h l with
  | nil => exact ⟨⟨l, hE⟩, rfl⟩
  | cons e es ih =>
    obtain ⟨l', hl', hlead, hp', hticks⟩ := writing_next hE ho hp e
    rw [← hlead.token] at hlive
    have hm' := member_kept ho hE.member hE.loop hE.found hE.live (he e List.mem_cons_self)
    have hE' : (h.next e).Employs name m id l' := by
      refine ⟨hm', hE.loop, hl', ?_, live_of_run (h := h.next e) hlive⟩
      rw [World.Orderly.isRunning_eq hE.loop hl', hp']
      rfl
    obtain ⟨hemploys, hrest⟩ := ih hE' (orderly_next ho hc e) ((h.next_leads e).checked hc) hp'
      (fun e' he' => he e' (List.mem_cons_of_mem _ he')) hlive
    exact ⟨hemploys, hrest.trans hticks⟩

/-! ### Where no write stalls -/

/-- Over some time up to now, writes have neither failed nor stalled. -/
def Undisturbed (clock : Clock) (es : List Event) (span : Nat) : Prop :=
  ∀ p ∈ (start clock).scenes es, ((start clock).run es).world.now < p.1.world.now + span →
    p.1.world.store.Open .set

instance (clock : Clock) (es : List Event) (span : Nat) : Decidable (Undisturbed clock es span) :=
  inferInstanceAs (Decidable (∀ _ ∈ _, _ → _))

/-- While nothing is ready, the next tick of a loop that waits for it is still to come. -/
theorem lt_tick {d : Nat} (ho : h.world.Orderly) (hq : h.world.ready = [])
    (haligned : Instant.milli ∣ h.world.now) (hl : h.world.loops.get? id = some l)
    (hp : l.phase = .ticking d) : h.world.now < d := by
  refine Nat.lt_of_not_le fun hle => ?_
  have hceil := Instant.ceilMilli_mono hle
  rw [Instant.ceilMilli_of_dvd haligned] at hceil
  exact Nat.not_lt.mpr hceil (lt_ceilMilli_tick ho hq hl hp)

/-- Its last attempt is less than an interval ago. -/
theorem exists_recent_attempt (hE : h.Employs name m id l) (ha : h.Attempts id l) (ho : h.world.Orderly)
    (hq : h.world.ready = []) (haligned : Instant.milli ∣ h.world.now) (hp : l.phase ≠ .writing) :
    ∃ before o, h.ticks id = before ++ [o] ∧
      h.world.now < o.now + m.worker.settings.interval.nanos := by
  cases hphase : l.phase with
  | fresh =>
    have hr := (ho.placed id l hE.found).fresh hphase
    rw [hq] at hr
    cases hr
  | ticking d =>
    obtain ⟨before, o, ht, -, hd⟩ := ha.ticking d hphase
    rw [hE.interval ho] at hd
    exact ⟨before, o, ht, Nat.lt_of_lt_of_le (lt_tick ho hq haligned hE.found hphase) hd⟩
  | writing => exact absurd hphase hp
  | ended => exact absurd hphase hE.not_ended

/-- An attempt succeeds unless there is a fault. -/
theorem writes_of_undisturbed {span : Nat} (hE : ((start clock).run es).Employs name m id l)
    (hu : Undisturbed clock es span) (ho : o ∈ ((start clock).run es).ticks id)
    (hlt : ((start clock).run es).world.now < o.now + span) : o.Writes m.worker.heartbeatKey := by
  obtain ⟨hlog, hasker⟩ := List.mem_filter.mp ho
  have hloop : o.asker = .loop id := by simpa using hasker
  obtain ⟨l', hl', hop⟩ := loops_beat clock es o hlog id hloop
  cases hE.found.symm.trans hl'
  rw [hE.worker (orderly_run clock es).1] at hop
  refine Occurrence.writes_of_open hop ?_
  rw [log_run, show (start clock).log = [] from rfl, List.nil_append] at hlog
  obtain ⟨p, hp, hadded⟩ := List.mem_flatMap.mp hlog
  obtain ⟨-, l₀, -, rfl⟩ := mem_added_loop hadded hloop
  exact hu p hp hlt

/-- What the last attempt has written, or somebody after it, is there. -/
theorem present_of_attempt (hE : ((start clock).run es).Employs name m id l)
    (hown : ((start clock).run es).Owned m.worker) (ho : o ∈ ((start clock).run es).ticks id)
    (hw : o.Writes m.worker.heartbeatKey)
    (hlt : ((start clock).run es).world.now < o.now + m.worker.settings.interval.nanos)
    (hrange : ∀ p ∈ ((start clock).run es).log, p.Writes m.worker.heartbeatKey →
      p.now + 2 * m.worker.settings.keepalive.nanos < clock.limit) :
    ∃ r, ((start clock).run es).world.store.keys.look ((start clock).run es).world.now
        m.worker.heartbeatKey = .ok (some r) ∧
      ((start clock).run es).world.now < r.writtenAt + m.worker.settings.interval.nanos := by
  have hexpiry := hE.expiry (orderly_run clock es).1
  obtain ⟨p, r, hlast, hle⟩ := exists_lastWrote (chronicle clock es) (List.mem_filter.mp ho).1 hw
  obtain ⟨hp, hr⟩ := hlast.mem
  have hat : r.writtenAt = p.now := (Occurrence.wrote?_eq_some.mp hr).1
  have hkeep := m.worker.settings.interval_le
  refine ⟨r, ?_, by omega⟩
  rw [hlast.look_of_owned hown hexpiry, if_pos (hrange p hp (Option.isSome_iff_exists.mpr ⟨r, hr⟩)),
    if_pos (by omega)]

/-! ### The law -/

/-- A write that fails delays the heartbeat of a worker until the next tick, and one that stalls ends it.
Of all attempts of a loop whose member says that it runs, under a token that is not cancelled, only the
last can have stalled. If it has, the member goes on to say that it runs as long as it is not let go of
and the token is not cancelled, but the loop makes no attempt any more, even if the fault is cleared. If
no attempt has stalled, the last one is less than an interval ago once everything that is ready has run,
and it has succeeded if there was no fault over the last interval. If nobody but the worker writes the key,
it is then present, as far as the clock goes, and in either case it is seen until twice the keepalive has
passed since it was last written. -/
theorem stall_ends_heartbeat (hE : ((start clock).run es).Employs name m id l) :
    let h := (start clock).run es
    let key := m.worker.heartbeatKey
    let keepalive := m.worker.settings.keepalive.nanos
    let interval := m.worker.settings.interval.nanos
    (∀ before o, h.ticks id = before ++ [o] → ∀ p ∈ before, .set ∉ p.store.stalled) ∧
    ((∃ o ∈ h.ticks id, .set ∈ o.store.stalled) →
      ∀ es', (∀ e ∈ es', e.releases name = false) → (h.run es').world.isCancelled l.token = false →
        (h.run es').world.members.get? name = some m ∧ (h.run es').world.isRunning m = true ∧
          (h.run es').ticks id = h.ticks id) ∧
    ((∀ o ∈ h.ticks id, .set ∉ o.store.stalled) → h.world.ready = [] → Instant.milli ∣ h.world.now →
      ∃ before o, h.ticks id = before ++ [o] ∧ h.world.now < o.now + interval ∧
        (Undisturbed clock es interval → o.Writes key ∧ (h.Owned m.worker →
          (∀ p ∈ h.log, p.Writes key → p.now + 2 * keepalive < clock.limit) →
          ∃ r, h.world.store.keys.look h.world.now key = .ok (some r) ∧
            h.world.now < r.writtenAt + interval))) ∧
    (h.Owned m.worker →
      (∀ o r, h.LastWrote key o r → h.world.store.keys.look h.world.now key =
        if o.now + 2 * keepalive < clock.limit then
          .ok (if h.world.now < o.now + 2 * keepalive then some r else none)
        else .error .beyondClock) ∧
      ((∀ o ∈ h.log, ¬ o.Writes key) → h.world.store.keys.look h.world.now key = .ok none)) := by
  intro h key keepalive interval
  obtain ⟨ho, hc⟩ := orderly_run clock es
  have ha := attempts clock es id l hE.found
  refine ⟨ha.earlier, fun hs es' he hlive => ?_, fun hclear hq haligned => ?_, fun hown => ⟨fun o r hl =>
    hl.look_of_owned hown (hE.expiry ho), fun hnone => ?_⟩⟩
  · obtain ⟨⟨l', hE'⟩, hticks⟩ := held_run hE ho hc ((hE.writing_iff ha).mpr hs) he hlive
    exact ⟨hE'.member, hE'.running, hticks⟩
  · have hp : l.phase ≠ .writing := fun hp => by
      obtain ⟨o, hmem, hs⟩ := (hE.writing_iff ha).mp hp
      exact hclear o hmem hs
    obtain ⟨before, o, ht, hlt⟩ := exists_recent_attempt hE ha ho hq haligned hp
    have hmem : o ∈ h.ticks id := by
      rw [ht]
      exact List.mem_append_right before (List.mem_singleton_self o)
    refine ⟨before, o, ht, hlt, fun hu => ?_⟩
    have hw := writes_of_undisturbed hE hu hmem hlt
    exact ⟨hw, fun hown hrange => present_of_attempt hE hown hmem hw hlt hrange⟩
  · exact (chronicle clock es).look_of_unwritten
      (fun o hmem => Option.not_isSome_iff_eq_none.mp (hnone o hmem)) _

/-- A heartbeat first succeeds, then fails, then succeeds again and in the end stalls. -/
def choking : List Event :=
  [.hire "w" "a" hasty .text, .start "w" "main", .wake (.loop 0),
    .command (.fail .set "down"), .elapse Instant.milli, .wake (.loop 0),
    .command (.clearFaults .set), .elapse Instant.milli, .wake (.loop 0),
    .command (.stall .set), .elapse Instant.milli, .wake (.loop 0)]

/-- The fault is cleared, and time passes. -/
def recovery : List Event :=
  .command (.clearFaults .set) :: (List.replicate 30 [.elapse Instant.milli, .wake (.loop 0)]).flatten

/-- The loop of a member, in a phase. -/
private def hastyLoop (phase : LoopPhase) : HeartbeatLoop :=
  { worker := ⟨"a", hasty, .text⟩, interval := hasty.interval, expiry := .ofMillis 20, token := "main", phase }

/-- After the failure the key is present again. After the stall the worker says that it runs and beats no
more, although the fault has been cleared for thirty intervals. -/
theorem stall_ends_heartbeat_choking :
    let h := (start ⟨5, 0⟩).run choking
    (∃ r, ((start ⟨5, 0⟩).run (choking.take 9)).world.store.keys.look (2 * Instant.milli)
      (heartbeatKey "a") = .ok (some r)) ∧
    (h.ticks 0).length = 4 ∧ (h.run recovery).ticks 0 = h.ticks 0 ∧
      (h.run recovery).world.isRunning ⟨⟨"a", hasty, .text⟩, some 0⟩ = true := by
  have htaken : ((start ⟨5, 0⟩).run (choking.take 9)).Employs "w" ⟨⟨"a", hasty, .text⟩, some 0⟩ 0
      (hastyLoop (.ticking (3 * Instant.milli))) :=
    ⟨by decide +kernel, rfl, by decide +kernel, by decide +kernel, by decide +kernel⟩
  have hchoked : ((start ⟨5, 0⟩).run choking).Employs "w" ⟨⟨"a", hasty, .text⟩, some 0⟩ 0
      (hastyLoop .writing) :=
    ⟨by decide +kernel, rfl, by decide +kernel, by decide +kernel, by decide +kernel⟩
  obtain ⟨-, -, hmoving, -⟩ := stall_ends_heartbeat htaken
  obtain ⟨-, hheld, -⟩ := stall_ends_heartbeat hchoked
  obtain ⟨before, o, -, -, hpresent⟩ := hmoving (by decide +kernel) (by decide +kernel) (by decide +kernel)
  obtain ⟨-, hpresent⟩ := hpresent (by decide +kernel)
  obtain ⟨r, hlook, -⟩ := hpresent (by decide +kernel) (by decide +kernel)
  obtain ⟨-, hrunning, hticks⟩ := hheld (by decide +kernel) recovery (by decide +kernel) (by decide +kernel)
  exact ⟨⟨r, hlook⟩, by decide +kernel, hticks, hrunning⟩

/-- The first write of a heartbeat stalls. The fault is cleared, and three intervals pass. -/
def cleared : List Event :=
  [.hire "w" "a" hasty .text, .command (.stall .set), .start "w" "main", .wake (.loop 0),
    .command (.clearFaults .set), .elapse Instant.milli, .elapse Instant.milli, .elapse Instant.milli]

/-- A worker whose member says that it runs, under a token that is not cancelled, and whose key nobody
else writes looks dead, although there has been no fault over the last interval. -/
theorem cleared_stall_holds_loop :
    let h := (start ⟨5, 0⟩).run cleared
    let m : Member := ⟨⟨"a", hasty, .text⟩, some 0⟩
    h.Employs "w" m 0 (hastyLoop .writing) ∧ h.world.ready = [] ∧ Instant.milli ∣ h.world.now ∧
      h.Owned m.worker ∧ Undisturbed ⟨5, 0⟩ cleared hasty.interval.nanos ∧
      h.world.store.keys.look h.world.now m.worker.heartbeatKey = .ok none := by
  intro h m
  exact ⟨⟨by decide +kernel, rfl, by decide +kernel, by decide +kernel, by decide +kernel⟩,
    by decide +kernel, by decide +kernel, by decide +kernel, by decide +kernel, by rfl⟩

end History

end StreamWorker
