import StreamWorker.Proofs.History.Heartbeat
import StreamWorker.Proofs.History.MemberLoops
import StreamWorker.Proofs.History.Settle
import StreamWorker.Proofs.Session.Tallies

/-! The ticks of a heartbeat loop, one by one. A loop that was started attempts its write when it is
started and after every interval from then on, as long as its member keeps it and its token is not
cancelled. A write that fails is an attempt like any other: it leaves the store alone, is counted and
noted, and changes nothing about the attempts to come. While time passes in a session, the loop misses
none of its ticks. -/

namespace StreamWorker

/-! ### What an attempt does -/

/-- The level of a record of an event. -/
def Note.level? : Note → Option Level
  | .event level .. => some level
  | .closed .. | .count _ => none

theorem Ledger.sum_add_eq (l : Ledger) (t u : Tally) :
    (l.add t).sum u = l.sum u + if u = t then 1 else 0 := by
  rw [sum_add]
  by_cases h : t = u
  · rw [if_pos h, if_pos h.symm]
  · rw [if_neg h, if_neg (Ne.symm h), Nat.add_zero]

namespace World

variable {w v : World} {id : Nat} {l : HeartbeatLoop} {worker : Worker} {expiry : Duration}
variable {reason : String}

/-- From one world to the next, a worker has shown that it is alive. Its key was written anew, and one
heartbeat more was counted; no records were added, or only details. -/
structure Shown (worker : Worker) (expiry : Duration) (w v : World) : Prop where
  store : v.store = { w.store with
    keys := w.store.keys.put w.now worker.heartbeatKey (toString w.clock) expiry }
  counted : ∀ t, v.ledger.sum t = w.ledger.sum t + if t = .heartbeat true then 1 else 0
  noted : ∃ ns : List Note, v.trace.toList = w.trace.toList ++ ns ∧ ∀ n ∈ ns, n.level? = some .debug

/-- From one world to the next, a worker has failed to show that it is alive. The store is as it was, one
failed heartbeat more was counted, and one record besides details was added, which says why. -/
structure Missed (worker : Worker) (reason : String) (w v : World) : Prop where
  store : v.store = w.store
  counted : ∀ t, v.ledger.sum t = w.ledger.sum t + if t = .heartbeat false then 1 else 0
  noted : ∃ ns : List Note, v.trace.toList = w.trace.toList ++ ns ++
      [.event .info "updating heartbeat"
        [("consumer", .text worker.id), ("error", .text ("store error: " ++ reason))] none] ∧
    ∀ n ∈ ns, n.level? = some .debug

/-- Details are added to the trace and change nothing else. -/
theorem notes_of_debug {ns : List Note} (h : ∀ n ∈ ns, n.level? = some .debug) :
    ∃ trace, w.notes ns = { w with trace } ∧ trace.toList = w.trace.toList ++ ns := by
  induction ns generalizing w with
  | nil => exact ⟨_, rfl, (List.append_nil _).symm⟩
  | cons n ns ih =>
    cases n with
    | event level message fields span =>
      obtain ⟨trace, hw, htrace⟩ :=
        ih (w := w.note (.event level message fields span)) fun n hn => h n (List.mem_cons_of_mem _ hn)
      have hpush : (w.note (.event level message fields span)).trace =
        w.trace.push (.event level message fields span) := rfl
      refine ⟨trace, hw, ?_⟩
      rw [htrace, hpush, Array.toList_push, List.append_assoc, List.singleton_append]
    | closed | count => cases h _ List.mem_cons_self

theorem beat_of_open (id : Nat) (l : HeartbeatLoop) (ho : w.store.Open .set) (d : Nat) :
    Shown l.worker l.expiry w (w.beat id l d) := by
  have hset : w.store.set w.now l.worker.heartbeatKey (toString w.clock) l.expiry =
    ({ w.store with keys := w.store.keys.put w.now l.worker.heartbeatKey (toString w.clock) l.expiry },
      .answer ()) := Store.gate_of_open ho
  rw [beat, hset]
  exact ⟨rfl, fun t => w.ledger.sum_add_eq (.heartbeat true) t, [], (List.append_nil _).symm,
    List.forall_mem_nil _⟩

theorem beat_of_failing (id : Nat) (l : HeartbeatLoop) (hs : .set ∉ w.store.stalled)
    (hf : w.store.failing.get? .set = some reason) (d : Nat) : Missed l.worker reason w (w.beat id l d) := by
  have hset : w.store.set w.now l.worker.heartbeatKey (toString w.clock) l.expiry =
    (w.store, .failure (.store reason)) := Store.gate_of_failing hs hf
  rw [beat, hset]
  refine ⟨rfl, fun t => w.ledger.sum_add_eq (.heartbeat false) t, [], ?_, List.forall_mem_nil _⟩
  rw [List.append_nil, ← Array.toList_push]
  rfl

/-- A loop that is let go on when it is due beats, after it has noted that it was started. -/
theorem runLoop_of_beating (hb : w.beating? id = some l) : ∃ d ns,
    w.runLoop id = (w.notes ns).beat id l d ∧ ∀ n ∈ ns, n.level? = some .debug := by
  obtain ⟨hl, hd⟩ := Option.filter_eq_some_iff.mp hb
  cases hp : l.phase with
  | fresh =>
    have hc : l.cancelled = false := (beating?_eq_some hb).2.1
    obtain ⟨n, hn, hrun⟩ : ∃ n : Note, n.level? = some .debug ∧
        w.runLoop id = (w.notes [n]).beat id l w.now := by
      simp only [runLoop, hl, hp, hc, note_eq_notes, notes_now, Bool.false_eq_true, if_false]
      exact ⟨_, rfl, rfl⟩
    exact ⟨w.now, [n], hrun, fun n' hn' => by rwa [List.mem_singleton.mp hn']⟩
  | ticking d =>
    have hc : l.cancelled = false := (beating?_eq_some hb).2.1
    have ht : Instant.ceilMilli d ≤ w.now := by simpa [due, hp, hc] using hd
    refine ⟨d, [], ?_, List.forall_mem_nil _⟩
    simp only [runLoop, hl, hp, hc, ht, Bool.false_eq_true, if_false, if_true]
    rfl
  | writing => simp [due, hp] at hd
  | ended => simp [due, hp] at hd

/-- An attempt succeeds if writes do not fail, and fails if they do. -/
theorem wake_of_beating (hb : w.beating? id = some l) (hs : .set ∉ w.store.stalled) :
    (w.store.failing.get? .set = none → Shown l.worker l.expiry w (w.wake (.loop id))) ∧
      ∀ reason, w.store.failing.get? .set = some reason →
        Missed l.worker reason w (w.wake (.loop id)) := by
  have hb' : ({ w with ready := w.ready.erase (.loop id) } : World).beating? id = some l := hb
  obtain ⟨d, ns, hrun, hns⟩ := runLoop_of_beating hb'
  obtain ⟨trace, hnotes, htrace⟩ :=
    notes_of_debug (w := { w with ready := w.ready.erase (.loop id) }) hns
  rw [wake, runTask, hrun, hnotes]
  constructor
  · intro hf
    obtain ⟨hstore, hcounted, ns', hnoted, hns'⟩ := beat_of_open
      (w := { w with ready := w.ready.erase (.loop id), trace }) id l ⟨hs, hf⟩ d
    refine ⟨hstore, hcounted, ns ++ ns', ?_, fun n hn => ?_⟩
    · rw [hnoted, htrace, List.append_assoc]
    · exact (List.mem_append.mp hn).elim (hns n) (hns' n)
  · intro reason hf
    obtain ⟨hstore, hcounted, ns', hnoted, hns'⟩ := beat_of_failing
      (w := { w with ready := w.ready.erase (.loop id), trace }) id l hs hf d
    refine ⟨hstore, hcounted, ns ++ ns', ?_, fun n hn => ?_⟩
    · rw [hnoted, htrace, List.append_assoc w.trace.toList]
    · exact (List.mem_append.mp hn).elim (hns n) (hns' n)

end World

/-! ### Members that keep their loops -/

/-- The event takes its loop away from a member, which is made anew, stopped or dismissed. -/
def Event.releases (name : String) : Event → Bool
  | .hire n _ settings _ => n = name && settings.check.isOk
  | .stop n | .dismiss n => n = name
  | _ => false

/-- No loop is taken away from its member while time passes. -/
theorem Event.not_releases_of_passes {e : Event} (he : e.passes = true) (name : String) :
    e.releases name = false := by
  cases e with
  | elapse | wake => rfl
  | _ => cases he

namespace History

variable {h : History} {e : Event} {es es₁ es₂ : List Event} {name token : String} {m : Member}
variable {clock : Clock} {id : Nat} {l : HeartbeatLoop} {expiry : Duration}

/-- A member whose loop runs keeps it, unless it is made anew, stopped or dismissed. -/
theorem member_kept (ho : h.world.Orderly) (hm : h.world.members.get? name = some m)
    (hloop : m.loop = some id) (hl : h.world.loops.get? id = some l)
    (hc : h.world.isCancelled l.token = false) (he : e.releases name = false) :
    (h.next e).world.members.get? name = some m := by
  by_cases ha : e.isAside = true
  · obtain ⟨store, trace, ledger, hw⟩ := h.next_aside ha
    rwa [hw]
  · cases e with
    | hire n id settings kind =>
      have hn : ¬ (n = name ∧ settings.check.isOk = true) := by simpa [Event.releases] using he
      rwa [next, World.hire_members, if_neg hn]
    | start n token =>
      rcases World.start_cases h.world n token with ⟨m', expiry, -, hm', hidle, -, hs⟩ | ⟨-, ns, hs⟩
      · have hn : n ≠ name := by
          rintro rfl
          cases hm.symm.trans hm'
          rw [World.Orderly.isRunning_eq hloop hl, decide_eq_true_eq] at hidle
          exact hidle (ho.phase_ne_ended hm hloop hl hc)
        rwa [next, hs, World.spawn_members, if_neg hn]
      · rwa [next, hs, World.notes_members]
    | stop n =>
      have hn : n ≠ name := by simpa [Event.releases] using he
      rwa [next, World.stop_members, if_neg hn]
    | dismiss n =>
      have hn : n ≠ name := by simpa [Event.releases] using he
      rwa [next, World.dismiss_members, if_neg hn]
    | command r => rwa [next, World.command_members]
    | wake t => rwa [next, World.wake_members]
    | elapse nanos => exact hm
    | _ => exact absurd rfl ha

theorem member_kept_run (ho : h.world.Orderly) (hcheck : h.world.Checked)
    (hm : h.world.members.get? name = some m) (hloop : m.loop = some id)
    (hl : h.world.loops.get? id = some l) (he : ∀ e ∈ es, e.releases name = false)
    (hc : (h.run es).world.isCancelled l.token = false) :
    (h.run es).world.members.get? name = some m := by
  induction es generalizing h l with
  | nil => exact hm
  | cons e es ih =>
    have hlive : h.world.isCancelled l.token = false := live_of_run hc
    obtain ⟨l', hl', hlead⟩ := loopsLead_next ho e id l hl
    have hm' := member_kept ho hm hloop hl hlive (he e List.mem_cons_self)
    refine ih (orderly_next ho hcheck e) ((h.next_leads e).checked hcheck) hm' hl'
      (fun e' he' => he e' (List.mem_cons_of_mem _ he')) ?_
    rw [hlead.token]
    exact hc

/-! ### The law -/

namespace Paced

variable {t₀ : Nat}

theorem times_eq (hp : h.Paced id t₀ l) : (h.ticks id).map (·.now) =
    (List.range (h.ticks id).length).map fun i => t₀ + i * l.interval.nanos := by
  refine List.ext_getElem? fun i => ?_
  rw [List.getElem?_map, List.getElem?_map]
  rcases Nat.lt_or_ge i (h.ticks id).length with hi | hi
  · rw [List.getElem?_range hi, List.getElem?_eq_getElem hi]
    exact congrArg some (hp.times i _ (List.getElem?_eq_getElem hi))
  · rw [List.getElem?_eq_none hi, List.getElem?_eq_none (by rwa [List.length_range])]
    rfl

/-- The last tick is not after now, and the next one is. -/
theorem length_eq (hp : h.Paced id t₀ l) (hC : Chronicle h.log h.world.store h.world.now)
    (hlt : h.world.now < t₀ + (h.ticks id).length * l.interval.nanos) :
    (h.ticks id).length = (h.world.now - t₀) / l.interval.nanos + 1 := by
  have hbegun := hp.begun
  cases hn : (h.ticks id).length with
  | zero =>
    rw [hn, Nat.zero_mul] at hlt
    omega
  | succ n =>
    have hn' : n < (h.ticks id).length := by omega
    have hlast : (h.ticks id)[n]? = some (h.ticks id)[n] := List.getElem?_eq_getElem hn'
    have hle : t₀ + n * l.interval.nanos ≤ h.world.now := by
      rw [← hp.times n _ hlast]
      exact hC.now_le (List.mem_filter.mp (List.mem_of_getElem? hlast)).1
    rw [hn] at hlt
    congr 1
    exact (Nat.div_eq_of_lt_le (by omega) (by omega)).symm

end Paced

/-- A member is about to start a loop whose interval is a whole number of milliseconds, at a whole
number of milliseconds and while writes do not stall. -/
structure Launch (h : History) (name : String) (m : Member) (expiry : Duration) : Prop where
  member : h.world.members.get? name = some m
  idle : ¬ h.world.isRunning m = true
  expiry : m.worker.settings.expiry? = some expiry
  whole : Instant.milli ∣ m.worker.settings.interval.nanos
  aligned : Instant.milli ∣ h.world.now
  clear : .set ∉ h.world.store.stalled

theorem Launch.paced (hL : ((start clock).run es₁).Launch name m expiry)
    (hr : ((start clock).run es₁).SteadyRun (.start name token :: es₂)) :
    ∃ l, (((start clock).run es₁).run (.start name token :: es₂)).Paced
        ((start clock).run es₁).world.loops.entries.length ((start clock).run es₁).world.now l ∧
      (((start clock).run es₁).world.newLoop m token expiry).Leads l := by
  obtain ⟨ho, hc⟩ := orderly_run clock es₁
  exact paced_from ho hc (loops_beat clock es₁) hL.aligned hL.clear hr hL.member hL.idle hL.expiry hL.whole

/-- The member keeps the loop that it has started. -/
theorem Launch.kept (ho : h.world.Orderly) (hc : h.world.Checked) (hL : h.Launch name m expiry)
    (hkept : ∀ e ∈ es, e.releases name = false)
    (hlive : (h.run (.start name token :: es)).world.isCancelled token = false) :
    (h.run (.start name token :: es)).world.members.get? name =
      some { m with loop := some h.world.loops.entries.length } := by
  have hspawn : (h.next (.start name token)).world = h.world.spawn name m token expiry :=
    next_start hL.member hL.idle hL.expiry
  have hm : (h.next (.start name token)).world.members.get? name =
      some { m with loop := some h.world.loops.entries.length } := by
    rw [hspawn, World.spawn_members, if_pos rfl]
  have hl : (h.next (.start name token)).world.loops.get? h.world.loops.entries.length =
      some (h.world.newLoop m token expiry) := by
    rw [hspawn, World.spawn_loops, if_pos rfl]
  exact member_kept_run (h := h.next (.start name token)) (orderly_next ho hc _)
    ((h.next_leads _).checked hc) hm rfl hl hkept hlive

theorem SteadyRun.clear (hr : h.SteadyRun es) (hs : .set ∉ h.world.store.stalled) :
    .set ∉ (h.run es).world.store.stalled :=
  hr.induction (P := fun h => .set ∉ h.world.store.stalled) hs fun _ _ hn hs => next_stalled hn hs.stalls

/-- When nothing is ready, the member that has kept its loop has attempted every tick whose time has
come, unless the token is cancelled. -/
theorem Launch.length_ticks (hL : ((start clock).run es₁).Launch name m expiry)
    (hr : ((start clock).run es₁).SteadyRun (.start name token :: es₂))
    (hkept : ∀ e ∈ es₂, e.releases name = false) :
    let h₁ := (start clock).run es₁
    let h := h₁.run (.start name token :: es₂)
    h.world.isCancelled token = false → h.world.ready = [] →
      (h.ticks h₁.world.loops.entries.length).length =
        (h.world.now - h₁.world.now) / m.worker.settings.interval.nanos + 1 := by
  intro h₁ h hlive hq
  obtain ⟨ho₁, hc₁⟩ := orderly_run clock es₁
  obtain ⟨l, hpaced, hlead⟩ := hL.paced hr
  have hinterval : l.interval = m.worker.settings.interval := hlead.interval
  have htoken : l.token = token := hlead.token
  have hrun : h = (start clock).run (es₁ ++ .start name token :: es₂) := (run_append ..).symm
  have ho : h.world.Orderly := hrun ▸ (orderly_run clock _).1
  have hC : Chronicle h.log h.world.store h.world.now := hrun ▸ chronicle clock _
  have hm := hL.kept ho₁ hc₁ hkept hlive
  have hne : l.phase ≠ .ended := ho.phase_ne_ended hm rfl hpaced.loop (htoken ▸ hlive)
  have hlt := hpaced.lt_next_tick ho hq hne hL.aligned (hinterval ▸ hL.whole)
  rw [← hinterval]
  exact hpaced.length_eq hC hlt

/-- What every attempt of the loop does. -/
theorem Launch.attempt (hL : ((start clock).run es₁).Launch name m expiry)
    (hr : ((start clock).run es₁).SteadyRun (.start name token :: es₂)) {p : History × Event}
    (hp : p ∈ ((start clock).run es₁).scenes (.start name token :: es₂)) {o : Occurrence}
    (hadded : o ∈ p.1.added p.2)
    (ho : o.asker = .loop ((start clock).run es₁).world.loops.entries.length) :
    o.now = p.1.world.now ∧
      (p.1.world.store.failing.get? .set = none →
        World.Shown m.worker expiry p.1.world (p.1.next p.2).world) ∧
      ∀ reason, p.1.world.store.failing.get? .set = some reason →
        World.Missed m.worker reason p.1.world (p.1.next p.2).world := by
  obtain ⟨es, rest, hes, hrun⟩ := exists_of_mem_scenes hp
  obtain ⟨hwake, l, hb, rfl⟩ := mem_added_loop hadded ho
  rw [hes, steadyRun_append] at hr
  obtain ⟨hbefore, -⟩ := hr
  cases es with
  | nil =>
    -- a start is no attempt
    rw [hwake] at hes
    cases hes
  | cons e es =>
    obtain ⟨rfl, -⟩ := List.cons.inj hes
    obtain ⟨l', hpaced, hlead⟩ := hL.paced hbefore
    rw [← hrun] at hpaced
    cases (World.beating?_eq_some hb).1.symm.trans hpaced.loop
    have hclear := hbefore.clear hL.clear
    rw [← hrun] at hclear
    obtain ⟨hshown, hmissed⟩ := World.wake_of_beating hb hclear
    have hworker : l.worker = m.worker := hlead.worker
    have hexpiry : l.expiry = expiry := hlead.expiry
    rw [hworker, hexpiry] at hshown
    rw [hworker] at hmissed
    rw [hwake]
    exact ⟨rfl, hshown, hmissed⟩

/-- A loop that has been started attempts its write at its start and then once after every interval, for
any pattern of writes that fail. Whatever happens, its attempts so far are the first ones of that
sequence. As long as the member is not stopped, made anew or dismissed, and the token is not cancelled,
they are all whose time has come, once everything that is ready has run. Each event in which the loop
makes an attempt shows that the worker is alive, unless writes fail: the key then holds what the wall
clock says, for twice the keepalive. If they fail, it changes no key and leaves one record that says
why. -/
theorem heartbeat_ticks (hL : ((start clock).run es₁).Launch name m expiry)
    (hr : ((start clock).run es₁).SteadyRun (.start name token :: es₂)) :
    let h₁ := (start clock).run es₁
    let scenes := h₁.scenes (.start name token :: es₂)
    let h := h₁.run (.start name token :: es₂)
    let id := h₁.world.loops.entries.length
    let interval := m.worker.settings.interval.nanos
    0 < interval ∧ expiry.nanos = 2 * m.worker.settings.keepalive.nanos ∧
    (h.ticks id).map (·.now) =
      (List.range (h.ticks id).length).map (fun i => h₁.world.now + i * interval) ∧
    ((∀ e ∈ es₂, e.releases name = false) → h.world.isCancelled token = false →
      h.world.ready = [] → (h.ticks id).length = (h.world.now - h₁.world.now) / interval + 1) ∧
    h.ticks id = scenes.flatMap (fun p => (p.1.added p.2).filter (·.asker = .loop id)) ∧
    ∀ p ∈ scenes, ∀ o ∈ p.1.added p.2, o.asker = .loop id → o.now = p.1.world.now ∧
      (p.1.world.store.failing.get? .set = none →
        World.Shown m.worker expiry p.1.world (p.1.next p.2).world) ∧
      ∀ reason, p.1.world.store.failing.get? .set = some reason →
        World.Missed m.worker reason p.1.world (p.1.next p.2).world := by
  intro h₁ scenes h id interval
  obtain ⟨ho₁, hc₁⟩ := orderly_run clock es₁
  obtain ⟨l, hpaced, hlead⟩ := hL.paced hr
  have hinterval : l.interval.nanos = interval := congrArg Duration.nanos hlead.interval
  refine ⟨Settings.interval_pos (hc₁ name m hL.member), Settings.expiry_nanos hL.expiry, ?_,
    hL.length_ticks hr, ?_, fun p hp o hadded ho => hL.attempt hr hp hadded ho⟩
  · rw [hpaced.times_eq, hinterval]
  · rw [ticks, log_run, List.filter_append, List.filter_flatMap]
    have hnone : h₁.log.filter (·.asker = .loop id) = [] := ticks_free ho₁ (loops_beat clock es₁)
    rw [hnone, List.nil_append]

/-- The second of three attempts fails, and the clock is set before the third. -/
def oneMissed : List Event :=
  [.wake (.loop 0), .command (.fail .set "down"), .elapse Instant.milli, .wake (.loop 0),
    .command (.clearFaults .set), .command (.setClock 77), .elapse Instant.milli, .wake (.loop 0)]

theorem heartbeat_ticks_one_missed :
    let h := ((start ⟨5, 0⟩).run [.hire "w" "a" hasty .text]).run (.start "w" "main" :: oneMissed)
    (h.ticks 0).map (·.now) = [0, Instant.milli, 2 * Instant.milli] ∧
      h.world.store.keys.records.get? (heartbeatKey "a") =
        some ⟨"78", .ofMillis 20, 2 * Instant.milli⟩ := by
  have hlaunch : ((start ⟨5, 0⟩).run [.hire "w" "a" hasty .text]).Launch "w"
      ⟨⟨"a", hasty, .text⟩, none⟩ (.ofMillis 20) :=
    ⟨by decide +kernel, by decide +kernel, by decide +kernel, by decide +kernel, by decide +kernel,
      by decide +kernel⟩
  have hsteady : ((start ⟨5, 0⟩).run [.hire "w" "a" hasty .text]).SteadyRun
      (.start "w" "main" :: oneMissed) := by
    decide +kernel
  obtain ⟨-, -, htimes, hall, -⟩ := heartbeat_ticks hlaunch hsteady
  have hlength := hall (by decide +kernel) (by decide +kernel) (by decide +kernel)
  rw [hlength] at htimes
  exact ⟨htimes, by decide +kernel⟩

/-! ### Time that passes in a session -/

/-- While time passes in a session, from when nothing is ready up to a whole millisecond, the loop makes
every attempt whose time comes, unless its token is cancelled on the way. -/
theorem Launch.elapse_ticks (hL : ((start clock).run es₁).Launch name m expiry)
    (hr : (start clock).SteadyRun (es₁ ++ .start name token :: es₂))
    (hkept : ∀ e ∈ es₂, e.releases name = false) {target : Nat} (hdvd : Instant.milli ∣ target) :
    let h₁ := (start clock).run es₁
    let h := (start clock).run (es₁ ++ .start name token :: es₂)
    let interval := m.worker.settings.interval.nanos
    h.world.ready = [] → h.world.now ≤ target →
    (h.world.elapseTo target).isCancelled token = false →
    ∃ es, h.Passing es (h.world.elapseTo target) ∧
      ((h.run es).ticks h₁.world.loops.entries.length).map (·.now) =
        (List.range ((target - h₁.world.now) / interval + 1)).map fun i => h₁.world.now + i * interval := by
  intro h₁ h interval hq hle hlive
  obtain ⟨es, hp⟩ := elapse_steady clock hr hq hle hdvd
  have hbefore : h = h₁.run (.start name token :: es₂) := run_append ..
  have hrun : h.run es = h₁.run (.start name token :: (es₂ ++ es)) := by
    rw [hbefore, ← run_append, List.cons_append]
  have hsteady : h₁.SteadyRun (.start name token :: (es₂ ++ es)) := by
    have hall := steadyRun_append.mpr ⟨hr, hp.steady⟩
    rw [List.append_assoc] at hall
    exact (steadyRun_append.mp hall).2
  have hkept' : ∀ e ∈ es₂ ++ es, e.releases name = false := fun e he =>
    (List.mem_append.mp he).elim (hkept e) fun he =>
      Event.not_releases_of_passes (hp.passes e he) name
  obtain ⟨l, hpaced, hlead⟩ := hL.paced hsteady
  have hinterval : l.interval.nanos = interval := congrArg Duration.nanos hlead.interval
  have hworld : (h₁.run (.start name token :: (es₂ ++ es))).world = h.world.elapseTo target := by
    rw [← hrun, hp.world]
  have hlength := hL.length_ticks hsteady hkept' (by rw [hworld]; exact hlive)
    (by rw [hworld]; exact hp.quiet)
  rw [hworld, World.elapseTo_now] at hlength
  refine ⟨es, hp, ?_⟩
  rw [hrun, hpaced.times_eq, hinterval, hlength]

end History

end StreamWorker
