import StreamWorker.Proofs.Session.Cancellation
import StreamWorker.Proofs.Session.Reports

/-! How heartbeat loops end. A loop that was cancelled ends the next time it is let go on, whatever it was
about to do and whatever the store would answer, and leaves the store alone. So when nothing is ready,
the loops that a member or a token lets go of end one after the other and nothing else happens, and no
time passes. -/

namespace StreamWorker.World

variable {w v : World} {id : Nat} {l : HeartbeatLoop} {ids : List Nat} {name : String} {m : Member}

/-- The loop of an id is there and has not ended. -/
def Runs (w : World) (id : Nat) : Prop := ∃ l, w.loops.get? id = some l ∧ l.phase ≠ .ended

/-- What loops report when they end one after the other. -/
def farewells (w : World) (ids : List Nat) : List Note :=
  ids.flatMap fun id => ((w.loops.get? id).map HeartbeatLoop.farewell).getD []

theorem farewells_congr (h : ∀ id ∈ ids, (v.loops.get? id).map HeartbeatLoop.farewell =
    (w.loops.get? id).map HeartbeatLoop.farewell) : v.farewells ids = w.farewells ids := by
  rw [farewells, farewells, List.flatMap_congr fun id hid => by rw [h id hid]]

/-- Loops have ended, each with what it reports then, and nothing else has happened to any loop, to the
store or to the clock. -/
structure Parts (ids : List Nat) (w w' : World) : Prop where
  reports : Reports (w.farewells ids) w w'
  loops : ∀ id, w'.loops.get? id = (w.loops.get? id).map fun l =>
    if id ∈ ids then { l with cancelled := true, phase := .ended } else l
  store : w'.store = w.store
  now : w'.now = w.now
  ready : w'.ready = []

/-! ### Loops that are let go on -/

/-- A loop that was cancelled and has not ended. -/
def Doomed (w : World) (id : Nat) : Prop :=
  ∃ l, w.loops.get? id = some l ∧ l.cancelled = true ∧ l.phase ≠ .ended

theorem runLoop_of_cancelled (hl : w.loops.get? id = some l) (hc : l.cancelled = true)
    (hp : l.phase ≠ .ended) : ∃ ns, w.runLoop id = (w.notes ns).endLoop id l := by
  rcases runLoop_cases w id with ⟨-, -, hw⟩ | ⟨l', ns, hl', -, -, -, hw⟩ | ⟨l', d, ns, hl', -, hc', -⟩
  · cases hc.symm.trans (hw l hl hp).1
  · cases hl.symm.trans hl'
    exact ⟨ns, hw⟩
  · cases hl.symm.trans hl'
    cases hc.symm.trans hc'

/-- Ready loops that were cancelled end one after the other. -/
theorem drain_ends {n : Nat} (hr : w.ready = ids.map .loop) (hfuel : ids.length ≤ n) (hn : ids.Nodup)
    (hd : ∀ id ∈ ids, w.Doomed id) :
    let v := drain n w
    Reports (w.farewells ids) w v ∧ v.store = w.store ∧ v.now = w.now ∧ v.members = w.members ∧
      v.ready = [] ∧ ∀ id, v.loops.get? id =
        (w.loops.get? id).map fun l => if id ∈ ids then { l with phase := .ended } else l := by
  induction ids generalizing n w with
  | nil =>
    rw [drain_of_quiet hr]
    exact ⟨.of_eq rfl rfl, rfl, rfl, rfl, hr, fun id => by simp⟩
  | cons id ids ih =>
    obtain ⟨n, rfl⟩ := Nat.exists_eq_add_of_le' (Nat.lt_of_lt_of_le (Nat.succ_pos _) hfuel)
    obtain ⟨hnot, hn⟩ := List.nodup_cons.mp hn
    obtain ⟨l, hl, hc, hp⟩ := hd id List.mem_cons_self
    let u : World := { w with ready := ids.map .loop }
    obtain ⟨ns, hw⟩ := runLoop_of_cancelled (w := u) hl hc hp
    have hloops (id' : Nat) : (u.runLoop id).loops.get? id' =
        if id = id' then some { l with phase := .ended } else w.loops.get? id' := by
      rw [hw, endLoop_loops, notes_loops, Table.get?_insert]
    have hother {id' : Nat} (hid : id' ∈ ids) : (u.runLoop id).loops.get? id' = w.loops.get? id' := by
      rw [hloops, if_neg]
      rintro rfl
      exact hnot hid
    have hdoomed (id' : Nat) (hid : id' ∈ ids) : (u.runLoop id).Doomed id' := by
      rw [Doomed, hother hid]
      exact hd id' (List.mem_cons_of_mem _ hid)
    have hready : (u.runLoop id).ready = ids.map .loop := by rw [hw, endLoop_ready, notes_ready]
    have hwake : w.wake (.loop id) = u.runLoop id := by
      rw [wake, hr, List.map_cons, List.erase_cons_head]
      rfl
    rw [drain_succ hr, hwake]
    obtain ⟨hrest, hstore, hnow, hmembers, hquiet, hall⟩ :=
      ih hready (Nat.le_of_succ_le_succ hfuel) hn hdoomed
    refine ⟨?_, ?_, ?_, ?_, hquiet, fun id' => ?_⟩
    · have hfirst : Reports (w.loopNotes l) w (u.runLoop id) :=
        (reports_runLoop (w := u) hl).congr ⟨rfl, rfl⟩ ⟨rfl, rfl⟩
      have hsay : (u.runLoop id).farewells ids = w.farewells ids :=
        farewells_congr fun id' hid => by rw [hother hid]
      rw [loopNotes, if_pos hc] at hfirst
      rw [hsay] at hrest
      simpa [farewells, hl] using hfirst.trans hrest
    · exact hstore.trans (by rw [hw, endLoop_store, notes_store])
    · exact hnow.trans (by rw [hw, endLoop_now, notes_now])
    · exact hmembers.trans (by rw [hw, endLoop_members, notes_members])
    · refine (hall id').trans ?_
      rw [hloops]
      by_cases he : id = id'
      · subst he
        simp [hl, hnot]
      · simp [he, Ne.symm he]

/-! ### Letting go of loops -/

/-- Loops that are cancelled together become ready once each, unless they were cancelled before. -/
theorem cancelLoops_ready (w : World) (ids : List Nat) : ∃ woken : List Nat, woken.Nodup ∧
    (ids.foldl cancelLoop w).ready = w.ready ++ woken.map .loop ∧
    ∀ id, id ∈ woken ↔ id ∈ ids ∧ ∃ l, w.loops.get? id = some l ∧ l.cancelled = false := by
  induction ids generalizing w with
  | nil => exact ⟨[], List.nodup_nil, (List.append_nil _).symm, by simp⟩
  | cons id ids ih =>
    obtain ⟨woken, hn, hready, hmem⟩ := ih (w.cancelLoop id)
    have hc := cancels_cancelLoop w id
    -- a loop that is still not cancelled is another one than the first
    have hrest (id' : Nat) : id' ∈ woken ↔ id' ∈ ids ∧ id' ≠ id ∧
        ∃ l, w.loops.get? id' = some l ∧ l.cancelled = false := by
      rw [hmem, hc.loops]
      by_cases he : id' = id
      · simp [he]
      · simp [he]
    by_cases hfirst : ∃ l, w.loops.get? id = some l ∧ l.cancelled = false
    · obtain ⟨l, hl, hf⟩ := hfirst
      refine ⟨id :: woken, List.nodup_cons.mpr ⟨fun hx => ((hrest id).mp hx).2.1 rfl, hn⟩, ?_,
        fun id' => ?_⟩
      · rw [List.foldl_cons, hready, cancelLoop, hl]
        simp [hf]
      · rw [List.mem_cons, List.mem_cons, hrest]
        by_cases he : id' = id
        · simp [he, hl, hf]
        · simp [he]
    · refine ⟨woken, hn, ?_, fun id' => ?_⟩
      · rw [List.foldl_cons, hready, cancelLoop]
        split
        · next l hl =>
          rw [if_pos (Bool.of_not_eq_false fun hf => hfirst ⟨l, hl, hf⟩)]
        · rfl
      · rw [List.mem_cons, hrest]
        by_cases he : id' = id
        · subst he
          simpa using hfirst
        · simp [he]

/-- When nothing is ready, a loop has not ended exactly if it was not cancelled. -/
theorem Orderly.phase_iff (h : Orderly w) (hq : w.ready = []) (hl : w.loops.get? id = some l) :
    l.phase ≠ .ended ↔ l.cancelled = false := by
  refine ⟨fun hp => (h.not_cancelled hq hl hp).1, fun hc hp => ?_⟩
  cases hc.symm.trans ((h.placed id l hl).ended hp)

/-- Of loops that were let go of when nothing was ready, those that ran end as soon as what is ready has
run. -/
theorem Orderly.parts {woken : List Nat} (h : Orderly w) (hq : w.ready = []) (hc : Cancels ids w v)
    (hn : woken.Nodup) (hready : v.ready = woken.map .loop)
    (hwoken : ∀ id, id ∈ woken ↔ id ∈ ids ∧ ∃ l, w.loops.get? id = some l ∧ l.cancelled = false)
    (hstore : v.store = w.store) (hnow : v.now = w.now)
    (hsaid : v.trace = w.trace ∧ v.ledger = w.ledger) :
    Parts woken w v.settle ∧ v.settle.members = v.members := by
  have hloop {id : Nat} {l : HeartbeatLoop} (hid : id ∈ woken) (hl : w.loops.get? id = some l) :
      v.loops.get? id = some { l with cancelled := true } := by
    rw [hc.loops, hl, Option.map_some, if_pos ((hwoken id).mp hid).1]
  have hd (id : Nat) (hid : id ∈ woken) : v.Doomed id := by
    obtain ⟨l, hl, hf⟩ := ((hwoken id).mp hid).2
    exact ⟨_, hloop hid hl, rfl, (h.phase_iff hq hl).mpr hf⟩
  have hfuel : woken.length ≤ v.work := by
    rw [work, hready, List.length_map]
    exact Nat.le_add_right ..
  obtain ⟨hr, hs, ht, hmembers, hrest, hall⟩ := drain_ends hready hfuel hn hd
  have hsay : v.farewells woken = w.farewells woken := by
    refine farewells_congr fun id hid => ?_
    obtain ⟨l, hl, -⟩ := ((hwoken id).mp hid).2
    rw [hloop hid hl, hl]
    rfl
  rw [hsay] at hr
  refine ⟨⟨hr.congr ⟨hsaid.1.symm, hsaid.2.symm⟩ ⟨rfl, rfl⟩, fun id => ?_, hs.trans hstore,
    ht.trans hnow, hrest⟩, hmembers⟩
  refine (hall id).trans ?_
  rw [hc.loops]
  cases hl : w.loops.get? id with
  | none => rfl
  | some l =>
    by_cases hid : id ∈ woken
    · simp [hid, ((hwoken id).mp hid).1]
    · -- it was cancelled before, so that cancelling it again changes nothing
      have hcan : id ∈ ids → l.cancelled = true := fun hi => by
        by_contra hf
        exact hid ((hwoken id).mpr ⟨hi, l, hl, by simpa using hf⟩)
      by_cases hi : id ∈ ids
      · simp [hid, hi, ← hcan hi]
      · simp [hid, hi]

/-! ### Members and tokens -/

/-- Of the loops with a property, those that ran have ended, each once, and nothing else has happened to
loops, store and clock. -/
def Ends (p : Nat → Prop) (w w' : World) : Prop :=
  ∃ ids : List Nat, ids.Nodup ∧ (∀ id, id ∈ ids ↔ p id ∧ w.Runs id) ∧ Parts ids w w'

theorem Orderly.runs_iff (h : Orderly w) (hq : w.ready = []) :
    w.Runs id ↔ ∃ l, w.loops.get? id = some l ∧ l.cancelled = false :=
  exists_congr fun _ => and_congr_right fun hl => h.phase_iff hq hl

theorem stopLoop_eq_foldl (w : World) (m : Member) : w.stopLoop m = m.loop.toList.foldl cancelLoop w := by
  rw [stopLoop]
  cases m.loop <;> rfl

/-- A member lets go of its loop when nothing is ready. -/
theorem Orderly.stopLoop_ends (h : Orderly w) (hq : w.ready = []) (m : Member)
    (members : Table String Member) :
    Ends (m.loop = some ·) w (settle { w.stopLoop m with members }) := by
  obtain ⟨woken, hn, hready, hmem⟩ := cancelLoops_ready w m.loop.toList
  have hc := cancels_stopLoop w m
  rw [hq, List.nil_append, ← stopLoop_eq_foldl] at hready
  obtain ⟨loops, ready, hs⟩ := stopLoop_eq w m
  rw [hs] at hc hready ⊢
  refine ⟨woken, hn, fun id => ?_, (h.parts (v := { w with loops, ready, members }) hq
    ⟨hc.loops, hc.size, hc.ready, hc.woken⟩ hn hready hmem rfl rfl ⟨rfl, rfl⟩).1⟩
  rw [hmem, Option.mem_toList, h.runs_iff hq]

/-- A token is cancelled when nothing is ready. -/
theorem Orderly.cancelToken_ends (h : Orderly w) (hq : w.ready = []) (name : String) :
    Ends (fun id => ∃ l, w.loops.get? id = some l ∧ l.token = name) w (w.cancelToken name).settle := by
  by_cases hx : (w.token name).cancelled = true
  · rw [World.cancelToken, if_pos hx, settle_of_quiet hq]
    refine ⟨[], List.nodup_nil, fun id => iff_of_false (by simp) ?_, .of_eq rfl rfl, fun id => ?_, rfl,
      rfl, hq⟩
    · rintro ⟨⟨l, hl, rfl⟩, l', hl', hp⟩
      cases hl.symm.trans hl'
      exact absurd hx (by simpa [isCancelled] using (h.not_cancelled hq hl hp).2)
    · simp
  · let u : World := { w with tokens := w.tokens.insert name { cancelled := true } }
    obtain ⟨woken, hn, hready, hmem⟩ := cancelLoops_ready u (w.token name).loops.reverse
    have hc := cancels_foldl u (w.token name).loops.reverse
    obtain ⟨loops, ready, hs⟩ := cancelLoops_eq u (w.token name).loops.reverse
    have hcancel : w.cancelToken name = { u with loops, ready } := by
      rw [World.cancelToken, if_neg hx, ← hs]
    have hready' : ready = woken.map .loop := by
      rw [hs] at hready
      exact hready.trans (by rw [show u.ready = [] from hq, List.nil_append])
    rw [hs] at hc
    rw [hcancel]
    refine ⟨woken, hn, fun id => ?_, (h.parts (v := { u with loops, ready }) hq
      ⟨hc.loops, hc.size, hc.ready, hc.woken⟩ hn hready' hmem rfl rfl ⟨rfl, rfl⟩).1⟩
    rw [hmem, List.mem_reverse, h.runs_iff hq]
    constructor
    · rintro ⟨hid, hl⟩
      exact ⟨h.attached name id hid, hl⟩
    · rintro ⟨⟨l, hl, rfl⟩, l', hl', hf⟩
      cases hl.symm.trans hl'
      exact ⟨((h.placed id l hl).attached hf).2, l, hl, hf⟩

/-! ### When something is ready -/

/-- A loop that was cancelled has ended once everything has run that is ready. -/
theorem Sound.settle_ended (h : Sound w) (hl : w.loops.get? id = some l) (hc : l.cancelled = true) :
    ∃ l', w.settle.loops.get? id = some l' ∧ l'.phase = .ended := by
  obtain ⟨l', hl', hlead⟩ := loopsLead_settle w id l hl
  refine ⟨l', hl', ?_⟩
  by_contra hp
  cases (h.settle.orderly.not_cancelled h.orderly.settle_ready hl' hp).1.symm.trans (hlead.cancelled hc)

/-- Whatever else is ready, a member that is stopped runs no loop any more once everything has run that
is ready, and no time has passed. -/
theorem Sound.stop_settle (h : Sound w) (hm : w.members.get? name = some m) :
    (w.stop name).1.settle.now = w.now ∧
      (w.stop name).1.settle.members.get? name = some { m with loop := none } ∧
      ∀ id, m.loop = some id → ∃ l, (w.stop name).1.settle.loops.get? id = some l ∧ l.phase = .ended := by
  refine ⟨?_, ?_, fun id hid => ?_⟩
  · rw [settle_now]
    obtain ⟨members, loops, ready, hs⟩ := stop_eq w name
    rw [hs]
  · rw [settle_members, stop_members, if_pos rfl, hm]
    rfl
  · obtain ⟨l, hl, -⟩ := h.orderly.engaged name m id hm hid
    have hsound : Sound (w.stop name).1 := h.move (h.orderly.stop name) (stop_leads w name).2
    have hloops : (w.stop name).1.loops = (w.stopLoop m).loops := by simp [stop, hm]
    have hcancelled : (w.stop name).1.loops.get? id = some { l with cancelled := true } := by
      rw [hloops, (cancels_stopLoop w m).loops, hl, Option.map_some, if_pos (by simp [hid])]
    exact hsound.settle_ended hcancelled rfl

/-! ### Steps that end loops -/

theorem Sound.elapse_ready (h : Sound w) (n : Nat) {target : Nat} (hle : w.now ≤ target) :
    (World.elapse n target w).ready = [] := by
  have hlast {w : World} (h : Sound w) (hle : w.now ≤ target) : (w.arrive target).settle.ready = [] :=
    (h.arrive hle).orderly.settle_ready
  induction n generalizing w with
  | zero => exact hlast h hle
  | succ n ih =>
    rw [World.elapse]
    cases hdue : w.nextDue with
    | none => exact hlast h hle
    | some t =>
      dsimp only
      split
      · next hlt =>
        refine ih (h.arrive (Nat.le_of_lt (h.lt_nextDue hdue))).settle ?_
        rw [settle_now]
        exact Nat.le_of_lt hlt
      · exact hlast h hle

/-- Nothing is ready after a step. -/
theorem Sound.step_ready (h : Sound w) (s : Step) : (w.step s).1.ready = [] := by
  have hperform (rs : List (Request × Nat)) : (w.perform rs).1.ready = [] := by
    obtain ⟨u, es, hu, hp⟩ := h.perform rs
    rw [hp]
    exact (hu.sound h).orderly.settle_ready
  cases s with
  | hire name id settings kind => exact (h.orderly.hire name id settings kind).settle_ready
  | start name token => exact (h.orderly.start h.checked name token).settle_ready
  | stop name => exact (h.orderly.stop name).settle_ready
  | dismiss name => exact (h.orderly.dismiss name).settle_ready
  | sleep millis => exact h.elapse_ready _ (Nat.le_add_right ..)
  | align millis => exact h.elapse_ready _ (le_align ..)
  | request r limit => exact hperform _
  | together rs => exact hperform rs

theorem reached_ready (clock : Clock) (steps : List Step) : (reached clock steps).ready = [] := by
  rcases List.eq_nil_or_concat steps with rfl | ⟨steps, s, rfl⟩
  · rfl
  · rw [reached, List.concat_eq_append, List.foldl_append]
    exact (sound_reached clock steps).step_ready s

/-- A request to cancel a token is done at once. -/
theorem Orderly.step_cancel (h : Orderly w) (token : String) (limit : Nat) :
    (w.step (.request (.cancel token) limit)).1 = (w.cancelToken token).settle :=
  settle_of_quiet (h.cancelToken token).settle_ready

/-- How loops are brought to their end in a session. -/
structure Closes (w : World) : Prop where
  /-- Whatever else is ready, a member that is stopped runs no loop any more, and no time passes until
  the stop returns. -/
  stop : ∀ name m, w.members.get? name = some m →
    (w.step (.stop name)).2 = [.finished (.ok .done)] ∧
      (w.step (.stop name)).1.now = w.now ∧
      (w.step (.stop name)).1.members.get? name = some { m with loop := none } ∧
      (w.step (.stop name)).1.isRunning { m with loop := none } = false ∧
      ∀ id, m.loop = some id →
        ∃ l, (w.step (.stop name)).1.loops.get? id = some l ∧ l.phase = .ended
  /-- Whatever else is ready, and by whatever way, a loop that was cancelled has ended at once. -/
  cancelled : ∀ id l, w.loops.get? id = some l → l.cancelled = true →
    w.settle.now = w.now ∧ ∃ l', w.settle.loops.get? id = some l' ∧ l'.phase = .ended
  /-- When nothing is ready, to stop a member, to dismiss it and to put another one in its place have one
  effect on its loop. -/
  member : w.ready = [] → ∀ name m, w.members.get? name = some m →
    Ends (m.loop = some ·) w (w.step (.stop name)).1 ∧
      Ends (m.loop = some ·) w (w.step (.dismiss name)).1 ∧
      ∀ id settings kind, settings.check = .ok () →
        Ends (m.loop = some ·) w (w.step (.hire name id settings kind)).1
  /-- To cancel a token has that effect on its loops. -/
  token : w.ready = [] → ∀ name limit,
    Ends (fun id => ∃ l, w.loops.get? id = some l ∧ l.token = name) w
      (w.step (.request (.cancel name) limit)).1
  /-- To stop a member that runs no loop changes nothing, but that its last loop is forgotten. -/
  idle : w.ready = [] → ∀ name m, w.members.get? name = some m → w.isRunning m = false →
    (w.step (.stop name)).1 = { w with members := w.members.insert name { m with loop := none } }

/-- A member that runs no loop has nothing to let go of. -/
theorem Orderly.stopLoop_idle (h : Orderly w) (hm : w.members.get? name = some m)
    (hr : w.isRunning m = false) : w.stopLoop m = w := by
  rw [World.stopLoop]
  cases hloop : m.loop with
  | none => rfl
  | some id =>
    obtain ⟨l, hl, -⟩ := h.engaged name m id hm hloop
    have hp : l.phase = .ended := loop_ended (by simp [hr]) hloop hl
    simp only [cancelLoop, hl, (h.placed id l hl).ended hp, if_true]

theorem Sound.closes (h : Sound w) : Closes w where
  stop name m hm := by
    obtain ⟨hnow, hmember, hended⟩ := h.stop_settle hm
    have hreply : (w.stop name).2 = .finished (.ok .done) := by
      rw [World.stop, hm]
      rfl
    exact ⟨congrArg ([·]) hreply, hnow, hmember, rfl, hended⟩
  cancelled id l hl hc := ⟨settle_now w, h.settle_ended hl hc⟩
  member hq name m hm := by
    have hends (members : Table String Member) := h.orderly.stopLoop_ends hq m members
    refine ⟨?_, ?_, fun id settings kind hs => ?_⟩
    · have hstop : (w.step (.stop name)).1 = (w.stop name).1.settle := rfl
      rw [hstop, World.stop, hm]
      exact hends _
    · have hdismiss : (w.step (.dismiss name)).1 = (w.dismiss name).1.settle := rfl
      rw [hdismiss, World.dismiss, hm]
      exact hends _
    · have hhire : (w.step (.hire name id settings kind)).1 = (w.hire name id settings kind).1.settle := rfl
      have hworker : Worker.create id settings kind = .ok ⟨id, settings, kind⟩ := by
        rw [Worker.create, hs]
        rfl
      simp only [hhire, World.hire, hworker, hm]
      exact hends _
  token hq name limit := by
    rw [h.orderly.step_cancel]
    exact h.orderly.cancelToken_ends hq name
  idle hq name m hm hr := by
    have hstop : (w.step (.stop name)).1 = (w.stop name).1.settle := rfl
    rw [hstop, World.stop, hm]
    dsimp only
    rw [h.orderly.stopLoop_idle hm hr]
    exact settle_of_quiet hq

end StreamWorker.World
