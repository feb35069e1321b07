import StreamWorker.Proofs.History.Settle

/-! Which members run a heartbeat loop. A member that has started one runs it until it is stopped, it
leaves or the token of that start is cancelled; another start in between has no effect. Once everything
that is ready has run, the loops that have not ended are those of the members that run one, one for each,
so no loop is ever left behind or doubled, and nobody's heartbeat is written by a loop until the worker
is started again. -/

namespace StreamWorker.History

variable {h : History} {e : Event} {es : List Event} {name token x : String} {m : Member} {id : Nat}
variable {l : HeartbeatLoop} {clock : Clock}

/-! ### The last start of a member -/

/-- The token of the last start of a member that began a loop, unless the member was stopped, was made
anew or has left since. -/
def engagement (name : String) (t : Option String) (h : History) : Event → Option String
  | .hire n _ settings _ => if n = name ∧ settings.check.isOk then none else t
  | .start n token => if n = name ∧ h.world.spawns n then some token else t
  | .stop n | .dismiss n => if n = name then none else t
  | _ => t

/-- The token under which a member was started last, after events of a new session. -/
def startedUnder (clock : Clock) (es : List Event) (name : String) : Option String :=
  ((start clock).scenes es).foldl (fun t p => engagement name t p.1 p.2) none

theorem startedUnder_concat (clock : Clock) (es : List Event) (e : Event) (name : String) :
    startedUnder clock (es ++ [e]) name =
      engagement name (startedUnder clock es name) ((start clock).run es) e := by
  rw [startedUnder, scenes_append, List.foldl_append]
  rfl

/-! ### What an event does to the members -/

/-- A member was there before, or it has just been made, started or stopped. -/
theorem member_next (hm : (h.next e).world.members.get? name = some m) :
    (h.world.members.get? name = some m ∧ ∀ t, engagement name t h e = t) ∨
    (∃ id settings kind, e = .hire name id settings kind ∧ settings.check.isOk = true ∧
      m = ⟨⟨id, settings, kind⟩, none⟩) ∨
    (∃ m₀, h.world.members.get? name = some m₀ ∧ e = .stop name ∧ m = { m₀ with loop := none }) ∨
    (∃ m₀ token expiry, h.world.members.get? name = some m₀ ∧ e = .start name token ∧
      h.world.spawns name = true ∧ (h.next e).world = h.world.spawn name m₀ token expiry ∧
      m = { m₀ with loop := some h.world.loops.entries.length }) := by
  by_cases ha : e.isAside = true
  · obtain ⟨store, trace, ledger, hw⟩ := h.next_aside ha
    rw [hw] at hm
    refine .inl ⟨hm, fun t => ?_⟩
    cases e with
    | begin | proceed | abandon | operation => rfl
    | _ => cases ha
  · cases e with
    | hire n id settings kind =>
      rw [next, World.hire_members] at hm
      split at hm
      · next hn =>
        obtain ⟨rfl, hc⟩ := hn
        cases hm
        exact .inr (.inl ⟨id, settings, kind, rfl, hc, rfl⟩)
      · next hn => exact .inl ⟨hm, fun t => if_neg hn⟩
    | start n token =>
      rcases World.start_cases h.world n token with ⟨m₀, expiry, hsp, hm₀, -, -, hs⟩ | ⟨hsp, ns, hs⟩
      · have hw : (h.next (.start n token)).world = h.world.spawn n m₀ token expiry := hs
        rw [hw, World.spawn_members] at hm
        split at hm
        · next hn =>
          subst hn
          cases hm
          exact .inr (.inr (.inr ⟨m₀, token, expiry, hm₀, rfl, hsp, hw, rfl⟩))
        · next hn => exact .inl ⟨hm, fun t => if_neg fun hn' => hn hn'.1⟩
      · rw [next, hs, World.notes_members] at hm
        exact .inl ⟨hm, fun t => if_neg fun hn => by rw [hsp] at hn; cases hn.2⟩
    | stop n =>
      rw [next, World.stop_members] at hm
      split at hm
      · next hn =>
        subst hn
        obtain ⟨m₀, hm₀, rfl⟩ := Option.map_eq_some_iff.mp hm
        exact .inr (.inr (.inl ⟨m₀, hm₀, rfl, rfl⟩))
      · next hn => exact .inl ⟨hm, fun t => if_neg hn⟩
    | dismiss n =>
      rw [next, World.dismiss_members] at hm
      split at hm
      · cases hm
      · next hn => exact .inl ⟨hm, fun t => if_neg hn⟩
    | command r => exact .inl ⟨by rwa [next, World.command_members] at hm, fun _ => rfl⟩
    | wake t => exact .inl ⟨by rwa [next, World.wake_members] at hm, fun _ => rfl⟩
    | elapse nanos => exact .inl ⟨hm, fun _ => rfl⟩
    | _ => exact absurd rfl ha

/-- A member that was started has the loop of that start, and another one has none. -/
theorem loop_of_startedUnder (clock : Clock) (es : List Event) :
    ∀ name m, ((start clock).run es).world.members.get? name = some m →
      (m.loop = none ∧ startedUnder clock es name = none) ∨
      ∃ id l, m.loop = some id ∧ ((start clock).run es).world.loops.get? id = some l ∧
        startedUnder clock es name = some l.token := by
  refine run_concat_induction (P := fun es h => ∀ name m, h.world.members.get? name = some m →
    (m.loop = none ∧ startedUnder clock es name = none) ∨
    ∃ id l, m.loop = some id ∧ h.world.loops.get? id = some l ∧
      startedUnder clock es name = some l.token) (fun name m hm => by cases hm)
    (fun es e ih name m hm => ?_) es
  rw [startedUnder_concat]
  rcases member_next hm with ⟨hm, he⟩ | ⟨id, settings, kind, rfl, hc, rfl⟩ | ⟨m₀, -, rfl, rfl⟩ |
    ⟨m₀, token, expiry, -, rfl, hsp, hw, rfl⟩
  · rw [he]
    refine (ih name m hm).imp_right fun ⟨id, l, hloop, hl, ht⟩ => ?_
    obtain ⟨l', hl', hlead⟩ := loopsLead_next (orderly_run clock es).1 e id l hl
    exact ⟨id, l', hloop, hl', by rw [ht, hlead.token]⟩
  · exact .inl ⟨rfl, if_pos ⟨rfl, hc⟩⟩
  · exact .inl ⟨rfl, if_pos rfl⟩
  · refine .inr ⟨_, _, rfl, by rw [hw, World.spawn_loops, if_pos rfl], ?_⟩
    exact if_pos ⟨rfl, hsp⟩

/-! ### Ids of workers -/

/-- The ids of the workers that were made, in order. -/
def hired (es : List Event) : List String :=
  es.flatMap fun
    | .hire _ id settings _ => if settings.check.isOk then [id] else []
    | _ => []

theorem hired_concat (es : List Event) (e : Event) : hired (es ++ [e]) = hired es ++ hired [e] :=
  List.flatMap_append

/-- If no two workers have the same id, then no two members have. -/
theorem members_distinct (clock : Clock) (es : List Event) :
    (∀ name m, ((start clock).run es).world.members.get? name = some m → m.worker.id ∈ hired es) ∧
      ((hired es).Nodup → ∀ name name' m m',
        ((start clock).run es).world.members.get? name = some m →
        ((start clock).run es).world.members.get? name' = some m' →
        m.worker.id = m'.worker.id → name = name') := by
  refine run_concat_induction (P := fun es h =>
    (∀ name m, h.world.members.get? name = some m → m.worker.id ∈ hired es) ∧
    ((hired es).Nodup → ∀ name name' m m', h.world.members.get? name = some m →
      h.world.members.get? name' = some m' → m.worker.id = m'.worker.id → name = name'))
    ⟨fun _ _ hm => (by cases hm), fun _ _ _ _ _ hm => (by cases hm)⟩
    (fun es e ⟨hmem, hdistinct⟩ => ?_) es
  -- whoever is a member now was one before, or was just made
  have hcases (name : String) (m : Member)
      (hm : (((start clock).run es).next e).world.members.get? name = some m) :
      (∃ m₀, ((start clock).run es).world.members.get? name = some m₀ ∧ m₀.worker = m.worker) ∨
      (∃ id settings kind, e = .hire name id settings kind) ∧ hired [e] = [m.worker.id] := by
    rcases member_next hm with ⟨hm, -⟩ | ⟨id, settings, kind, rfl, hc, rfl⟩ | ⟨m₀, hm₀, -, rfl⟩ |
      ⟨m₀, token, expiry, hm₀, -, -, -, rfl⟩
    · exact .inl ⟨m, hm, rfl⟩
    · exact .inr ⟨⟨id, settings, kind, rfl⟩, by simp [hired, hc]⟩
    · exact .inl ⟨m₀, hm₀, rfl⟩
    · exact .inl ⟨m₀, hm₀, rfl⟩
  rw [hired_concat]
  constructor
  · intro name m hm
    rcases hcases name m hm with ⟨m₀, hm₀, hw⟩ | ⟨-, hid⟩
    · rw [← hw]
      exact List.mem_append_left _ (hmem name m₀ hm₀)
    · rw [hid]
      exact List.mem_append_right _ (List.mem_singleton_self _)
  · intro hnodup name name' m m' hm hm' hid
    obtain ⟨hold, -, hdisjoint⟩ := List.nodup_append.mp hnodup
    rcases hcases name m hm with ⟨m₀, hm₀, hw⟩ | ⟨⟨id, settings, kind, he⟩, hnew⟩ <;>
      rcases hcases name' m' hm' with ⟨m₁, hm₁, hw'⟩ | ⟨⟨id', settings', kind', he'⟩, hnew'⟩
    · exact hdistinct hold name name' m₀ m₁ hm₀ hm₁ (by rw [hw, hw', hid])
    · refine absurd (hdisjoint _ (hmem name m₀ hm₀) m'.worker.id ?_) (by simp [hw, hid])
      rw [hnew']
      exact List.mem_singleton_self _
    · refine absurd (hdisjoint _ (hmem name' m₁ hm₁) m.worker.id ?_) (by simp [hw', hid])
      rw [hnew]
      exact List.mem_singleton_self _
    · rw [he] at he'
      cases he'
      rfl

/-! ### Heartbeats of loops -/

theorem heartbeatKey_inj {x y : String} (h : heartbeatKey x = heartbeatKey y) : x = y := by
  rw [heartbeatKey, heartbeatKey, ← String.toList_inj, String.toList_append, String.toList_append,
    String.toList_append, String.toList_append] at h
  exact String.toList_inj.mp (List.append_cancel_left (List.append_cancel_right h))

/-- All loops of workers of the id have ended or were cancelled. -/
def Idle (h : History) (x : String) : Prop :=
  ∀ id l, h.world.loops.get? id = some l → l.worker.id = x → l.phase = .ended ∨ l.cancelled = true

/-- An event does not start a worker of the id under a token that is not cancelled. -/
def Unstarted (x : String) (h : History) (e : Event) : Prop :=
  ∀ name token m, e = .start name token → h.world.members.get? name = some m → m.worker.id = x →
    h.world.isCancelled token = true

theorem Idle.next (hi : h.Idle x) (he : Unstarted x h e) : (h.next e).Idle x := by
  intro id l hl hx
  rcases loop_next hl with ⟨l₀, hl₀, hlead⟩ | ⟨name, token, m, expiry, hstart, -, hm, rfl⟩
  · exact (hi id l₀ hl₀ (by rw [← hlead.worker, hx])).imp hlead.ended hlead.cancelled
  · exact .inr (he name token m hstart hm hx)

theorem Idle.run (hi : h.Idle x) (hu : ∀ p ∈ h.scenes es, Unstarted x p.1 p.2) :
    (h.run es).Idle x := by
  induction es generalizing h with
  | nil => exact hi
  | cons e es ih =>
    exact ih (hi.next (hu _ List.mem_cons_self)) fun p hp => hu p (List.mem_cons_of_mem _ hp)

/-- The record under the key of a worker whose loops are idle is not written by a task. -/
theorem Idle.wake (hi : h.Idle x) (t : Task) :
    let w := (h.next (.wake t)).world
    w.store.keys.records.get? (heartbeatKey x) = h.world.store.keys.records.get? (heartbeatKey x) ∧
      w.store.keys.writeCount (heartbeatKey x) = h.world.store.keys.writeCount (heartbeatKey x) := by
  have hw : (h.next (.wake t)).world.store =
      ((h.world.writer? t).map h.world.beaten).getD h.world.store := World.wake_store h.world t
  dsimp only
  rw [hw]
  cases hb : h.world.writer? t with
  | none => exact ⟨rfl, rfl⟩
  | some l =>
    cases t with
    | cancel token => cases hb
    | loop id =>
      obtain ⟨hl, hc, hp⟩ := World.beating?_eq_some hb
      have hx : l.worker.id ≠ x := fun hx => by
        rcases hi id l hl hx with he | hc'
        · exact hp he
        · rw [hc] at hc'
          cases hc'
      have hop : (Operation.set l.worker.heartbeatKey (toString h.world.clock) l.expiry).key? ≠
          some (heartbeatKey x) := fun hk => hx (heartbeatKey_inj (Option.some.inj hk))
      exact @Store.perform_key_of_ne h.world.store h.world.now h.world.clock (heartbeatKey x) _ hop

/-! ### Members and loops when nothing is ready -/

/-- A loop of a worker of the id has not ended. -/
def Unfinished (h : History) (id : Nat) (x : String) : Prop :=
  ∃ l, h.world.loops.get? id = some l ∧ l.phase ≠ .ended ∧ l.worker.id = x

section
variable (hq : ((start clock).run es).world.ready = [])
include hq

/-- Every loop that has not ended is the one of a member that runs it. -/
theorem owner_of_unfinished (hb : ((start clock).run es).Unfinished id x) :
    ∃ name m, ((start clock).run es).world.members.get? name = some m ∧ m.loop = some id ∧
      m.worker.id = x ∧ ((start clock).run es).world.isRunning m = true := by
  obtain ⟨l, hl, hp, rfl⟩ := hb
  obtain ⟨name, m, hm, hloop, hw, hr⟩ := (orderly_run clock es).1.owner hq hl hp
  exact ⟨name, m, hm, hloop, by rw [hw], hr⟩

/-- Where no two workers have the same id, that is the member with the worker's id. -/
theorem loop_of_unfinished (hn : (hired es).Nodup)
    (hm : ((start clock).run es).world.members.get? name = some m)
    (hb : ((start clock).run es).Unfinished id m.worker.id) :
    m.loop = some id ∧ ((start clock).run es).world.isRunning m = true := by
  obtain ⟨name', m', hm', hloop, hid, hr⟩ := owner_of_unfinished hq hb
  have he := (members_distinct clock es).2 hn name' name m' m hm' hm hid
  subst he
  rw [hm] at hm'
  cases hm'
  exact ⟨hloop, hr⟩

theorem isRunning_iff_startedUnder (hm : ((start clock).run es).world.members.get? name = some m) :
    ((start clock).run es).world.isRunning m = true ↔ ∃ token,
      startedUnder clock es name = some token ∧ ((start clock).run es).world.isCancelled token = false := by
  rcases loop_of_startedUnder clock es name m hm with ⟨hloop, hs⟩ | ⟨id, l, hloop, hl, hs⟩
  · simp [World.isRunning, hloop, hs]
  · rw [(orderly_run clock es).1.isRunning_iff hq hm hloop hl, hs]
    simp

end

/-- The loop of a member that runs one has not ended. -/
theorem unfinished_of_isRunning (hm : ((start clock).run es).world.members.get? name = some m)
    (hr : ((start clock).run es).world.isRunning m = true) :
    ∃ id, m.loop = some id ∧ ((start clock).run es).Unfinished id m.worker.id := by
  cases hloop : m.loop with
  | none => simp [World.isRunning, hloop] at hr
  | some id =>
    obtain ⟨l, hl, hw, -⟩ := (orderly_run clock es).1.engaged name m id hm hloop
    refine ⟨id, rfl, l, hl, fun hp => ?_, by rw [hw]⟩
    rw [World.isRunning, hloop, Option.bind_some, hl] at hr
    exact absurd hp (by simpa using hr)

/-- Once everything that is ready has run, a member runs a loop exactly if the token of the last start
that began one, since the member was made or stopped, is not cancelled. It then runs one loop, and every
loop that has not ended is run in this way by a member. As far as no two workers have the same id, a
member that does not run one has none. No loop writes the heartbeat of a worker that has none, until the
worker is started again under a token that is not cancelled. -/
theorem one_loop_per_member (clock : Clock) (es : List Event)
    (hquiet : ((start clock).run es).world.ready = []) :
    let h := (start clock).run es
    (∀ name m, h.world.members.get? name = some m →
      (h.world.isRunning m = true ↔
        ∃ token, startedUnder clock es name = some token ∧ h.world.isCancelled token = false) ∧
      (h.world.isRunning m = true → ∃ id, m.loop = some id ∧ h.Unfinished id m.worker.id ∧
        ((hired es).Nodup → ∀ id', h.Unfinished id' m.worker.id → id' = id)) ∧
      (h.world.isRunning m = false → (hired es).Nodup → ∀ id, ¬ h.Unfinished id m.worker.id)) ∧
    (∀ id x, h.Unfinished id x → ∃ name m, h.world.members.get? name = some m ∧ m.loop = some id ∧
      m.worker.id = x ∧ h.world.isRunning m = true ∧
      ∀ name' m', h.world.members.get? name' = some m' → m'.loop = some id → name' = name) ∧
    (∀ x, (∀ id, ¬ h.Unfinished id x) → ∀ es', (∀ p ∈ h.scenes es', Unstarted x p.1 p.2) → ∀ t,
      let w := (h.run es').world
      let w' := ((h.run es').next (.wake t)).world
      w'.store.keys.writeCount (heartbeatKey x) = w.store.keys.writeCount (heartbeatKey x) ∧
      w'.store.keys.records.get? (heartbeatKey x) = w.store.keys.records.get? (heartbeatKey x)) := by
  intro h
  refine ⟨fun name m hm => ⟨isRunning_iff_startedUnder hquiet hm, fun hr => ?_, fun hr hn id hb => ?_⟩,
    fun id x hb => ?_, fun x hx es' hu t => ?_⟩
  · obtain ⟨id, hloop, hb⟩ := unfinished_of_isRunning hm hr
    refine ⟨id, hloop, hb, fun hn id' hb' => ?_⟩
    have hloop' := (loop_of_unfinished hquiet hn hm hb').1
    rw [hloop] at hloop'
    exact (Option.some.inj hloop').symm
  · rw [(loop_of_unfinished hquiet hn hm hb).2] at hr
    cases hr
  · obtain ⟨name, m, hm, hloop, hw, hr⟩ := owner_of_unfinished hquiet hb
    exact ⟨name, m, hm, hloop, hw, hr, fun name' m' hm' hloop' =>
      (orderly_run clock es).1.apart name' name m' m id hm' hm hloop' hloop⟩
  · have hi : h.Idle x := fun id l hl hw => by
      by_cases hp : l.phase = .ended
      · exact .inl hp
      · exact absurd ⟨l, hl, hp, hw⟩ (hx id)
    exact ((hi.run hu).wake t).symm

/-- Of two members that were started, one is started again without effect, and the other one is dismissed
before its loop has noticed anything. -/
def restarted : List Event :=
  let settings := { Settings.standard with address := ⟨"redis://localhost"⟩ }
  [.hire "a" "x" settings .text, .hire "b" "y" settings .text, .start "a" "main", .wake (.loop 0),
    .start "a" "other", .start "b" "main", .wake (.loop 1), .command (.cancel "other"), .dismiss "b"]

/-- Once everything that is ready has run, the first of them still runs under its first token. -/
theorem one_loop_per_member_restarted :
    let es := restarted ++ settling ((start ⟨5, 0⟩).run restarted)
    ((start ⟨5, 0⟩).run es).world.ready = [] ∧ startedUnder ⟨5, 0⟩ es "a" = some "main" ∧
      ∃ m, ((start ⟨5, 0⟩).run es).world.members.get? "a" = some m ∧
        ((start ⟨5, 0⟩).run es).world.isRunning m = true := by
  intro es
  have hq : ((start ⟨5, 0⟩).run es).world.ready = [] := by decide +kernel
  have hs : startedUnder ⟨5, 0⟩ es "a" = some "main" := by decide +kernel
  have hc : ((start ⟨5, 0⟩).run es).world.isCancelled "main" = false := by decide +kernel
  have hm : (((start ⟨5, 0⟩).run es).world.members.get? "a").isSome = true := by decide +kernel
  obtain ⟨m, hm⟩ := Option.isSome_iff_exists.mp hm
  obtain ⟨hmembers, -⟩ := one_loop_per_member ⟨5, 0⟩ es hq
  exact ⟨hq, hs, m, hm, (hmembers "a" m hm).1.mpr ⟨"main", hs, hc⟩⟩

end StreamWorker.History
