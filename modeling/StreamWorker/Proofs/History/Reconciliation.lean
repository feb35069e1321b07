import StreamWorker.Proofs.History.Completion
import StreamWorker.Proofs.History.MemberLoops
import StreamWorker.Proofs.History.Stranded

/-! The counters of a session as an account of its history. Calls are counted when they give a result: a
read in the counter of its stream, a publication in that of its stream by what it gave, and once more if
it created its result, by the answer to its acknowledgment. So the counters can be reconciled with the
calls that were completed, whatever failed, was cancelled or was given up in between, and those of
heartbeats with the number of times that the keys of heartbeats were written. -/

namespace StreamWorker

namespace History

variable {h : History} {e : Event} {n : Nat} {c : CallRecord} {r : Except Failure Success}

/-! ### The account -/

/-- What has been counted is what calls that gave a result, and loops that set their keys, count for. -/
structure Accounted (h : History) : Prop where
  calls : ∀ t : Tally, (∀ ok, t ≠ .heartbeat ok) →
    h.world.ledger.sum t = h.total fun c l => (c.counts l).count t
  loops : h.world.ledger.sum (.heartbeat true) = h.log.countP fun o => o.asker.isLoop && o.hasSet
  /-- A call for a heartbeat has succeeded exactly if it has set its key. -/
  heartbeats : (h.numberOf fun c _ => c.call = .heartbeat && c.gave Except.isOk) =
    h.log.countP fun o => o.asker.isCall && o.hasSet

theorem counts_heartbeat (w : Worker) (s : Stage) (r : Except Failure Success) (ok : Bool) :
    (w.counts s r).count (.heartbeat ok) = 0 := by
  cases s <;> simp [Worker.counts]

theorem Accounted.next (ha : h.Accounted) (hS : h.Sound) (hs : h.Staged) (e : Event) :
    (h.next e).Accounted := by
  have hlog (p : Occurrence → Bool) :
      (h.next e).log.countP p = h.log.countP p + (h.added e).countP p := by
    rw [log_next, List.countP_append]
  rcases passes_or_completes hS e with hp | ⟨n, c, f, r, hx⟩
  · refine ⟨fun t ht => ?_, ?_, ?_⟩
    · rw [hp.sum t (ht false), if_neg (ht true), Nat.add_zero, hp.total _ (ofCompleted_counts t),
        ha.calls t ht]
    · rw [hp.sum _ (by simp), if_pos rfl, ha.loops, hlog]
    · have hnone : ((h.added e).countP fun o => o.asker.isCall && o.hasSet) = 0 := by
        rw [List.countP_eq_zero]
        intro o ho
        cases hcall : o.asker.isCall with
        | false => simp
        | true => simp [hp.unset o ho hcall]
      rw [hlog, hnone, Nat.add_zero, ← ha.heartbeats]
      exact hp.total _ (ofCompleted_gave Except.isOk fun c _ => c.call = .heartbeat)
  · have hst := hs n c f hx.found hx.waits
    refine ⟨fun t ht => ?_, ?_, ?_⟩
    · rw [hx.sum, hx.total (ofCompleted_counts t), ha.calls t ht, hx.counts_eq hS hst]
    · rw [hx.sum, counts_heartbeat, Nat.add_zero, ha.loops, hlog, hx.countP_loops, Nat.add_zero]
    · rw [hlog, hx.hasSet_eq hst, ← ha.heartbeats]
      exact hx.total (ofCompleted_gave Except.isOk fun c _ => c.call = .heartbeat)

theorem accounted (clock : Clock) (es : List Event) :
    ((start clock).run es).Accounted ∧ ((start clock).run es).Staged := by
  refine run_concat_induction (P := fun _ h => h.Accounted ∧ h.Staged)
    ⟨⟨fun t _ => rfl, rfl, rfl⟩, fun n c f hc => by simp [start] at hc⟩
    (fun es e ⟨ha, hs⟩ => ⟨ha.next (sound clock es) hs e, hs.next e⟩) es

/-! ### Writes of heartbeats -/

/-- A call was there before, or a member has just begun it. -/
theorem call_next (hc : (h.next e).calls[n]? = some c) :
    (∃ c₀, h.calls[n]? = some c₀ ∧ c₀.worker = c.worker) ∨
      ∃ name m, h.world.members.get? name = some m ∧ c.worker = m.worker := by
  cases hc₀ : h.calls[n]? with
  | some c₀ =>
    obtain ⟨course, hcourse, -⟩ := next_call hc₀ e
    rw [hc] at hcourse
    cases hcourse
    exact .inl ⟨c₀, rfl, rfl⟩
  | none =>
    have hset (h' : History) (m : Nat) (d : CallRecord) (hcalls : h'.calls = h.calls.set m d) :
        h'.calls[n]? = none := by
      rw [hcalls, List.getElem?_eq_none_iff, List.length_set]
      exact List.getElem?_eq_none_iff.mp hc₀
    cases e with
    | begin member token call =>
      rw [next] at hc
      split at hc
      · next m hm =>
        rw [begin, List.getElem?_append] at hc
        split at hc
        · rw [hc₀] at hc; cases hc
        · rw [List.getElem?_singleton] at hc
          split at hc
          · cases hc
            exact .inr ⟨member, m, hm, rfl⟩
          · cases hc
      · rw [hc₀] at hc; cases hc
    | proceed m =>
      rw [next] at hc
      split at hc
      · rw [proceed] at hc
        split at hc
        · rw [hset _ m _ rfl] at hc; cases hc
        · rw [hset _ m _ rfl] at hc; cases hc
        · rw [hc₀] at hc; cases hc
      · rw [hc₀] at hc; cases hc
    | abandon m =>
      rw [next] at hc
      split at hc
      · rw [abandon] at hc
        split at hc
        · rw [hset _ m _ rfl] at hc; cases hc
        · rw [hset _ m _ rfl] at hc; cases hc
        · rw [hc₀] at hc; cases hc
      · rw [hc₀] at hc; cases hc
    | _ => exact absurd hc (by rw [next, hc₀]; simp)

/-- Whoever calls, or shows that it is alive, was made a worker. -/
theorem workers_hired (clock : Clock) (es : List Event) :
    (∀ (n : Nat) (c : CallRecord), ((start clock).run es).calls[n]? = some c →
      c.worker.id ∈ hired es) ∧
    ∀ id l, ((start clock).run es).world.loops.get? id = some l → l.worker.id ∈ hired es := by
  refine run_concat_induction (P := fun es h =>
    (∀ (n : Nat) (c : CallRecord), h.calls[n]? = some c → c.worker.id ∈ hired es) ∧
    ∀ id l, h.world.loops.get? id = some l → l.worker.id ∈ hired es)
    ⟨fun n c hc => by simp [start] at hc, fun id l hl => by cases hl⟩ (fun es e ⟨hcalls, hloops⟩ => ?_) es
  have hmember {name : String} {m : Member}
      (hm : ((start clock).run es).world.members.get? name = some m) : m.worker.id ∈ hired es :=
    (members_distinct clock es).1 name m hm
  rw [hired_concat]
  refine ⟨fun n c hc => List.mem_append_left _ ?_, fun id l hl => List.mem_append_left _ ?_⟩
  · rcases call_next hc with ⟨c₀, hc₀, hw⟩ | ⟨name, m, hm, hw⟩
    · rw [← hw]
      exact hcalls n c₀ hc₀
    · rw [hw]
      exact hmember hm
  · rcases loop_next hl with ⟨l₀, hl₀, hlead⟩ | ⟨name, token, m, expiry, -, -, hm, rfl⟩
    · rw [hlead.worker]
      exact hloops id l₀ hl₀
    · exact hmember hm

section
variable {clock : Clock} {es : List Event} {o : Occurrence} {x : String}

/-- Whatever a loop or a call sets is the heartbeat of a worker. -/
theorem writes_of_beat (ho : o ∈ ((start clock).run es).log) (ha : o.asker ≠ .outsider)
    (hs : o.hasSet = true) : ∃ x ∈ hired es, o.Writes (heartbeatKey x) := by
  obtain ⟨hcalls, hloops⟩ := workers_hired clock es
  cases hasker : o.asker with
  | outsider => exact absurd hasker ha
  | loop id =>
    obtain ⟨l, hl, hop⟩ := loops_beat clock es o ho id hasker
    exact ⟨l.worker.id, hloops id l hl, (Occurrence.writes_iff_of_set hop).mpr ⟨rfl, hs⟩⟩
  | call n =>
    have hS := sound clock es
    have hc := List.getElem?_eq_getElem (hS.callers o ho n hasker)
    obtain ⟨key, value, ttl, hop⟩ := Occurrence.exists_set hs
    have hw : o.Writes key := (Occurrence.writes_iff_of_set hop).mpr ⟨rfl, hs⟩
    obtain ⟨r, hr⟩ := Option.isSome_iff_exists.mp hw
    rcases hS.wrote hc (mem_trail.mpr ⟨ho, hasker⟩) hr with rfl | ⟨-, hcreated, -⟩
    · exact ⟨_, hcalls n _ hc, hw⟩
    · cases hop.symm.trans hcreated.1

/-- Nobody but workers who show that they are alive writes heartbeats. -/
def Unforged (h : History) : Prop :=
  ∀ o ∈ h.log, ∀ x, o.Writes (heartbeatKey x) → (h.beater? o).isSome = true

theorem beat_of_writes (hu : ((start clock).run es).Unforged) (ho : o ∈ ((start clock).run es).log)
    (hw : o.Writes (heartbeatKey x)) : o.asker ≠ .outsider ∧ o.hasSet = true ∧ x ∈ hired es := by
  obtain ⟨hcalls, hloops⟩ := workers_hired clock es
  have hset {w : Worker} {value : String} {ttl : Duration} (hop : o.op = .set w.heartbeatKey value ttl)
      (hid : w.id ∈ hired es) : o.hasSet = true ∧ x ∈ hired es := by
    obtain ⟨hkey, hs⟩ := (Occurrence.writes_iff_of_set hop).mp hw
    exact ⟨hs, heartbeatKey_inj hkey ▸ hid⟩
  obtain ⟨w, hb⟩ := Option.isSome_iff_exists.mp (hu o ho x hw)
  unfold beater? at hb
  cases hasker : o.asker with
  | outsider => rw [hasker] at hb; cases hb
  | loop id =>
    obtain ⟨l, hl, hop⟩ := loops_beat clock es o ho id hasker
    exact ⟨by simp, hset hop (hloops id l hl)⟩
  | call n =>
    rw [hasker] at hb
    obtain ⟨c, hc, hb⟩ := Option.bind_eq_some_iff.mp hb
    split at hb
    · next hcall =>
      refine ⟨by simp, ?_⟩
      have hF := ((sound clock es).calls n c hc).follows
      rw [CallRecord.Follows, hcall] at hF
      have htrail : o ∈ ((start clock).run es).trail n := mem_trail.mpr ⟨ho, hasker⟩
      obtain ⟨r, hr⟩ := Option.isSome_iff_exists.mp hw
      rcases hF with ⟨stage, hs, ha⟩ | ⟨hnil, -⟩
      · have hop := ha.op_eq o htrail
        cases stage with
        | beating value expiry => exact hset hop (hcalls n c hc)
        | reading =>
          have hkey := Occurrence.key_of_wrote hr
          rw [hop] at hkey
          cases hkey
        | claiming | acknowledging => cases hs
      · rw [hnil] at htrail; cases htrail
    · cases hb

theorem sum_countP {α ι : Type} (ids : List ι) (l : List α) {R : ι → α → Bool} {p : α → Bool}
    (h : ∀ a ∈ l, ids.countP (R · a) = (p a).toNat) :
    (ids.map fun x => l.countP (R x)).sum = l.countP p := by
  induction l with
  | nil => simp
  | cons a l ih =>
    have hone : (ids.map fun x => if R x a then 1 else 0).sum = ids.countP (R · a) := by
      clear ih h
      induction ids with
      | nil => rfl
      | cons x ids ih => rw [List.map_cons, List.sum_cons, ih, List.countP_cons, Nat.add_comm]
    simp only [List.countP_cons]
    rw [List.sum_map_add, hone, ih fun b hb => h b (List.mem_cons_of_mem _ hb),
      h a List.mem_cons_self]
    cases p a <;> rfl

/-- An operation that shows that a worker is alive writes one of the keys of heartbeats. -/
theorem countP_writes (hu : ((start clock).run es).Unforged) (ho : o ∈ ((start clock).run es).log) :
    (hired es).dedup.countP (fun x => o.Writes (heartbeatKey x)) =
      (o.asker ≠ .outsider && o.hasSet : Bool).toNat := by
  by_cases hw : ∃ x, o.Writes (heartbeatKey x)
  · obtain ⟨x, hw⟩ := hw
    obtain ⟨ha, hs, hx⟩ := beat_of_writes hu ho hw
    have hone : ∀ y, o.Writes (heartbeatKey y) ↔ y = x := fun y => by
      refine ⟨fun hy => ?_, fun hy => hy ▸ hw⟩
      obtain ⟨r, hr⟩ := Option.isSome_iff_exists.mp hw
      obtain ⟨r', hr'⟩ := Option.isSome_iff_exists.mp hy
      have hkeys := (Occurrence.key_of_wrote hr').symm.trans (Occurrence.key_of_wrote hr)
      exact heartbeatKey_inj (Option.some.inj hkeys)
    have hcount : (hired es).dedup.countP (fun x => o.Writes (heartbeatKey x)) =
        (hired es).dedup.count x := by
      rw [List.count_eq_countP]
      exact List.countP_congr fun y _ => by simp [hone]
    rw [hcount, List.count_eq_one_of_mem (List.nodup_dedup _) (List.mem_dedup.mpr hx)]
    simp [ha, hs]
  · have hquiet : ¬ (o.asker ≠ .outsider ∧ o.hasSet = true) := fun ⟨ha, hs⟩ => by
      obtain ⟨x, -, hx⟩ := writes_of_beat ho ha hs
      exact hw ⟨x, hx⟩
    have hnone : (hired es).dedup.countP (fun x => o.Writes (heartbeatKey x)) = 0 :=
      List.countP_eq_zero.mpr fun x _ => by simpa using fun hx => hw ⟨x, hx⟩
    have hfalse : (o.asker ≠ .outsider && o.hasSet : Bool) = false := by simpa using hquiet
    rw [hnone, hfalse]
    rfl

theorem countP_askers (l : List Occurrence) :
    l.countP (fun o => o.asker ≠ .outsider && o.hasSet) =
      l.countP (fun o => o.asker.isLoop && o.hasSet) + l.countP fun o => o.asker.isCall && o.hasSet := by
  induction l with
  | nil => rfl
  | cons o l ih =>
    rw [List.countP_cons, List.countP_cons, List.countP_cons, ih]
    cases ha : o.asker <;> simp [Asker.isLoop, Asker.isCall] <;> omega

/-- The keys of heartbeats have been written as often as loops and calls have set them. -/
theorem sum_writeCount (hu : ((start clock).run es).Unforged) :
    ((hired es).dedup.map fun x =>
      ((start clock).run es).world.store.keys.writeCount (heartbeatKey x)).sum =
    ((start clock).run es).log.countP (fun o => o.asker.isLoop && o.hasSet) +
      ((start clock).run es).log.countP fun o => o.asker.isCall && o.hasSet := by
  have hC := chronicle clock es
  have hwrites (x : String) : ((start clock).run es).world.store.keys.writeCount (heartbeatKey x) =
      ((start clock).run es).log.countP fun o => o.Writes (heartbeatKey x) := by
    rw [(hC.last_write _).2, writesOfKey, List.length_filterMap_eq_countP]
    exact List.countP_congr fun o _ => decide_eq_true_iff.symm
  simp only [hwrites]
  rw [sum_countP _ _ fun o ho => countP_writes hu ho, countP_askers]

end

/-! ### The counters -/

variable {clock : Clock} {es : List Event}

section
variable (c : CallRecord) (l : List Occurrence) (s : String)

theorem count_read (o : ReadOutcome) : (c.counts l).count (.read s o) =
    (c.readsFrom s && c.gave (ReadOutcome.of · = o)).toNat := by
  rcases c.gave_cases with ⟨r, hr, -⟩ | ⟨hc, hg⟩
  · cases hcall : c.call with
    | consume =>
      by_cases hs : c.worker.settings.stream = s <;> by_cases ho : ReadOutcome.of r = o <;>
        simp [CallRecord.counts, CallRecord.readsFrom, CallRecord.gave, hr, hcall, hs, ho]
    | publish message result =>
      rw [CallRecord.counts_of_publish hcall hr]
      cases c.created l <;> simp [CallRecord.readsFrom, hcall]
    | heartbeat => simp [CallRecord.counts, CallRecord.readsFrom, hr, hcall]
  · simp [hc, hg]

theorem count_result (o : PublishOutcome) : (c.counts l).count (.result s o) =
    (c.publishesOn s && c.gave (PublishOutcome.of · = o)).toNat := by
  rcases c.gave_cases with ⟨r, hr, -⟩ | ⟨hc, hg⟩
  · cases hcall : c.call with
    | publish message result =>
      rw [CallRecord.counts_of_publish hcall hr]
      by_cases hs : c.worker.settings.stream = s <;> by_cases ho : PublishOutcome.of r = o <;>
        cases c.created l <;>
        simp [CallRecord.publishesOn, CallRecord.gave, Call.subject?, hr, hcall, hs, ho]
    | _ => simp [CallRecord.counts, CallRecord.publishesOn, Call.subject?, hr, hcall]
  · simp [hc, hg]

theorem count_acknowledgment (ok : Bool) : (c.counts l).count (.acknowledgment s ok) =
    (c.publishesOn s && c.created l && c.gave (Except.isOk · = ok)).toNat := by
  rcases c.gave_cases with ⟨r, hr, -⟩ | ⟨hc, hg⟩
  · cases hcall : c.call with
    | publish message result =>
      rw [CallRecord.counts_of_publish hcall hr]
      by_cases hs : c.worker.settings.stream = s <;> by_cases ho : r.isOk = ok <;>
        cases c.created l <;>
        simp [CallRecord.publishesOn, CallRecord.gave, Call.subject?, hr, hcall, hs, ho]
    | _ => simp [CallRecord.counts, CallRecord.publishesOn, Call.subject?, hr, hcall]
  · simp [hc, hg]

end

section
variable {h : History} (ha : h.Accounted) (s : String)
include ha

theorem Accounted.read (o : ReadOutcome) : h.world.ledger.sum (.read s o) =
    h.numberOf fun c _ => c.readsFrom s && c.gave (ReadOutcome.of · = o) := by
  rw [ha.calls _ (by simp)]
  exact total_eq fun n c _ => count_read c (h.trail n) s o

theorem Accounted.result (o : PublishOutcome) : h.world.ledger.sum (.result s o) =
    h.numberOf fun c _ => c.publishesOn s && c.gave (PublishOutcome.of · = o) := by
  rw [ha.calls _ (by simp)]
  exact total_eq fun n c _ => count_result c (h.trail n) s o

theorem Accounted.acknowledgment (ok : Bool) : h.world.ledger.sum (.acknowledgment s ok) =
    h.numberOf fun c l => c.publishesOn s && c.created l && c.gave (Except.isOk · = ok) := by
  rw [ha.calls _ (by simp)]
  exact total_eq fun n c _ => count_acknowledgment c (h.trail n) s ok

end

/-- Calls of a kind that have given a result, told apart by one of three things that `k` says of it. -/
theorem numberOf_three {α : Type} [DecidableEq α] {x y z : α} (hd : [x, y, z].Nodup)
    (hall : ∀ a, a = x ∨ a = y ∨ a = z) (q : CallRecord → Bool) (k : Except Failure Success → α) :
    (h.numberOf fun c _ => q c && c.gave (k · = x)) + (h.numberOf fun c _ => q c && c.gave (k · = y)) +
      (h.numberOf fun c _ => q c && c.gave (k · = z)) = h.numberOf fun c _ => q c && c.completed := by
  rw [numberOf, numberOf, numberOf, ← total_add, ← total_add]
  refine total_eq fun n c _ => ?_
  rcases c.gave_cases with ⟨r, -, hg⟩ | ⟨-, hg⟩
  · simp only [CallRecord.completed, hg]
    cases q c with
    | false => rfl
    | true =>
      have hne : (x ≠ y ∧ x ≠ z) ∧ y ≠ z := by simpa using hd
      obtain ⟨⟨hxy, hxz⟩, hyz⟩ := hne
      rcases hall (k r) with hk | hk | hk <;> simp [hk, hxy, hxz, hyz, Ne.symm]
  · simp [CallRecord.completed, hg]

theorem publishOutcome_eq_ok {r : Except Failure Success} : PublishOutcome.of r = .ok ↔ r.isOk = true := by
  cases r with
  | ok s => simp [PublishOutcome.of, Except.isOk, Except.toBool]
  | error f => cases f <;> simp [PublishOutcome.of, Except.isOk, Except.toBool]

theorem exists_publishes {s : String} (hc : h.calls[n]? = some c) (hp : c.publishesOn s = true) :
    ∃ message result, h.Publishes n c message result := by
  rw [CallRecord.publishesOn, Bool.and_eq_true] at hp
  cases hcall : c.call with
  | publish message result => exact ⟨message, result, hc, hcall⟩
  | consume | heartbeat => rw [hcall] at hp; cases hp.1

/-- Whoever succeeds in publishing has created the result. -/
theorem Sound.created_of_ok {s : String} (hS : h.Sound) (hc : h.calls[n]? = some c)
    (hp : c.publishesOn s = true) (hr : c.course = .ended (.finished r)) (hok : r.isOk = true) :
    c.created (h.trail n) = true := by
  obtain ⟨message, result, hpub⟩ := exists_publishes hc hp
  have hP := hS.publishing hpub
  cases r with
  | error f => cases hok
  | ok success =>
    rw [hr] at hP
    obtain ⟨o, p, k, htrail, hcreated, -⟩ := hP.of_ok
    rw [CallRecord.created_iff hpub.2, htrail]
    exact ⟨o, List.mem_cons_self, hcreated⟩

/-- Whoever has created a result is not told that there is one already. -/
theorem Sound.not_duplicate {s : String} (hS : h.Sound) (hc : h.calls[n]? = some c)
    (hp : c.publishesOn s = true) (hr : c.course = .ended (.finished r))
    (hcr : c.created (h.trail n) = true) : PublishOutcome.of r ≠ .duplicate := by
  obtain ⟨message, result, hpub⟩ := exists_publishes hc hp
  have hP := hS.publishing hpub
  intro hd
  unfold PublishOutcome.of at hd
  split at hd
  · cases hd
  · rw [hr] at hP
    obtain ⟨o, htrail, hrefused⟩ := hP.of_resultExists
    rw [CallRecord.created_iff hpub.2, htrail] at hcr
    obtain ⟨p, hmem, hcreated⟩ := hcr
    rw [List.mem_singleton.mp hmem] at hcreated
    cases hrefused.2.symm.trans hcreated.2
  · cases hd

section
variable {h : History} (ha : h.Accounted) (s : String)
include ha

theorem Accounted.reads : h.world.ledger.sum (.read s .message) + h.world.ledger.sum (.read s .empty) +
    h.world.ledger.sum (.read s .error) = h.numberOf fun c _ => c.readsFrom s && c.completed := by
  rw [ha.read, ha.read, ha.read]
  exact numberOf_three (by decide) (fun o => by cases o <;> simp) _ ReadOutcome.of

theorem Accounted.results : h.world.ledger.sum (.result s .ok) + h.world.ledger.sum (.result s .duplicate) +
    h.world.ledger.sum (.result s .error) = h.numberOf fun c _ => c.publishesOn s && c.completed := by
  rw [ha.result, ha.result, ha.result]
  exact numberOf_three (by decide) (fun o => by cases o <;> simp) _ PublishOutcome.of

theorem Accounted.acknowledgments : h.world.ledger.sum (.acknowledgment s true) +
    h.world.ledger.sum (.acknowledgment s false) =
      h.numberOf fun c l => c.publishesOn s && c.created l && c.completed := by
  rw [ha.acknowledgment, ha.acknowledgment, numberOf, numberOf, ← total_add]
  refine total_eq fun n c _ => ?_
  rcases c.gave_cases with ⟨r, -, hg⟩ | ⟨-, hg⟩
  · dsimp only
    cases c.publishesOn s <;> cases c.created (h.trail n) <;> cases hok : r.isOk <;>
      simp [CallRecord.completed, hg, hok]
  · simp [CallRecord.completed, hg]

variable (hS : h.Sound)
include hS

/-- An acknowledgment is counted as answered exactly if the publication is counted as done. -/
theorem Accounted.acknowledged : h.world.ledger.sum (.acknowledgment s true) =
    h.world.ledger.sum (.result s .ok) := by
  rw [ha.acknowledgment, ha.result]
  refine total_eq fun n c hc => congrArg Bool.toNat ?_
  rcases c.gave_cases with ⟨r, hr, hg⟩ | ⟨-, hg⟩
  · dsimp only
    rw [hg, hg, Bool.eq_iff_iff]
    simp only [Bool.and_eq_true, decide_eq_true_eq, publishOutcome_eq_ok]
    exact ⟨fun ⟨⟨hp, _⟩, hok⟩ => ⟨hp, hok⟩,
      fun ⟨hp, hok⟩ => ⟨⟨hp, hS.created_of_ok hc hp hr hok⟩, hok⟩⟩
  · simp [hg]

theorem Accounted.unacknowledged_le : h.world.ledger.sum (.acknowledgment s false) ≤
    h.world.ledger.sum (.result s .error) := by
  rw [ha.acknowledgment, ha.result]
  refine total_le fun n c hc => Bool.toNat_le_toNat ?_
  rcases c.gave_cases with ⟨r, hr, hg⟩ | ⟨-, hg⟩
  · dsimp only
    rw [hg, hg, Bool.le_iff_imp]
    simp only [Bool.and_eq_true, decide_eq_true_eq]
    rintro ⟨⟨hp, hcr⟩, hok⟩
    refine ⟨hp, ?_⟩
    have hne := hS.not_duplicate hc hp hr hcr
    cases ho : PublishOutcome.of r with
    | ok => rw [publishOutcome_eq_ok.mp ho] at hok; cases hok
    | duplicate => exact absurd ho hne
    | error => rfl
  · simp [hg]

end

theorem abandon_ledger (h : History) (n : Nat) (t : Tally) :
    (h.next (.abandon n)).world.ledger.sum t = h.world.ledger.sum t := by
  rw [next]
  split
  · rw [abandon]
    split
    · exact h.world.abandon_sum _ t
    · exact h.world.abandon_sum _ t
    · rfl
  · rfl

/-- After any events, for every stream: reads are counted as often as calls for one have given a result,
by what they gave, and so are publications. An acknowledgment is counted once for every publication that
gave a result and had created its own, as answered exactly where the publication succeeded, so that those
that are not are among the failed ones. Calls that were given up are counted nowhere, and what is counted
apart is shown apart. And unless somebody else writes heartbeats, the loops have counted as many successes
as there are writes of the workers' keys that are not due to a call for a heartbeat. -/
theorem counters_reconciled (clock : Clock) (es : List Event) :
    let h := (start clock).run es
    let count := h.world.ledger.sum
    (∀ s,
      (∀ o, count (.read s o) = h.numberOf fun c _ => c.readsFrom s && c.gave (ReadOutcome.of · = o)) ∧
      count (.read s .message) + count (.read s .empty) + count (.read s .error) =
        h.numberOf (fun c _ => c.readsFrom s && c.completed) ∧
      (∀ o, count (.result s o) =
        h.numberOf fun c _ => c.publishesOn s && c.gave (PublishOutcome.of · = o)) ∧
      count (.result s .ok) + count (.result s .duplicate) + count (.result s .error) =
        h.numberOf (fun c _ => c.publishesOn s && c.completed) ∧
      count (.acknowledgment s true) = count (.result s .ok) ∧
      count (.acknowledgment s true) + count (.acknowledgment s false) =
        h.numberOf (fun c l => c.publishesOn s && c.created l && c.completed) ∧
      count (.acknowledgment s false) ≤ count (.result s .error)) ∧
    (∀ n t, (h.next (.abandon n)).world.ledger.sum t = count t) ∧
    (∀ t u : Tally, t.counter = u.counter → t.labels = u.labels → t = u) ∧
    (h.Unforged →
      count (.heartbeat true) + h.numberOf (fun c _ => c.call = .heartbeat && c.gave Except.isOk) =
        ((hired es).dedup.map fun x => h.world.store.keys.writeCount (heartbeatKey x)).sum) := by
  intro h count
  have hS : h.Sound := sound clock es
  obtain ⟨ha, -⟩ : h.Accounted ∧ h.Staged := accounted clock es
  refine ⟨fun s => ⟨ha.read s, ha.reads s, ha.result s, ha.results s, ha.acknowledged s hS,
    ha.acknowledgments s, ha.unacknowledged_le s hS⟩, fun n t => abandon_ledger h n t,
    fun t u => Tally.eq_of_shown, fun hu => ?_⟩
  have hloops : count (.heartbeat true) = _ := ha.loops
  rw [hloops, ha.heartbeats]
  exact (sum_writeCount hu).symm

/-- A worker with a loop that finds an entry without payload and then none. It publishes twice for the
entry. Of another publication the acknowledgment stalls until it is cancelled, and a last read is given
up. -/
def shift : List Event :=
  [.hire "w" "a" { Settings.standard with address := ⟨"redis://localhost"⟩ } .text,
    .operation (.createGroup Settings.defaultStream Settings.defaultGroup),
    .operation (.append Settings.defaultStream []), .start "w" "main", .wake (.loop 0),
    .begin "w" "main" .heartbeat, .proceed 0, .begin "w" "main" .consume, .proceed 1,
    .begin "w" "main" .consume, .proceed 2,
    .begin "w" "main" (.publish "5-0" "done"), .proceed 3, .proceed 3,
    .begin "w" "main" (.publish "5-0" "again"), .proceed 4, .command (.stall .acknowledge),
    .begin "w" "main" (.publish "6-0" "unseen"), .proceed 5, .proceed 5,
    .begin "w" "main" .consume, .abandon 6, .command (.cancel "main"), .proceed 5]

/-- What is counted then tells how many publications have created a result, and how often the key of the
worker has been written. -/
theorem counters_reconciled_shift :
    let h := (start ⟨5, 0⟩).run shift
    let s := Settings.defaultStream
    h.Unforged ∧
      h.numberOf (fun c _ => c.readsFrom s && c.completed) = 2 ∧
      h.numberOf (fun c _ => c.publishesOn s && c.completed) = 3 ∧
      h.numberOf (fun c l => c.publishesOn s && c.created l && c.completed) = 2 ∧
      ((hired shift).dedup.map fun x => h.world.store.keys.writeCount (heartbeatKey x)).sum = 2 := by
  intro h s
  obtain ⟨hstreams, -, -, hbeats⟩ := counters_reconciled ⟨5, 0⟩ shift
  obtain ⟨-, hreads, -, hresults, -, hacks, -⟩ := hstreams s
  have hu : h.Unforged := fun o ho x hw => by
    have hcases : ∀ o ∈ h.log, (h.beater? o).isSome = true ∨ o.op.key? = none ∨
        o.op.key? = some (Stream.idText 5 0) ∨ o.op.key? = some (Stream.idText 6 0) := by decide +kernel
    obtain ⟨r, hr⟩ := Option.isSome_iff_exists.mp hw
    have hkey := Occurrence.key_of_wrote hr
    rcases hcases o ho with hb | hk | hk | hk
    · exact hb
    · rw [hk] at hkey; cases hkey
    · rw [hk] at hkey; exact absurd (Option.some.inj hkey) (idText_ne_heartbeatKey 5 0 x)
    · rw [hk] at hkey; exact absurd (Option.some.inj hkey) (idText_ne_heartbeatKey 6 0 x)
  refine ⟨hu, ?_, ?_, ?_, ?_⟩
  · rw [← hreads]
    decide +kernel
  · rw [← hresults]
    decide +kernel
  · rw [← hacks]
    decide +kernel
  · rw [← hbeats hu]
    decide +kernel

end History

end StreamWorker
