import StreamWorker.Proofs.History.Acknowledgment
import StreamWorker.Proofs.History.Results

/-! Messages that are stranded. A publication that has created its result and then fails to acknowledge
its message leaves the message pending, and nobody can do better for as long as the result is kept:
every other publication of it is refused before it gets to the acknowledgment, its group is never given
it again, and no heartbeat touches its key. Only somebody who uses the store without a worker can change
that, by setting the key or by acknowledging the message himself. -/

namespace StreamWorker

/-- An event in which nobody sets a key, or acknowledges an entry of that id, without a worker. -/
def Event.Spares (e : Event) (id : String) : Prop :=
  ∀ op, e = .operation op →
    (∀ value ttl, op ≠ .set id value ttl) ∧ ∀ stream group, op ≠ .acknowledge stream group id

theorem Occurrence.acknowledges_of_settles {o : Occurrence} {stream group id : String}
    (h : o.settles stream group = some id) : o.acknowledges = some id := by
  rw [settles] at h
  rw [acknowledges]
  cases hop : o.op with
  | acknowledge x y z =>
    rw [hop, Store.settles] at h
    split at h
    · next ha => rw [Store.acknowledges, if_pos ha.2.2, h]
    · cases h
  | _ => rw [hop] at h; cases h

namespace History

variable {h : History} {n : Nat} {c : CallRecord} {e : Event} {o : Occurrence} {es : List Event}
variable {stream group id : String}

/-! ### Calls stay, and those that have ended ask for nothing more -/

theorem next_call (hc : h.calls[n]? = some c) (e : Event) :
    ∃ course, (h.next e).calls[n]? = some { c with course } ∧
      ∀ x, c.course = .ended x → course = .ended x := by
  have hmark (m : Nat) (d : CallRecord) (course : Course) (w : World) (l : List Occurrence)
      (hd : h.calls[m]? = some d) (hne : ∀ x, d.course ≠ .ended x) :
      ∃ course', (mark { h with world := w, log := l } m d course).calls[n]? =
          some { c with course := course' } ∧ ∀ x, c.course = .ended x → course' = .ended x := by
    rw [mark, List.getElem?_set]
    split
    · next hmn =>
      subst hmn
      have hlt := (List.getElem?_eq_some_iff.mp hd).1
      rw [hd] at hc
      cases hc
      exact ⟨course, by rw [if_pos hlt], fun x hx => absurd hx (hne x)⟩
    · exact ⟨c.course, hc, fun x hx => hx⟩
  have hsame (h' : History) (hcalls : h'.calls = h.calls) : ∃ course,
      h'.calls[n]? = some { c with course } ∧ ∀ x, c.course = .ended x → course = .ended x :=
    ⟨c.course, by rw [hcalls, hc], fun x hx => hx⟩
  cases e with
  | begin member token call =>
    rw [next]
    split
    · refine ⟨c.course, ?_, fun x hx => hx⟩
      rw [begin, List.getElem?_append_left (List.getElem?_eq_some_iff.mp hc).1, hc]
    · exact hsame _ rfl
  | proceed m =>
    rw [next]
    split
    · next d hd =>
      rw [proceed]
      cases hf : d.course with
      | running f => exact hmark m d _ _ _ hd (by simp [hf])
      | held f => exact hmark m d _ _ _ hd (by simp [hf])
      | ended x => exact hsame _ rfl
    · exact hsame _ rfl
  | abandon m =>
    rw [next]
    split
    · next d hd =>
      rw [abandon]
      cases hf : d.course with
      | running f => exact hmark m d _ _ _ hd (by simp [hf])
      | held f => exact hmark m d _ _ _ hd (by simp [hf])
      | ended x => exact hsame _ rfl
    · exact hsame _ rfl
  | _ => exact hsame _ rfl

theorem run_call (hc : h.calls[n]? = some c) (es : List Event) :
    ∃ course, (h.run es).calls[n]? = some { c with course } ∧
      ∀ x, c.course = .ended x → course = .ended x := by
  refine run_induction (P := fun h' => ∃ course, h'.calls[n]? = some { c with course } ∧
    ∀ x, c.course = .ended x → course = .ended x) ⟨c.course, hc, fun x hx => hx⟩ ?_ es
  rintro h' e ⟨course, hc', hended⟩
  obtain ⟨course', hnext, hended'⟩ := next_call hc' e
  exact ⟨course', hnext, fun x hx => hended' x (hended x hx)⟩

/-- An operation that was added took place in one of the events. -/
theorem mem_since (ho : o ∈ h.since (h.run es)) :
    ∃ es₁ e es₂, es = es₁ ++ e :: es₂ ∧ o ∈ (h.run es₁).added e := by
  revert ho
  refine run_concat_induction (P := fun es h' => o ∈ h.since h' →
    ∃ es₁ e es₂, es = es₁ ++ e :: es₂ ∧ o ∈ (h.run es₁).added e) ?_ ?_ es
  · intro ho
    simp [since] at ho
  · intro es e ih ho
    have hlog := (h.run_since es).1
    rw [since, log_next, hlog, List.append_assoc, List.drop_left] at ho
    rcases List.mem_append.mp ho with ho | ho
    · obtain ⟨es₁, e', es₂, rfl, ho'⟩ := ih ho
      exact ⟨es₁, e', es₂ ++ [e], by simp, ho'⟩
    · exact ⟨es, e, [], rfl, ho⟩

theorem not_mem_since_of_ended {x : Ending Success} (hc : h.calls[n]? = some c)
    (hx : c.course = .ended x) (ho : o ∈ h.since (h.run es)) : o.asker ≠ .call n := by
  intro hn
  obtain ⟨es₁, e, es₂, -, ho⟩ := mem_since ho
  obtain ⟨-, d, f, hd, hf, -⟩ := mem_added_call ho hn
  obtain ⟨course, hcall, hended⟩ := run_call hc es₁
  rw [hcall] at hd
  cases hd
  cases (hended x hx).symm.trans hf

theorem mem_added_outsider (ho : o ∈ h.added e) (hn : o.asker = .outsider) :
    e = .operation o.op := by
  cases e with
  | proceed m =>
    unfold added at ho
    dsimp only at ho
    split at ho
    · next f _ =>
      rcases asked_eq_nil_or h m f with ha | ⟨op, ha⟩
      · rw [ha] at ho; cases ho
      · rw [ha, List.mem_singleton] at ho
        rw [ho] at hn
        cases hn
    · cases ho
  | operation op =>
    rw [added, List.mem_singleton] at ho
    rw [ho]
    rfl
  | wake t =>
    rcases beats_eq_nil_or h t with hb | ⟨i, key, value, ttl, hb⟩
    · rw [added, hb] at ho; cases ho
    · rw [added, hb, List.mem_singleton] at ho
      rw [ho] at hn
      cases hn
  | _ => cases ho

/-- What somebody without a worker has done meanwhile spares the entry. -/
theorem spared (hes : ∀ e ∈ es, e.Spares id) (ho : o ∈ h.since (h.run es))
    (hn : o.asker = .outsider) :
    ¬ o.Sets id ∧ ∀ stream group, o.op ≠ .acknowledge stream group id := by
  obtain ⟨es₁, e, es₂, rfl, ho'⟩ := mem_since ho
  obtain ⟨hset, hack⟩ := hes e (by simp) o.op (mem_added_outsider ho' hn)
  exact ⟨fun ⟨value, ttl, hop⟩ => hset value ttl hop, hack⟩

/-! ### Sets -/

/-- Of all calls only heartbeats set a key, and it is their worker's. -/
theorem Sound.set_of_call {key : String} (hS : h.Sound) (ho : o ∈ h.log) (hn : o.asker = .call n)
    (hset : o.Sets key) : ∃ x, key = heartbeatKey x := by
  obtain ⟨c, hc⟩ : ∃ c, h.calls[n]? = some c := ⟨_, List.getElem?_eq_getElem (hS.callers o ho n hn)⟩
  have htrail : o ∈ h.trail n := mem_trail.mpr ⟨ho, hn⟩
  obtain ⟨value, ttl, hop⟩ := hset
  cases hcall : c.call with
  | publish message result =>
    have hkey : o.op.key? = some key := by rw [hop]; rfl
    have hclaim := (hS.publishing ⟨hc, hcall⟩).claim_of_key htrail hkey
    rw [hop] at hclaim
    cases hclaim
  | consume | heartbeat =>
    have hF := (hS.calls n c hc).follows
    rw [CallRecord.Follows, hcall] at hF
    rcases hF with ⟨stage, hs, ha⟩ | ⟨hnil, -⟩
    · have hop' := ha.op_eq o htrail
      rw [hop] at hop'
      cases stage with
      | beating v expiry => exact ⟨c.worker.id, (Operation.set.inj hop').1⟩
      | reading => cases hop'
      | claiming => cases hs
      | acknowledging => cases hs
    · rw [hnil] at htrail; cases htrail

/-- Only somebody without a worker sets a key that is nobody's heartbeat. -/
theorem outsider_of_sets {key : String} (hS : h.Sound)
    (hB : ∀ o ∈ h.log, ∀ i, o.asker = .loop i → h.BeatenBy i o)
    (hk : ∀ x, key ≠ heartbeatKey x) (ho : o ∈ h.log) (hset : o.Sets key) : o.asker = .outsider := by
  cases hasker : o.asker with
  | outsider => rfl
  | loop i =>
    obtain ⟨l, -, hop⟩ := hB o ho i hasker
    obtain ⟨value, ttl, hop'⟩ := hset
    exact absurd (Operation.set.inj (hop'.symm.trans hop)).1 (hk _)
  | call m =>
    obtain ⟨x, hx⟩ := hS.set_of_call ho hasker hset
    exact absurd hx (hk x)

/-! ### The window of a result -/

/-- From `h` on, up to `h'`, the entry of an id has stayed out of reach of its group: it is pending as it
was, nobody has acknowledged it, it was not given out again, and no publication of it that was begun
meanwhile has succeeded. -/
structure Stranded (h h' : History) (stream group id : String) : Prop where
  pending : id ∈ h'.world.store.pending stream group
  unacknowledged : ∃ ids, h'.world.store.acknowledged = h.world.store.acknowledged ++ ids ∧ id ∉ ids
  undelivered : ∀ o ∈ h.since h', ∀ e ∈ o.gives stream group, e.id ≠ id
  unpublished : ∀ n c text success, h.calls.length ≤ n → h'.Publishes n c id text →
    c.course ≠ .ended (.finished (.ok success))

/-- From `h` to `h'` the result of an id, which `o` has created, is kept: nobody without a worker touches
it or acknowledges its entry, and no publication of it was going on at `h`. -/
structure Kept (h h' : History) (id : String) (o : Occurrence) : Prop where
  sound : h'.Sound
  chronicle : Chronicle h'.log h'.world.store h'.world.now
  log : h'.log = h.log ++ h.since h'
  callers : ∀ p ∈ h.log, ∀ n, p.asker = .call n → n < h.calls.length
  created : ∃ text ttl l₁ l₂, h.log = l₁ ++ o :: l₂ ∧ o.Created id text ttl ∧
    (∀ p ∈ l₂ ++ h.since h', ¬ p.Sets id) ∧ h'.world.now < o.now + ttl.nanos
  spared : ∀ p ∈ h.since h', p.asker = .outsider →
    ∀ stream group, p.op ≠ .acknowledge stream group id
  /-- The calls before `h` that publish a result for the id have ended. -/
  ended : ∀ p ∈ h.since h', ∀ n c text, p.asker = .call n → h'.Publishes n c id text →
    h.calls.length ≤ n

namespace Kept

variable {h' : History}

/-- The result is not created again. -/
theorem not_created (hK : Kept h h' id o) {p : Occurrence} (hp : p ∈ h.since h') (text : String)
    (ttl : Duration) : ¬ p.Created id text ttl := by
  intro hcreated
  obtain ⟨text', ttl', l₁, l₂, hl, ho, hs, hnow⟩ := hK.created
  have hl' : h'.log = l₁ ++ o :: (l₂ ++ h.since h') := by rw [hK.log, hl]; simp
  have hmem : p ∈ h'.log := by rw [hK.log]; exact List.mem_append_right _ hp
  have hapart := hK.chronicle.created_apart hl' (List.mem_append_right _ hp) ho hcreated hs
  have hle := hK.chronicle.now_le hmem
  omega

/-- A call that was begun after `h` has not created it either. -/
theorem not_created_by (hK : Kept h h' id o) {p : Occurrence} (hp : p ∈ h'.log)
    (hasker : p.asker = .call n) (hn : h.calls.length ≤ n) (text : String) (ttl : Duration) :
    ¬ p.Created id text ttl := by
  rw [hK.log] at hp
  rcases List.mem_append.mp hp with hp | hp
  · have := hK.callers p hp n hasker
    omega
  · exact hK.not_created hp text ttl

/-- Nobody acknowledges the entry: a call would have to create the result first. -/
theorem not_acknowledged (hK : Kept h h' id o) {p : Occurrence} (hp : p ∈ h.since h') :
    p.acknowledges ≠ some id := by
  intro hack
  obtain ⟨stream, group, hop⟩ := p.op_of_acknowledges hack
  have hmem : p ∈ h'.log := by rw [hK.log]; exact List.mem_append_right _ hp
  cases hasker : p.asker with
  | outsider => exact hK.spared p hp hasker stream group hop
  | loop i =>
    obtain ⟨key, value, ttl, hset⟩ := hK.sound.loops p hmem i hasker
    rw [hop] at hset
    cases hset
  | call n =>
    obtain ⟨l₃, l₄, hl⟩ := List.append_of_mem hmem
    obtain ⟨c, text, q, l₅, l₆, rfl, hc, hcall, hq, hcreated, -⟩ :=
      hK.sound.created_before hl hasker hack
    have hbegun := hK.ended p hp n c text hasker ⟨hc, hcall⟩
    exact hK.not_created_by (by simp [hl]) hq hbegun text _ hcreated

theorem stranded (hK : Kept h h' id o) (hC : Chronicle h.log h.world.store h.world.now)
    (hp : id ∈ h.world.store.pending stream group) : Stranded h h' stream group id where
  pending := by
    obtain ⟨hgiven, hsettled⟩ := hC.pending_iff.mp hp
    refine hK.chronicle.pending_iff.mpr ⟨?_, ?_⟩
    · rw [hK.log, Log.given, List.flatMap_append, List.map_append]
      exact List.mem_append_left _ hgiven
    · rw [hK.log, Log.settled, List.filterMap_append, List.mem_append, not_or]
      refine ⟨hsettled, fun hm => ?_⟩
      obtain ⟨p, hpmem, hset⟩ := List.mem_filterMap.mp hm
      exact hK.not_acknowledged hpmem (Occurrence.acknowledges_of_settles hset)
  unacknowledged := by
    refine ⟨(h.since h').filterMap Occurrence.acknowledges, ?_, fun hm => ?_⟩
    · rw [hK.chronicle.acknowledged_eq, hC.acknowledged_eq, hK.log, List.filterMap_append]
    · obtain ⟨p, hpmem, hack⟩ := List.mem_filterMap.mp hm
      exact hK.not_acknowledged hpmem hack
  undelivered p hpmem e he heq := by
    obtain ⟨hgiven, -⟩ := hC.pending_iff.mp hp
    have hnodup := hK.chronicle.nodup_given stream group
    rw [hK.log, Log.given, List.flatMap_append, List.map_append, List.nodup_append] at hnodup
    have hagain : id ∈ ((h.since h').flatMap (·.gives stream group)).map (·.id) :=
      List.mem_map.mpr ⟨e, List.mem_flatMap.mpr ⟨p, hpmem, he⟩, heq⟩
    exact hnodup.2.2 id hgiven id hagain rfl
  unpublished n c text success hbegun hc hend := by
    have hpub := hK.sound.publishing hc
    rw [hend] at hpub
    obtain ⟨q, p, k, htrail, hcreated, -⟩ := hpub.of_ok
    have hq : q ∈ h'.trail n := by rw [htrail]; exact List.mem_cons_self
    obtain ⟨hqmem, hasker⟩ := mem_trail.mp hq
    exact hK.not_created_by hqmem hasker hbegun text _ hcreated

end Kept

/-- What is kept is kept by whatever happens, as long as nobody without a worker gets in between and the
time of the result is not up. -/
theorem kept {clock : Clock} {es es' : List Event} {l₁ l₂ : List Occurrence} {text : String}
    {ttl : Duration} (hl : ((start clock).run es).log = l₁ ++ o :: l₂) (ho : o.Created id text ttl)
    (hk : ∀ x, id ≠ heartbeatKey x) (hs : ∀ p ∈ l₂, p.asker = .outsider → ¬ p.Sets id)
    (hover : ∀ m d text', ((start clock).run es).Publishes m d id text' → ∃ x, d.course = .ended x)
    (hes : ∀ e ∈ es', e.Spares id)
    (hnow : (((start clock).run es).run es').world.now < o.now + ttl.nanos) :
    Kept ((start clock).run es) (((start clock).run es).run es') id o := by
  have hS : (((start clock).run es).run es').Sound := by
    rw [← run_append]
    exact sound clock _
  have hB := loops_beat clock (es ++ es')
  rw [run_append] at hB
  have hlog := (((start clock).run es).run_since es').1
  refine ⟨hS, ?_, hlog, (sound clock es).callers, ⟨text, ttl, l₁, l₂, hl, ho, fun p hp hset => ?_, hnow⟩,
    fun p hp hn => (spared hes hp hn).2, fun p hp n c text' hn hc => ?_⟩
  · rw [← run_append]
    exact chronicle clock _
  · have hmem : p ∈ (((start clock).run es).run es').log := by
      rw [hlog, hl]
      rcases List.mem_append.mp hp with hp | hp <;> simp [hp]
    have hn := outsider_of_sets hS hB hk hmem hset
    rcases List.mem_append.mp hp with hp | hp
    · exact hs p hp hn hset
    · exact (spared hes hp hn).1 hset
  · refine Nat.le_of_not_lt fun hlt => ?_
    have hcall := List.getElem?_eq_getElem hlt
    obtain ⟨course, hrun, hended⟩ := run_call hcall es'
    rw [hc.1] at hrun
    cases hrun
    obtain ⟨x, hx⟩ := hover n _ text' ⟨hcall, hc.2⟩
    exact not_mem_since_of_ended hcall hx hp hn

/-- A result has been created under the id of a message that is still pending, no publication of it is
going on any more, and nobody without a worker has set the key since. Then, for as long as the result is
kept, and whatever anybody does short of setting that key or acknowledging that message without a worker,
the message stays pending and unacknowledged, its group is not given it again, and no other publication of
it succeeds. -/
theorem unacknowledged_stranded (clock : Clock) (es es' : List Event) {l₁ l₂ : List Occurrence}
    {text : String} {ttl : Duration} (hl : ((start clock).run es).log = l₁ ++ o :: l₂)
    (ho : o.Created id text ttl) (hs : ∀ p ∈ l₂, p.asker = .outsider → ¬ p.Sets id)
    (hover : ∀ m d text', ((start clock).run es).Publishes m d id text' → ∃ x, d.course = .ended x)
    (hp : id ∈ ((start clock).run es).world.store.pending stream group)
    (hes : ∀ e ∈ es', e.Spares id)
    (hnow : (((start clock).run es).run es').world.now < o.now + ttl.nanos) :
    Stranded ((start clock).run es) (((start clock).run es).run es') stream group id := by
  have hC := chronicle clock es
  have hk := hC.ne_heartbeatKey (hC.pending_iff.mp hp).1
  exact (kept hl ho hk hs hover hes hnow).stranded hC hp

/-- A worker creates a result for the entry that it was given, and its acknowledgment stalls. -/
def stalledPublication : List Event :=
  [.hire "w" "a" { Settings.brisk with stream := "jobs", address := ⟨"redis://localhost"⟩ } .text,
    .operation (.createGroup "jobs" Settings.defaultGroup), .operation (.append "jobs" []),
    .begin "w" "main" .consume, .proceed 0, .begin "w" "main" (.publish "5-0" "first"), .proceed 1,
    .command (.stall .acknowledge), .proceed 1]

def givenUp : List Event := stalledPublication ++ [.abandon 1]

/-- The store recovers, and the worker publishes again. -/
def secondAttempt : List Event :=
  [.command (.clearFaults .acknowledge), .begin "w" "main" (.publish "5-0" "again"), .proceed 2,
    .proceed 2]

theorem givenUp_over (m : Nat) (d : CallRecord) (text : String)
    (hd : ((start ⟨5, 0⟩).run givenUp).Publishes m d "5-0" text) : ∃ x, d.course = .ended x := by
  obtain ⟨hd, hcall⟩ := hd
  match m, hd with
  | 0, hd => cases hd; cases hcall
  | 1, hd => cases hd; exact ⟨_, rfl⟩

theorem unacknowledged_stranded_second_attempt :
    Stranded ((start ⟨5, 0⟩).run givenUp) (((start ⟨5, 0⟩).run givenUp).run secondAttempt) "jobs"
      Settings.defaultGroup "5-0" := by
  have hl : ((start ⟨5, 0⟩).run givenUp).log = ((start ⟨5, 0⟩).run givenUp).log.take 3 ++
      ((start ⟨5, 0⟩).run givenUp).log.get ⟨3, by decide +kernel⟩ ::
        ((start ⟨5, 0⟩).run givenUp).log.drop 4 := rfl
  have ho : (((start ⟨5, 0⟩).run givenUp).log.get ⟨3, by decide +kernel⟩).Created "5-0" "first"
      (.ofSeconds 60) := ⟨by decide +kernel, by decide +kernel⟩
  refine unacknowledged_stranded ⟨5, 0⟩ givenUp secondAttempt hl ho (fun p hp hn => ?_)
    givenUp_over (by decide +kernel) (fun e he op hop => ?_) (by decide +kernel)
  · have hcalls : ∀ p ∈ ((start ⟨5, 0⟩).run givenUp).log.drop 4, p.asker ≠ .outsider := by
      decide +kernel
    exact absurd hn (hcalls p hp)
  · subst hop
    simp [secondAttempt] at he

/-- Before the worker gives up, somebody without a worker replaces the result by one whose time is up at
once. -/
def replaced : List Event :=
  stalledPublication ++ [.operation (.set "5-0" "nothing" (.ofSeconds 0)), .abandon 1]

/-- It is not enough that a publication has created the result of a pending message and has ended without
success, that no other one is going on, and that the store is from then on used for calls, entries and
groups only: if the key was set before it ended, the next publication can create the result again and
acknowledge the message. -/
theorem replaced_not_stranded :
    ¬ ∀ (clock : Clock) (es es' : List Event) (n : Nat) (c : CallRecord) (o : Occurrence)
      (stream group id text : String),
      ((start clock).run es).Publishes n c id text →
      (∀ success, c.course ≠ .ended (.finished (.ok success))) →
      o ∈ ((start clock).run es).trail n → o.Created id text c.worker.settings.retention →
      id ∈ o.store.pending stream group →
      (∀ m d text', ((start clock).run es).Publishes m d id text' → ∃ x, d.course = .ended x) →
      id ∈ ((start clock).run es).world.store.pending stream group →
      (∀ op, .operation op ∈ es' → (∃ s fields, op = .append s fields) ∨ ∃ s g, op = .createGroup s g) →
      (((start clock).run es).run es').world.now < o.now + c.worker.settings.retention.nanos →
      Stranded ((start clock).run es) (((start clock).run es).run es') stream group id := by
  intro hall
  have ho : (((start ⟨5, 0⟩).run replaced).log.get ⟨3, by decide +kernel⟩).Created "5-0" "first"
      (.ofSeconds 60) := ⟨by decide +kernel, by decide +kernel⟩
  have hstranded := hall ⟨5, 0⟩ replaced secondAttempt 1 _ _ "jobs" Settings.defaultGroup "5-0" "first"
    ⟨rfl, rfl⟩ (fun success hx => by cases hx) (List.get_mem _ ⟨0, by decide +kernel⟩) ho
    (by decide +kernel) givenUp_over (by decide +kernel) (fun op hop => by simp [secondAttempt] at hop)
    (by decide +kernel)
  exact hstranded.unpublished 2 _ "again" .done (by decide +kernel) ⟨rfl, rfl⟩ rfl

end History

end StreamWorker
