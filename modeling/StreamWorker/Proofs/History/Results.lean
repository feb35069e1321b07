import StreamWorker.Proofs.History.Delivery
import StreamWorker.Proofs.History.LoopEvents
import StreamWorker.Proofs.History.Race
import StreamWorker.Proofs.History.Writes

/-! Results of several streams in one store. A result is kept under the id of its entry, and under nothing
else, while every stream gives ids of its own. A publication is therefore refused only because of another
one under the same id, whose time is not up, and nobody gets a result of another id. Within a stream such
a publication was for the very same entry. Two streams can give the same id, and then only one of the two
entries gets a result. -/

namespace StreamWorker

/-- No entry has an id that is somebody's heartbeat. -/
theorem idText_ne_heartbeatKey (m n : Nat) (x : String) : Stream.idText m n ≠ heartbeatKey x := by
  intro h
  have hl := congrArg String.toList h
  have hkey : (heartbeatKey x).toList = 'c' :: ("onsumer:" ++ x ++ ":heartbeat").toList := by
    simp [heartbeatKey]
  rw [Stream.toList_idText, hkey] at hl
  cases hd : Nat.toDigits 10 m with
  | nil =>
    rw [hd, List.nil_append] at hl
    cases hl
  | cons c ds =>
    rw [hd, List.cons_append] at hl
    obtain ⟨rfl, -⟩ := List.cons.inj hl
    have hdigit := Nat.isDigit_of_mem_toDigits (by decide) (by decide) (hd ▸ List.mem_cons_self)
    exact absurd hdigit (by decide)

/-- The id of an entry that was given out is nobody's heartbeat. -/
theorem Chronicle.ne_heartbeatKey {l : List Occurrence} {s : Store} {t : Nat}
    {stream group id : String} (h : Chronicle l s t)
    (hg : id ∈ (Log.given l stream group).map (·.id)) (x : String) : id ≠ heartbeatKey x := by
  obtain ⟨e, he, rfl⟩ := List.mem_map.mp hg
  obtain ⟨a, b, hid⟩ := (h.ascending _).id_eq (h.mem_of_given he)
  rw [hid]
  exact idText_ne_heartbeatKey a b x

/-- The id of the entry whose result a call publishes. -/
def Call.subject? : Call → Option String
  | .publish message _ => some message
  | _ => none

namespace History

variable {h : History} {n m : Nat} {c d : CallRecord} {o p : Occurrence} {key text : String}
variable {r : KeyRecord} {l₁ l₂ : List Occurrence}

/-! ### Who writes a result -/

/-- Keys are written by workers only, and they publish results of entries that their groups were
given. -/
structure Processes (h : History) : Prop where
  outsiders : ∀ o ∈ h.log, o.asker = .outsider → ∀ key ∈ o.op.key?, ¬ o.Writes key
  given : ∀ c ∈ h.calls, ∀ id ∈ c.call.subject?,
    id ∈ (Log.given h.log c.worker.settings.stream c.worker.settings.group).map (·.id)

/-- A call that writes a key shows that its worker is alive, or it publishes a result under the key. -/
theorem Sound.wrote (hS : h.Sound) (hc : h.calls[n]? = some c) (ho : o ∈ h.trail n)
    (hw : o.wrote? key = some r) : key = c.worker.heartbeatKey ∨
      c.call = .publish key r.value ∧ o.Created key r.value c.worker.settings.retention ∧
        r = ⟨r.value, c.worker.settings.retention, o.now⟩ := by
  have hkey := Occurrence.key_of_wrote hw
  obtain ⟨value, ttl, t⟩ := r
  obtain ⟨rfl, hcame⟩ := Occurrence.wrote?_eq_some.mp hw
  dsimp only at hcame ⊢
  cases hcall : c.call with
  | publish message result =>
    right
    have hop := (hS.publishing ⟨hc, hcall⟩).claim_of_key ho hkey
    rcases hcame with hcame | hcame
    · rw [hcame.1] at hop; cases hop
    · have heq := hcame.1.symm.trans hop
      cases heq
      exact ⟨rfl, hcame, rfl⟩
  | consume | heartbeat =>
    left
    have hF := (hS.calls n c hc).follows
    rw [CallRecord.Follows, hcall] at hF
    rcases hF with ⟨stage, hs, ha⟩ | ⟨hnil, -⟩
    · rw [ha.op_eq o ho] at hkey
      cases stage with
      | reading => cases hkey
      | beating => cases hkey; rfl
      | claiming => cases hs
      | acknowledging => cases hs
    · rw [hnil] at ho; cases ho

/-- The publication `m` has created the result `text` under an id by `p`, before the operation `o`. At `o`
the time of the result is not up, or its end is not on the clock. -/
structure Stood (h : History) (id text : String) (o : Occurrence) (m : Nat) (d : CallRecord)
    (p : Occurrence) : Prop where
  publishes : h.Publishes m d id text
  asked : p ∈ h.trail m
  created : p.Created id text d.worker.settings.retention
  before : ∃ l₁ l₂, h.log = l₁ ++ o :: l₂ ∧ p ∈ l₁
  stands : KeyRecord.Stands ⟨text, d.worker.settings.retention, p.now⟩ h.limit o.now

namespace Processes

/-- Under a key that is nobody's heartbeat there are only results that were published under it. -/
theorem exists_stood (hP : h.Processes) (hS : h.Sound)
    (hC : Chronicle h.log h.world.store h.world.now)
    (hB : ∀ o ∈ h.log, ∀ id, o.asker = .loop id → h.BeatenBy id o)
    (hk : ∀ x, key ≠ heartbeatKey x) (hl : h.log = l₁ ++ o :: l₂)
    (hr : o.store.keys.records.get? key = some r) (hs : r.Stands o.store.keys.limit o.now) :
    ∃ m d p, h.Stood key r.value o m d p ∧ r = ⟨r.value, d.worker.settings.retention, p.now⟩ := by
  obtain ⟨l₃, p, l₄, rfl, hw, -⟩ := (hC.before hl).1.exists_last hr
  have hp : p ∈ h.log := by simp [hl]
  have hkey := Occurrence.key_of_wrote hw
  cases hasker : p.asker with
  | outsider =>
    refine absurd ?_ (hP.outsiders p hp hasker key hkey)
    rw [Occurrence.Writes, hw]
    rfl
  | loop id =>
    obtain ⟨l, -, hop⟩ := hB p hp id hasker
    rw [hop] at hkey
    cases hkey
    exact absurd rfl (hk l.worker.id)
  | call m =>
    have hlt := hS.callers p hp m hasker
    have hd := List.getElem?_eq_getElem hlt
    have htrail : p ∈ h.trail m := mem_trail.mpr ⟨hp, hasker⟩
    rcases hS.wrote hd htrail hw with hbeat | ⟨hcall, hcreated, hrec⟩
    · exact absurd hbeat (hk _)
    · refine ⟨m, _, p, ⟨⟨hd, hcall⟩, htrail, hcreated, ⟨_, _, hl, by simp⟩, ?_⟩, hrec⟩
      rw [← hrec, limit, ← hC.limit_eq (o := o) (by simp [hl])]
      exact hs

theorem mem_given (hP : h.Processes) (hc : h.Publishes n c key text) :
    key ∈ (Log.given h.log c.worker.settings.stream c.worker.settings.group).map (·.id) := by
  have hsubject : key ∈ c.call.subject? := by rw [hc.2]; rfl
  exact hP.given c (List.mem_of_getElem? hc.1) key hsubject

/-- The id of a published result is nobody's heartbeat. -/
theorem id_ne_heartbeatKey (hP : h.Processes) (hC : Chronicle h.log h.world.store h.world.now)
    (hc : h.Publishes n c key text) (x : String) : key ≠ heartbeatKey x :=
  hC.ne_heartbeatKey (hP.mem_given hc) x

/-- A publication whose claim comes upon a record comes upon the result of another one. -/
theorem exists_rival (hP : h.Processes) (hS : h.Sound)
    (hC : Chronicle h.log h.world.store h.world.now)
    (hB : ∀ o ∈ h.log, ∀ id, o.asker = .loop id → h.BeatenBy id o)
    (hc : h.Publishes n c key text) (ho : o ∈ h.trail n)
    (hop : o.op = .claim key text c.worker.settings.retention)
    (hne : ¬ o.Created key text c.worker.settings.retention)
    (hr : o.store.keys.records.get? key = some r) (hs : r.Stands o.store.keys.limit o.now) :
    ∃ m d p, m ≠ n ∧ h.Stood key r.value o m d p ∧
      r = ⟨r.value, d.worker.settings.retention, p.now⟩ := by
  obtain ⟨l₁, l₂, hl⟩ := List.append_of_mem (mem_trail.mp ho).1
  obtain ⟨m, d, p, hstood, hrec⟩ :=
    hP.exists_stood hS hC hB (hP.id_ne_heartbeatKey hC hc) hl hr hs
  refine ⟨m, d, p, ?_, hstood, hrec⟩
  -- a publication claims only once, and this claim did not create
  rintro rfl
  obtain ⟨hd, hcall⟩ := hstood.publishes
  rw [hc.1] at hd
  cases hd
  have htext := hc.2.symm.trans hcall
  cases htext
  have heq := (hS.publishing hc).claim_unique ho hstood.asked hop hstood.created.1
  subst heq
  exact hne hstood.created

end Processes

/-! ### Results by id -/

/-- Both workers were given an entry of the id, and if they work on one stream it is the same entry. -/
def Meet (h : History) (id : String) (w v : Worker) : Prop :=
  ∃ e ∈ Log.given h.log w.settings.stream w.settings.group,
    ∃ e' ∈ Log.given h.log v.settings.stream v.settings.group,
      e.id = id ∧ e'.id = id ∧ (w.settings.stream = v.settings.stream → e = e')

theorem Processes.meet (hP : h.Processes) (hC : Chronicle h.log h.world.store h.world.now)
    {text' : String} (hc : h.Publishes n c key text) (hd : h.Publishes m d key text') :
    h.Meet key c.worker d.worker := by
  obtain ⟨e, he, hid⟩ := List.mem_map.mp (hP.mem_given hc)
  obtain ⟨e', he', hid'⟩ := List.mem_map.mp (hP.mem_given hd)
  refine ⟨e, he, e', he', hid, hid', fun hstream => ?_⟩
  have hmem' := hC.mem_of_given he'
  rw [← hstream] at hmem'
  exact (hC.ascending _).eq_of_id (hC.mem_of_given he) hmem' (hid.trans hid'.symm)

namespace Processes

section
variable (hP : h.Processes) (hS : h.Sound) (hC : Chronicle h.log h.world.store h.world.now)
variable (hB : ∀ o ∈ h.log, ∀ id, o.asker = .loop id → h.BeatenBy id o)
include hP hS hC hB

/-- Whoever is refused is refused for another publication under the same id, within its time. -/
theorem of_resultExists {message : String} (hc : h.Publishes n c key text)
    (hend : c.course = .ended (.finished (.error (.resultExists message)))) :
    ∃ o ∈ h.trail n, ∃ m d text' p, m ≠ n ∧ h.Stood key text' o m d p ∧
      o.now < p.now + d.worker.settings.retention.nanos ∧ h.Meet key c.worker d.worker := by
  have hpub := hS.publishing hc
  rw [hend] at hpub
  obtain ⟨o, htrail, hrefused⟩ := hpub.of_resultExists
  have ho : o ∈ h.trail n := by rw [htrail]; exact List.mem_singleton_self o
  obtain ⟨r, hlook⟩ := Store.claim_refused hrefused.2
  obtain ⟨hr, hlt⟩ := Keyspace.look_some hlook
  have hne : ¬ o.Created key text c.worker.settings.retention := fun hcreated => by
    cases hcreated.2.symm.trans hrefused.2
  obtain ⟨m, d, p, hm, hstood, hrec⟩ := hP.exists_rival hS hC hB hc ho hrefused.1 hne hr (.inl hlt)
  rw [hrec] at hlt
  exact ⟨o, ho, m, d, r.value, p, hm, hstood, hlt, hP.meet hC hc hstood.publishes⟩

/-- Where no other publication under the id stands, a claim creates the result. -/
theorem created_of_free (hc : h.Publishes n c key text) (ho : o ∈ h.trail n)
    (hop : o.op = .claim key text c.worker.settings.retention)
    (hopen : o.store.Open .claim) (hfree : ∀ m d text' p, m ≠ n → ¬ h.Stood key text' o m d p) :
    o.Created key text c.worker.settings.retention := by
  by_cases hcreated : o.Created key text c.worker.settings.retention
  · exact hcreated
  · have hlook : o.store.keys.look o.now key = .ok none := by
      refine Keyspace.look_eq_none_iff.mpr fun r hr hs => ?_
      obtain ⟨m, d, p, hm, hstood, -⟩ := hP.exists_rival hS hC hB hc ho hop hcreated hr hs
      exact hfree m d r.value p hm hstood
    exact ⟨hop, Store.claim_true_iff.mpr ⟨hopen, hlook⟩⟩

/-- Then the publication succeeds, unless something gets in its way. -/
theorem ok_of_free (hc : h.Publishes n c key text)
    (hopen : ∀ o ∈ h.trail n, o.store.Open .claim ∧ o.store.Open .acknowledge)
    (hgone : h.world.isCancelled c.token = false) (hab : c.course ≠ .ended .abandoned)
    (hfree : ∀ o ∈ h.trail n, o.op = .claim key text c.worker.settings.retention →
      ∀ m d text' p, m ≠ n → ¬ h.Stood key text' o m d p) (hsteps : c.course.steps = 0) :
    c.course = .ended (.finished (.ok .done)) := by
  obtain ⟨o, ho, hop, hcases⟩ := (hS.publishing hc).outcome hsteps (by simp [hgone]) hab hopen
  have hcreated := hP.created_of_free hS hC hB hc ho hop (hopen o ho).1 (hfree o ho hop)
  rcases hcases with ⟨hrefused, -⟩ | ⟨b, hbroken⟩ | ⟨-, hok⟩
  · cases hrefused.2.symm.trans hcreated.2
  · cases hbroken.2.symm.trans hcreated.2
  · exact hok

/-- Whoever gets a result gets one that was published under the id he asks for. -/
theorem of_got (hk : ∀ x, key ≠ heartbeatKey x) (ho : o ∈ h.log)
    (hget : o.CameTo (.get key) (.answer (some text))) :
    ∃ m d p, h.Stood key text o m d p ∧ o.now < p.now + d.worker.settings.retention.nanos := by
  obtain ⟨l₁, l₂, hl⟩ := List.append_of_mem ho
  obtain ⟨r, hlook, rfl⟩ := Store.get_some hget.2
  obtain ⟨hr, hlt⟩ := Keyspace.look_some hlook
  obtain ⟨m, d, p, hstood, hrec⟩ := hP.exists_stood hS hC hB hk hl hr (.inl hlt)
  rw [hrec] at hlt
  exact ⟨m, d, p, hstood, hlt⟩

end

end Processes

theorem running_of_steps {course : Course} (h : course.steps ≠ 0) : ∃ f, course = .running f := by
  cases course with
  | running f => exact ⟨f, rfl⟩
  | held f => exact absurd rfl h
  | ended e => exact absurd rfl h

/-- Results are told apart by the ids of their entries. A publication is refused only if another one has
created a result under the same id and the time of that result is not up; if both are on one stream, it
is a result for the same entry. A publication that finds no such result, and that no fault, cancellation
or impatience gets in the way of, does not fail, whatever is published under other ids. And whoever gets a
result gets one that was published under the id he asks for. -/
theorem results_apart_by_id {clock : Clock} {es : List Event}
    (hP : ((start clock).run es).Processes) :
    let h := (start clock).run es
    (∀ n c id text id', h.Publishes n c id text →
      c.course = .ended (.finished (.error (.resultExists id'))) →
      ∃ o ∈ h.trail n, ∃ m d text' p, m ≠ n ∧ h.Stood id text' o m d p ∧
        o.now < p.now + d.worker.settings.retention.nanos ∧ h.Meet id c.worker d.worker) ∧
    (∀ n c id text, h.Publishes n c id text →
      (∀ o ∈ h.trail n, o.store.Open .claim ∧ o.store.Open .acknowledge) →
      h.world.isCancelled c.token = false → c.course ≠ .ended .abandoned →
      (∀ o ∈ h.trail n, o.op = .claim id text c.worker.settings.retention →
        ∀ m d text' p, m ≠ n → ¬ h.Stood id text' o m d p) →
      (∃ f, c.course = .running f) ∨ c.course = .ended (.finished (.ok .done))) ∧
    (∀ o ∈ h.log, ∀ id text, (∀ x, id ≠ heartbeatKey x) →
      o.CameTo (.get id) (.answer (some text)) →
      ∃ m d p, h.Stood id text o m d p ∧ o.now < p.now + d.worker.settings.retention.nanos) := by
  intro h
  have hC : Chronicle h.log h.world.store h.world.now := chronicle clock es
  have hS : h.Sound := sound clock es
  have hB := loops_beat clock es
  refine ⟨fun n c id text id' hc hend => hP.of_resultExists hS hC hB hc hend,
    fun n c id text hc hopen hgone hab hfree => ?_,
    fun o ho id text hk hget => hP.of_got hS hC hB hk ho hget⟩
  by_cases hsteps : c.course.steps = 0
  · exact .inr (hP.ok_of_free hS hC hB hc hopen hgone hab hfree hsteps)
  · exact .inl (running_of_steps hsteps)

/-- Two workers on two streams that take one entry each and publish a result for it. The second stream
gets its entry some time after the first. -/
def twoStreams (wait : Nat) (id : String) : List Event :=
  [.hire "w" "a" { Settings.brisk with stream := "left", address := ⟨"redis://localhost"⟩ } .text,
    .hire "v" "b" { Settings.brisk with stream := "right", address := ⟨"redis://localhost"⟩ } .text,
    .operation (.createGroup "left" Settings.defaultGroup),
    .operation (.createGroup "right" Settings.defaultGroup),
    .operation (.append "left" []), .elapse wait, .operation (.append "right" []),
    .begin "w" "main" .consume, .proceed 0, .begin "v" "main" .consume, .proceed 1,
    .begin "w" "main" (.publish "5-0" "from the left"), .proceed 2, .proceed 2,
    .begin "v" "main" (.publish id "from the right"), .proceed 3]

/-- Another worker of the first stream publishes a second result for its entry. -/
def secondResult : List Event :=
  twoStreams Instant.milli "6-0" ++
    [.proceed 3, .begin "w" "main" (.publish "5-0" "again"), .proceed 4, .operation (.get "5-0")]

theorem results_apart_by_id_second :
    let h := (start ⟨5, 0⟩).run secondResult
    (∃ o ∈ h.trail 4, ∃ m d text p, m ≠ 4 ∧ h.Stood "5-0" text o m d p ∧
      o.now < p.now + d.worker.settings.retention.nanos) ∧
    ∃ c, h.Publishes 3 c "6-0" "from the right" ∧ c.course = .ended (.finished (.ok .done)) := by
  have hP : ((start ⟨5, 0⟩).run secondResult).Processes := ⟨by decide +kernel, by decide +kernel⟩
  obtain ⟨hrefused, hfree, -⟩ := results_apart_by_id hP
  constructor
  · obtain ⟨o, ho, m, d, text, p, hm, hstood, hlt, -⟩ :=
      hrefused 4 _ "5-0" "again" "5-0" ⟨rfl, rfl⟩ rfl
    exact ⟨o, ho, m, d, text, p, hm, hstood, hlt⟩
  · refine ⟨_, ⟨rfl, rfl⟩, (hfree 3 _ "6-0" "from the right" ⟨rfl, rfl⟩ (by decide +kernel)
      (by decide +kernel) (fun hx => by cases hx) fun o ho hop m d text p hm hstood => ?_).resolve_left
        fun ⟨f, hf⟩ => by cases hf⟩
    -- nobody else publishes under this id
    obtain ⟨hd, hcall⟩ := hstood.publishes
    match m, hd with
    | 0, hd => cases hd; cases hcall
    | 1, hd => cases hd; cases hcall
    | 2, hd => cases hd; exact absurd (Call.publish.inj hcall).1 (by decide)
    | 3, hd => exact hm rfl
    | 4, hd => cases hd; exact absurd (Call.publish.inj hcall).1 (by decide)

/-- Two streams that get their entries at the same time give them the same id. The result for the one
entry keeps the other one from getting any, although nobody else publishes for it, nothing fails and
nothing is cancelled, and whoever asks for its result gets that of the first stream. -/
theorem results_of_two_streams_collide :
    let h := (start ⟨5, 0⟩).run (twoStreams 0 "5-0")
    h.Processes ∧ (∀ o ∈ h.log, o.store.scripted = [] ∧ ∀ p, o.store.Open p) ∧
      h.world.isCancelled "main" = false ∧
      (∃ c, h.Publishes 3 c "5-0" "from the right" ∧ c.worker.settings.stream = "right" ∧
        c.course = .ended (.finished (.error (.resultExists "5-0")))) ∧
      (∀ m d text, m ≠ 3 → h.Publishes m d "5-0" text → d.worker.settings.stream = "left") ∧
      (h.world.store.get h.world.now "5-0").2 = .answer (some "from the left") := by
  refine ⟨⟨by decide +kernel, by decide +kernel⟩, fun o ho => ⟨?_, fun p => ?_⟩, by decide +kernel,
    ⟨_, ⟨rfl, rfl⟩, rfl, rfl⟩, fun m d text hm ⟨hd, hcall⟩ => ?_, by decide +kernel⟩
  · revert o
    decide +kernel
  · revert o
    cases p <;> decide +kernel
  · match m, hd with
    | 0, hd => cases hd; cases hcall
    | 1, hd => cases hd; cases hcall
    | 2, hd => cases hd; rfl
    | 3, hd => exact absurd rfl hm

end History

end StreamWorker
