import StreamWorker.Proofs.History.Claims
import StreamWorker.Proofs.History.SteadyRuns

/-! The heartbeat of a worker as a record of its life. As long as nobody else writes its key, the key
shows what the wall clock said at the last beat that succeeded, until twice the keepalive has passed
since. A loop beats ten times in a keepalive, so it keeps the key present as long as it never fails
twenty times in a row; and what an ended loop has left is there for exactly twice the keepalive. -/

namespace StreamWorker

/-- A call that shows that its worker is alive has asked for nothing but that, and waits for nothing
else. -/
def CallRecord.Shows (c : CallRecord) (value : Nat) (expiry : Duration) (l : List Occurrence) : Prop :=
  (∀ f, c.course.flight? = some f → f = ⟨c.worker, c.token, .beating (toString value) expiry⟩) ∧
    ∀ o ∈ l, o.op = .set c.worker.heartbeatKey (toString value) expiry

namespace History

variable {h : History} {e : Event} {n : Nat} {c : CallRecord} {o : Occurrence} {r : KeyRecord}
variable {key : String} {clock : Clock} {es : List Event} {w : Worker} {expiry : Duration}

/-! ### What the clock showed when a call was begun -/

/-- What the wall clock showed when each call was begun, in order. -/
def readings (h : History) (es : List Event) : List Nat :=
  (h.scenes es).flatMap fun p => match p.2 with
    | .begin member _ _ => if p.1.world.members.contains member then [p.1.world.clock] else []
    | _ => []

/-- What was read off the wall clock for an operation: calls read it when they are begun. -/
def reading (clock : Clock) (es : List Event) (o : Occurrence) : Nat :=
  match o.asker with
  | .call n => ((start clock).readings es)[n]?.getD 0
  | .loop _ | .outsider => o.clock

theorem readings_concat (h : History) (es : List Event) (e : Event) :
    h.readings (es ++ [e]) = h.readings es ++ (h.run es).readings [e] := by
  rw [readings, scenes_append, List.flatMap_append]
  rfl

theorem trail_next (h : History) (e : Event) (n : Nat) :
    (h.next e).trail n = h.trail n ++ (h.added e).filter (·.asker = .call n) := by
  rw [trail, log_next, List.filter_append]
  rfl

theorem trail_next_of_ne (he : e ≠ .proceed n) : (h.next e).trail n = h.trail n := by
  rw [trail_next, List.filter_eq_nil_iff.mpr, List.append_nil]
  intro o ho hn
  exact he (mem_added_call ho (by simpa using hn)).1

/-- What every call for a heartbeat writes was read off the clock when it was begun. -/
structure Reads (es : List Event) (h h' : History) : Prop where
  length : h'.calls.length = (h.readings es).length
  shows : ∀ (n : Nat) (c : CallRecord) value expiry, h'.calls[n]? = some c →
    (h.readings es)[n]? = some value → c.call = .heartbeat →
    c.worker.settings.expiry? = some expiry → c.Shows value expiry (h'.trail n)

namespace Reads

variable {h₀ : History}

/-- Events that concern no call. -/
theorem still (hr : Reads es h₀ (h₀.run es)) (hreadings : (h₀.run es).readings [e] = [])
    (hcalls : ((h₀.run es).next e).calls = (h₀.run es).calls)
    (htrail : ∀ n, ((h₀.run es).next e).trail n = (h₀.run es).trail n) :
    Reads (es ++ [e]) h₀ ((h₀.run es).next e) := by
  refine ⟨?_, fun n c value expiry hc hv => ?_⟩
  · rw [hcalls, readings_concat, hreadings, List.append_nil, hr.length]
  · rw [hcalls] at hc
    rw [readings_concat, hreadings, List.append_nil] at hv
    rw [htrail]
    exact hr.shows n c value expiry hc hv

/-- One call goes on. -/
theorem update {m : Nat} {d : CallRecord} (hr : Reads es h₀ (h₀.run es))
    (hreadings : (h₀.run es).readings [e] = [])
    (hcalls : ((h₀.run es).next e).calls = (h₀.run es).calls.set m d)
    (htrail : ∀ n, n ≠ m → ((h₀.run es).next e).trail n = (h₀.run es).trail n)
    (hd : ∀ value expiry, (h₀.readings es)[m]? = some value → d.call = .heartbeat →
      d.worker.settings.expiry? = some expiry → d.Shows value expiry (((h₀.run es).next e).trail m)) :
    Reads (es ++ [e]) h₀ ((h₀.run es).next e) := by
  refine ⟨?_, fun n c value expiry hc hv => ?_⟩
  · rw [hcalls, List.length_set, readings_concat, hreadings, List.append_nil, hr.length]
  · rw [hcalls, List.getElem?_set] at hc
    rw [readings_concat, hreadings, List.append_nil] at hv
    split at hc
    · next hn =>
      subst hn
      split at hc
      · cases hc
        exact hd value expiry hv
      · cases hc
    · next hn =>
      rw [htrail n (Ne.symm hn)]
      exact hr.shows n c value expiry hc hv

theorem begin {member token : String} {call : Call} {m : Member}
    (hr : Reads es h₀ (h₀.run es)) (hS : (h₀.run es).Sound)
    (hm : (h₀.run es).world.members.get? member = some m) :
    Reads (es ++ [.begin member token call]) h₀ ((h₀.run es).next (.begin member token call)) := by
  have hnext : (h₀.run es).next (.begin member token call) = (h₀.run es).begin m.worker token call := by
    rw [next, hm]
  have hreadings : (h₀.run es).readings [.begin member token call] = [(h₀.run es).world.clock] := by
    simp [readings, scenes, Table.contains, hm]
  rw [hnext]
  refine ⟨?_, fun n c value expiry hc hv hcall he => ?_⟩
  · rw [readings_concat, hreadings, History.begin, List.length_append, List.length_append, hr.length]
    rfl
  · rw [History.begin, List.getElem?_append] at hc
    rw [readings_concat, hreadings, List.getElem?_append, ← hr.length] at hv
    split at hc
    · next hlt =>
      rw [if_pos hlt] at hv
      exact hr.shows n c value expiry hc hv hcall he
    · next hlt =>
      rw [if_neg hlt] at hv
      rw [List.getElem?_singleton] at hc hv
      split at hc
      · next hn =>
        rw [if_pos hn] at hv
        cases hv
        cases hc
        dsimp only at hcall he
        refine ⟨fun f hf => ?_, fun o ho => ?_⟩
        · subst hcall
          simp only [Worker.start, he] at hf
          cases hf
          rfl
        · -- the call has not asked for anything: no operation can have its number
          obtain ⟨hlog, hasker⟩ := List.mem_filter.mp ho
          have := hS.callers o hlog n (by simpa using hasker)
          omega
      · cases hc

theorem next (hr : Reads es h₀ (h₀.run es)) (hS : (h₀.run es).Sound) (e : Event) :
    Reads (es ++ [e]) h₀ ((h₀.run es).next e) := by
  -- an event that is no beginning adds no reading
  have hstill (hreadings : (h₀.run es).readings [e] = [])
      (hcalls : ((h₀.run es).next e).calls = (h₀.run es).calls)
      (he : ∀ n, e ≠ .proceed n) : Reads (es ++ [e]) h₀ ((h₀.run es).next e) :=
    hr.still hreadings hcalls fun n => trail_next_of_ne (he n)
  cases e with
  | begin member token call =>
    cases hm : (h₀.run es).world.members.get? member with
    | some m => exact hr.begin hS hm
    | none =>
      have hnext : (h₀.run es).next (.begin member token call) = h₀.run es := by rw [History.next, hm]
      refine hstill ?_ (by rw [hnext]) fun _ hx => (by cases hx)
      simp [readings, scenes, Table.contains, hm]
  | proceed m =>
    cases hc : (h₀.run es).calls[m]? with
    | none =>
      have hnext : (h₀.run es).next (.proceed m) = h₀.run es := by rw [History.next, hc]
      exact hr.still rfl (by rw [hnext]) fun n => by rw [hnext]
    | some c =>
      have hother (n : Nat) (hn : n ≠ m) :
          ((h₀.run es).next (.proceed m)).trail n = (h₀.run es).trail n :=
        trail_next_of_ne fun hx => hn (Event.proceed.inj hx).symm
      have hnext : (h₀.run es).next (.proceed m) = (h₀.run es).proceed m c := by rw [History.next, hc]
      have hmine {value : Nat} {expiry : Duration}
          (hs : c.Shows value expiry ((h₀.run es).trail m)) :
          ∀ o ∈ ((h₀.run es).next (.proceed m)).trail m,
            o.op = .set c.worker.heartbeatKey (toString value) expiry := by
        intro o ho
        rw [trail_next] at ho
        rcases List.mem_append.mp ho with ho | ho
        · exact hs.2 o ho
        · obtain ⟨hadded, hasker⟩ := List.mem_filter.mp ho
          obtain ⟨-, c', f, hc', hf, -, rfl⟩ := mem_added_call hadded (by simpa using hasker)
          rw [hc] at hc'
          cases hc'
          have hfeq := hs.1 f (by rw [hf]; rfl)
          subst hfeq
          rfl
      cases hf : c.course with
      | running f =>
        refine hr.update (d := { c with course := .ofStep f ((h₀.run es).world.stepFlight f).2 }) rfl
          (by rw [hnext, proceed, hf]; rfl) hother fun value expiry hv hcall he => ?_
        have hs := hr.shows m c value expiry hc hv hcall he
        refine ⟨fun g hg => ?_, hmine hs⟩
        have hfeq := hs.1 f (by rw [hf]; rfl)
        dsimp only at hg ⊢
        by_cases hx : (h₀.run es).world.isCancelled f.token = true
        · rw [World.stepFlight_of_cancelled hx] at hg
          cases hg
        · rw [World.ofStep_stepFlight hx] at hg
          have hsingle : f.stage.Single := by rw [hfeq]; trivial
          rcases Flight.answered_of_single hsingle ((h₀.run es).world.store.perform
            (h₀.run es).world.now (h₀.run es).world.clock (f.worker.operation f.stage)).2 with
            ⟨-, ha⟩ | ⟨e, ha⟩
          · rw [ha] at hg
            cases hg
            exact hfeq
          · rw [ha] at hg
            cases hg
      | held f =>
        refine hr.update (d := { c with course := .ofStep f ((h₀.run es).world.resume f).2 }) rfl
          (by rw [hnext, proceed, hf]; rfl) hother fun value expiry hv hcall he => ?_
        have hs := hr.shows m c value expiry hc hv hcall he
        refine ⟨fun g hg => ?_, hmine hs⟩
        dsimp only at hg ⊢
        rw [World.resume_eq] at hg
        split at hg
        · cases hg
        · rw [Course.ofStep, if_pos rfl] at hg
          cases hg
          exact hs.1 f (by rw [hf]; rfl)
      | ended e =>
        have hsame : (h₀.run es).next (.proceed m) = h₀.run es := by rw [hnext, proceed, hf]
        exact hr.still rfl (by rw [hsame]) fun n => by rw [hsame]
  | abandon m =>
    have htrail (n : Nat) : ((h₀.run es).next (.abandon m)).trail n = (h₀.run es).trail n :=
      trail_next_of_ne fun hx => (by cases hx)
    cases hc : (h₀.run es).calls[m]? with
    | none =>
      have hnext : (h₀.run es).next (.abandon m) = h₀.run es := by rw [History.next, hc]
      exact hr.still rfl (by rw [hnext]) htrail
    | some c =>
      have hnext : (h₀.run es).next (.abandon m) = (h₀.run es).abandon m c := by rw [History.next, hc]
      have hgivenUp (hcalls : ((h₀.run es).abandon m c).calls =
          (h₀.run es).calls.set m { c with course := .ended .abandoned }) :
          Reads (es ++ [.abandon m]) h₀ ((h₀.run es).next (.abandon m)) := by
        refine hr.update (d := { c with course := .ended .abandoned }) rfl (by rw [hnext, hcalls])
          (fun n _ => htrail n) fun value expiry hv hcall he => ?_
        rw [htrail]
        exact ⟨fun f hf => (by cases hf), (hr.shows m c value expiry hc hv hcall he).2⟩
      cases hf : c.course with
      | running f => exact hgivenUp (by rw [History.abandon, hf]; rfl)
      | held f => exact hgivenUp (by rw [History.abandon, hf]; rfl)
      | ended e =>
        have hsame : (h₀.run es).next (.abandon m) = h₀.run es := by rw [hnext, History.abandon, hf]
        exact hr.still rfl (by rw [hsame]) htrail
  | operation op => exact hstill rfl rfl fun _ hx => (by cases hx)
  | hire | start | stop | dismiss | command | wake | elapse =>
    exact hstill rfl rfl fun _ hx => (by cases hx)

end Reads

theorem reads (clock : Clock) (es : List Event) : Reads es (start clock) ((start clock).run es) :=
  run_concat_induction (P := fun es h => Reads es (start clock) h)
    ⟨rfl, fun _ _ _ _ hc => (by cases hc)⟩ (fun es e hr => hr.next (sound clock es) e) es

/-! ### Beats of a worker -/

/-- The worker that an operation shows to be alive: it was asked for by a loop of the worker, or by a
call for a heartbeat. -/
def beater? (h : History) (o : Occurrence) : Option Worker :=
  match o.asker with
  | .loop id => (h.world.loops.get? id).map (·.worker)
  | .call n => (h.calls[n]?).bind fun c => if c.call = .heartbeat then some c.worker else none
  | .outsider => none

theorem op_of_beater (ho : o ∈ ((start clock).run es).log)
    (hb : ((start clock).run es).beater? o = some w) (he : w.settings.expiry? = some expiry) :
    o.op = .set w.heartbeatKey (toString (reading clock es o)) expiry := by
  unfold beater? at hb
  unfold reading
  cases hasker : o.asker with
  | loop id =>
    rw [hasker] at hb
    obtain ⟨l, hl, hop⟩ := loops_beat clock es o ho id hasker
    obtain ⟨l', hl', rfl⟩ := Option.map_eq_some_iff.mp hb
    rw [hl] at hl'
    cases hl'
    have hexpiry := ((orderly_run clock es).1.placed id l hl).expiry
    rw [he] at hexpiry
    cases hexpiry
    exact hop
  | call n =>
    rw [hasker] at hb
    obtain ⟨c, hc, hw⟩ := Option.bind_eq_some_iff.mp hb
    split at hw
    · next hcall =>
      cases hw
      have hr := reads clock es
      have hlt : n < ((start clock).readings es).length := by
        rw [← hr.length]
        exact (List.getElem?_eq_some_iff.mp hc).1
      have hvalue := List.getElem?_eq_getElem hlt
      have hs := hr.shows n c _ expiry hc hvalue hcall he
      rw [hs.2 o (mem_trail.mpr ⟨ho, hasker⟩)]
      dsimp only
      rw [hvalue]
      rfl
    · cases hw
  | outsider => rw [hasker] at hb; cases hb

/-- A beat that succeeds leaves what was read off the clock, for twice the keepalive. -/
theorem record_of_beater (ho : o ∈ ((start clock).run es).log)
    (hb : ((start clock).run es).beater? o = some w) (he : w.settings.expiry? = some expiry)
    (hr : o.wrote? w.heartbeatKey = some r) : r = ⟨toString (reading clock es o), expiry, o.now⟩ := by
  have hop := op_of_beater ho hb he
  obtain ⟨value, ttl, t⟩ := r
  obtain ⟨ht, hcame | hcame⟩ := Occurrence.wrote?_eq_some.mp hr
  · rw [hcame.1] at hop
    cases hop
    cases ht
    rfl
  · rw [hcame.1] at hop
    cases hop

/-! ### The last write -/

/-- Of all operations, `o` was the last to write the key, and it left `r` there. -/
def LastWrote (h : History) (key : String) (o : Occurrence) (r : KeyRecord) : Prop :=
  ∃ l₁ l₂, h.log = l₁ ++ o :: l₂ ∧ o.wrote? key = some r ∧ ∀ p ∈ l₂, p.wrote? key = none

theorem exists_lastWrote (hC : Chronicle h.log h.world.store h.world.now) (ho : o ∈ h.log)
    (hw : o.Writes key) : ∃ p r, h.LastWrote key p r ∧ o.now ≤ p.now := by
  have hlast := (hC.last_write key).1
  obtain ⟨r₀, hr₀⟩ := Option.isSome_iff_exists.mp hw
  have hmem : r₀ ∈ writesOfKey h.log key := List.mem_filterMap.mpr ⟨o, ho, hr₀⟩
  rw [List.getLast?_eq_some_getLast (List.ne_nil_of_mem hmem)] at hlast
  obtain ⟨l₁, p, l₂, hl, hp, hnone⟩ := hC.exists_last hlast
  refine ⟨p, _, ⟨l₁, l₂, hl, hp, hnone⟩, ?_⟩
  rw [hl] at ho
  rcases List.mem_append.mp ho with ho | ho
  · exact (hC.before hl).1.now_le ho
  · rcases List.mem_cons.mp ho with rfl | ho
    · exact Nat.le_refl _
    · rw [hnone o ho] at hr₀
      cases hr₀

theorem LastWrote.mem (hl : h.LastWrote key o r) : o ∈ h.log ∧ o.wrote? key = some r := by
  obtain ⟨l₁, l₂, hlog, ho, -⟩ := hl
  exact ⟨by simp [hlog], ho⟩

/-- What is written last is there until its time is up. -/
theorem LastWrote.look (hC : Chronicle h.log h.world.store h.world.now) (hl : h.LastWrote key o r) :
    h.world.store.keys.look h.world.now key = if r.expiry < h.limit then
      .ok (if h.world.now < r.expiry then some r else none) else .error .beyondClock := by
  obtain ⟨l₁, l₂, hlog, ho, hnone⟩ := hl
  have hr := hC.record_of_last hlog ho hnone
  split
  · next hc =>
    split
    · next hn => exact Keyspace.look_of_live hr hc hn
    · next hn => exact Keyspace.look_of_over hr hc (Nat.not_lt.mp hn)
  · next hc => exact Keyspace.look_of_beyond hr (Nat.not_lt.mp hc)

/-- What was written last still is after operations that do not write the key. -/
theorem LastWrote.append {h' : History} {new : List Occurrence} (hl : h.LastWrote key o r)
    (hlog : h'.log = h.log ++ new) (hnew : ∀ p ∈ new, ¬ p.Writes key) : h'.LastWrote key o r := by
  obtain ⟨l₁, l₂, hl, ho, hnone⟩ := hl
  refine ⟨l₁, l₂ ++ new, by simp [hlog, hl], ho, fun p hp => ?_⟩
  rcases List.mem_append.mp hp with hp | hp
  · exact hnone p hp
  · exact Option.not_isSome_iff_eq_none.mp (hnew p hp)

/-- Nobody but the worker, in its loops and in calls for its heartbeat, writes its key. -/
def Owned (h : History) (w : Worker) : Prop :=
  ∀ o ∈ h.log, o.op.key? = some w.heartbeatKey → h.beater? o = some w

instance (h : History) (w : Worker) : Decidable (h.Owned w) := inferInstanceAs (Decidable (∀ _ ∈ _, _ → _))

/-- The last beat that succeeded is seen for twice the keepalive. -/
theorem LastWrote.look_of_owned (hw : ((start clock).run es).Owned w)
    (he : w.settings.expiry? = some expiry) (hl : ((start clock).run es).LastWrote w.heartbeatKey o r) :
    ((start clock).run es).world.store.keys.look ((start clock).run es).world.now w.heartbeatKey =
      if o.now + 2 * w.settings.keepalive.nanos < clock.limit then
        .ok (if ((start clock).run es).world.now < o.now + 2 * w.settings.keepalive.nanos then some r
          else none)
      else .error .beyondClock := by
  obtain ⟨ho, hr⟩ := hl.mem
  have hexpiry : r.expiry = o.now + 2 * w.settings.keepalive.nanos := by
    rw [record_of_beater ho (hw o ho (Occurrence.key_of_wrote hr)) he hr, KeyRecord.expiry,
      Settings.expiry_nanos he]
  rw [← hexpiry, ← limit_run clock es]
  exact hl.look (chronicle clock es)

/-- A loop that has ended writes nothing any more. -/
theorem log_of_ended {id : Nat} {l : HeartbeatLoop} (ho : h.world.Orderly) (hc : h.world.Checked)
    (hl : h.world.loops.get? id = some l) (hp : l.phase = .ended) (es : List Event) :
    ∃ new, (h.run es).log = h.log ++ new ∧ ∀ o ∈ new, o.asker ≠ .loop id := by
  induction es generalizing h l with
  | nil => exact ⟨[], (List.append_nil _).symm, fun _ ho => (by cases ho)⟩
  | cons e es ih =>
    obtain ⟨l', hl', hlead⟩ := loopsLead_next ho e id l hl
    obtain ⟨new, hnew, hasker⟩ := ih (orderly_next ho hc e) ((h.next_leads e).checked hc) hl'
      (hlead.ended hp)
    refine ⟨h.added e ++ new, ?_, fun o hmem => ?_⟩
    · rw [run_cons, hnew, log_next, List.append_assoc]
    · rcases List.mem_append.mp hmem with hmem | hmem
      · intro hid
        obtain ⟨-, l₀, hb, -⟩ := mem_added_loop hmem hid
        obtain ⟨hl₀, -, hne⟩ := World.beating?_eq_some hb
        rw [hl] at hl₀
        cases hl₀
        exact hne hp
      · exact hasker o hmem

/-! ### Twenty ticks -/

/-- A beat among the last twenty ticks is less than twice the keepalive ago. -/
theorem lt_of_recent {T : List Occurrence} {t₀ k now : Nat}
    (htimes : ∀ i o, T[i]? = some o → o.now = t₀ + i * k) (hnow : now < t₀ + T.length * k)
    (ho : o ∈ T.drop (T.length - 20)) : now < o.now + 20 * k := by
  obtain ⟨i, hi⟩ := List.getElem?_of_mem ho
  rw [List.getElem?_drop] at hi
  have hle : T.length * k ≤ (T.length - 20 + i + 20) * k := Nat.mul_le_mul_right k (by omega)
  rw [htimes _ o hi]
  rw [Nat.add_mul] at hle
  omega

/-- Where some tick succeeds and no twenty in a row fail, one of the last twenty succeeds. -/
theorem exists_recent {T : List Occurrence} (hsome : ∃ o ∈ T, o.Writes key)
    (hrow : ∀ f, f <:+: T → f.length = 20 → ∃ o ∈ f, o.Writes key) :
    ∃ o ∈ T.drop (T.length - 20), o.Writes key := by
  rcases Nat.lt_or_ge T.length 20 with hlt | hge
  · rwa [Nat.sub_eq_zero_of_le (Nat.le_of_lt hlt), List.drop_zero]
  · exact hrow _ (List.drop_suffix _ _).isInfix (by rw [List.length_drop]; omega)

/-! ### The heartbeat of a member -/

/-- A member starts a heartbeat loop, where a tenth of its keepalive is a whole number of milliseconds,
and nobody but its worker writes the key. -/
structure Alive (clock : Clock) (es₁ : List Event) (name token : String) (es₂ : List Event) (m : Member)
    (expiry : Duration) : Prop where
  member : ((start clock).run es₁).world.members.get? name = some m
  starts : ¬ ((start clock).run es₁).world.isRunning m = true
  expiry : m.worker.settings.expiry? = some expiry
  tenth : 10 * Instant.milli ∣ m.worker.settings.keepalive.nanos
  steady : (start clock).SteadyRun (es₁ ++ .start name token :: es₂)
  own : ∀ o ∈ ((start clock).run (es₁ ++ .start name token :: es₂)).log,
    o.op.key? = some m.worker.heartbeatKey →
      ((start clock).run (es₁ ++ .start name token :: es₂)).beater? o = some m.worker

namespace Alive

variable {es₁ es₂ : List Event} {name token : String} {m : Member}

/-- The history, once all events have taken place. -/
abbrev history (_ : Alive clock es₁ name token es₂ m expiry) : History :=
  (start clock).run (es₁ ++ .start name token :: es₂)

/-- Until when a beat is seen. -/
def seenUntil (m : Member) (o : Occurrence) : Nat := o.now + 2 * m.worker.settings.keepalive.nanos

section
variable (ha : Alive clock es₁ name token es₂ m expiry)
include ha

theorem record (ho : o ∈ ha.history.log) (hr : o.wrote? m.worker.heartbeatKey = some r) :
    r = ⟨toString (reading clock (es₁ ++ .start name token :: es₂) o), expiry, o.now⟩ := by
  have hkey := Occurrence.key_of_wrote hr
  exact record_of_beater ho (ha.own o ho hkey) ha.expiry hr

theorem expiry_of_record (ho : o ∈ ha.history.log) (hr : o.wrote? m.worker.heartbeatKey = some r) :
    r.expiry = seenUntil m o := by
  rw [ha.record ho hr, KeyRecord.expiry, seenUntil, Settings.expiry_nanos ha.expiry]

/-- The last beat that succeeded is seen for twice the keepalive. -/
theorem look (hl : ha.history.LastWrote m.worker.heartbeatKey o r) :
    ha.history.world.store.keys.look ha.history.world.now m.worker.heartbeatKey =
      if seenUntil m o < clock.limit then
        .ok (if ha.history.world.now < seenUntil m o then some r else none)
      else .error .beyondClock :=
  hl.look_of_owned ha.own ha.expiry

theorem present
    (hrange : ∀ o ∈ ha.history.log, o.Writes m.worker.heartbeatKey → seenUntil m o < clock.limit)
    (ho : o ∈ ha.history.log) (hw : o.Writes m.worker.heartbeatKey)
    (hlt : ha.history.world.now < seenUntil m o) :
    ∃ p r, ha.history.LastWrote m.worker.heartbeatKey p r ∧
      r.value = toString (reading clock (es₁ ++ .start name token :: es₂) p) ∧
      ha.history.world.store.keys.look ha.history.world.now m.worker.heartbeatKey = .ok (some r) := by
  obtain ⟨p, r, hl, hle⟩ := exists_lastWrote (chronicle clock _) ho hw
  obtain ⟨hp, hr⟩ := hl.mem
  have hx := hrange p hp (Option.isSome_iff_exists.mpr ⟨r, hr⟩)
  have hlt' : ha.history.world.now < seenUntil m p := Nat.lt_of_lt_of_le hlt (Nat.add_le_add_right hle _)
  exact ⟨p, r, hl, by rw [ha.record hp hr], by rw [ha.look hl, if_pos hx, if_pos hlt']⟩

theorem absent
    (hrange : ∀ o ∈ ha.history.log, o.Writes m.worker.heartbeatKey → seenUntil m o < clock.limit)
    (hover : ∀ o ∈ ha.history.log, o.Writes m.worker.heartbeatKey →
      seenUntil m o ≤ ha.history.world.now) :
    ha.history.world.store.keys.look ha.history.world.now m.worker.heartbeatKey = .ok none := by
  by_cases hsome : ∃ o ∈ ha.history.log, o.Writes m.worker.heartbeatKey
  · obtain ⟨o, ho, hw⟩ := hsome
    obtain ⟨p, r, hl, -⟩ := exists_lastWrote (chronicle clock _) ho hw
    obtain ⟨hp, hr⟩ := hl.mem
    have hwp : p.Writes m.worker.heartbeatKey := Option.isSome_iff_exists.mpr ⟨r, hr⟩
    rw [ha.look hl, if_pos (hrange p hp hwp), if_neg (Nat.not_lt.mpr (hover p hp hwp))]
  · exact (chronicle clock _).look_of_unwritten
      (fun o ho => Option.not_isSome_iff_eq_none.mp fun hw => hsome ⟨o, ho, hw⟩) _

theorem beyond (ho : o ∈ ha.history.log) (hw : o.Writes m.worker.heartbeatKey)
    (hx : clock.limit ≤ seenUntil m o) :
    ha.history.world.store.keys.look ha.history.world.now m.worker.heartbeatKey =
      .error .beyondClock := by
  obtain ⟨p, r, hl, hle⟩ := exists_lastWrote (chronicle clock _) ho hw
  have hx' : clock.limit ≤ seenUntil m p := Nat.le_trans hx (Nat.add_le_add_right hle _)
  rw [ha.look hl, if_neg (Nat.not_lt.mpr hx')]

/-- The loop beats at its start and after every tenth of the keepalive. -/
theorem paced {l : HeartbeatLoop}
    (hl : ha.history.world.loops.get? ((start clock).run es₁).world.loops.entries.length = some l)
    (hp : l.phase ≠ .ended) (hq : ha.history.world.ready = []) :
    (∀ i o, (ha.history.ticks ((start clock).run es₁).world.loops.entries.length)[i]? = some o →
      o.now = ((start clock).run es₁).world.now + i * (m.worker.settings.keepalive.nanos / 10)) ∧
    ha.history.world.now < ((start clock).run es₁).world.now +
      (ha.history.ticks ((start clock).run es₁).world.loops.entries.length).length *
        (m.worker.settings.keepalive.nanos / 10) := by
  obtain ⟨-, hk⟩ := Settings.tenth_of_dvd ha.tenth
  obtain ⟨l', hpaced, hlead⟩ := paced_run ha.steady ha.member ha.starts ha.expiry hk
  have hl' := hpaced.loop
  rw [hl] at hl'
  cases hl'
  have hinterval : l.interval.nanos = m.worker.settings.keepalive.nanos / 10 :=
    congrArg Duration.nanos hlead.interval
  have haligned := (steady_start clock (steadyRun_append.mp ha.steady).1).1
  have hlt := hpaced.lt_next_tick (orderly_run clock _).1 hq hp haligned (by rw [hlead.interval]; exact hk)
  rw [hinterval] at hlt
  refine ⟨fun i o hi => ?_, hlt⟩
  rw [hpaced.times i o hi, hinterval]

end

end Alive

/-- The heartbeat of a worker is exact. As long as its expiry is on the clock, a look finds what the wall
clock said at the last beat that succeeded, within twice the keepalive, and nothing otherwise. The loop
beats every tenth of the keepalive, so while it runs and no twenty ticks in a row fail, the key stays
present after the first beat that has succeeded. Once the loop has ended, the key stays present for twice
the keepalive since the last beat. If the expiry is past the end of the clock, every look breaks off. -/
theorem heartbeat_tells_life {clock : Clock} {es₁ es₂ : List Event} {name token : String} {m : Member}
    {expiry : Duration} (ha : Alive clock es₁ name token es₂ m expiry) :
    let es := es₁ ++ .start name token :: es₂
    let h := (start clock).run es
    let key := m.worker.heartbeatKey
    let keepalive := m.worker.settings.keepalive.nanos
    let id := ((start clock).run es₁).world.loops.entries.length
    let begun := ((start clock).run es₁).world.now
    let ticks := h.ticks id
    ((∃ o ∈ h.log, o.Writes key ∧ clock.limit ≤ o.now + 2 * keepalive) →
      h.world.store.keys.look h.world.now key = .error .beyondClock) ∧
    ((∀ o ∈ h.log, o.Writes key → o.now + 2 * keepalive < clock.limit) →
      ((∃ o ∈ h.log, o.Writes key ∧ h.world.now < o.now + 2 * keepalive) →
        ∃ o r, h.LastWrote key o r ∧ r.value = toString (reading clock es o) ∧
          h.world.store.keys.look h.world.now key = .ok (some r)) ∧
      ((∀ o ∈ h.log, o.Writes key → o.now + 2 * keepalive ≤ h.world.now) →
        h.world.store.keys.look h.world.now key = .ok none) ∧
      (∀ l, h.world.loops.get? id = some l → l.phase ≠ .ended → h.world.ready = [] →
        (∀ i o, ticks[i]? = some o → o.now = begun + i * (keepalive / 10)) ∧
        h.world.now < begun + ticks.length * (keepalive / 10) ∧
        ((∃ o ∈ ticks, o.Writes key) →
          (∀ row, row <:+: ticks → row.length = 20 → ∃ o ∈ row, o.Writes key) →
          ∃ r, h.world.store.keys.look h.world.now key = .ok (some r))) ∧
      (∀ l o r, h.world.loops.get? id = some l → l.phase = .ended → h.LastWrote key o r →
        ∀ es' new, (h.run es').log = h.log ++ new →
          (∀ p ∈ new, p.asker ≠ .loop id → ¬ p.Writes key) →
          (h.run es').world.store.keys.look (h.run es').world.now key =
            .ok (if (h.run es').world.now < o.now + 2 * keepalive then some r else none))) := by
  intro es h key keepalive id begun ticks
  refine ⟨fun ⟨o, ho, hw, hx⟩ => ha.beyond ho hw hx, fun hrange => ⟨fun ⟨o, ho, hw, hlt⟩ =>
    ha.present hrange ho hw hlt, ha.absent hrange, fun l hl hp hq => ?_,
    fun l o r hl hp hlast es' new hlog hnew => ?_⟩⟩
  · obtain ⟨htimes, hlt⟩ := ha.paced hl hp hq
    refine ⟨htimes, hlt, fun hsome hrow => ?_⟩
    obtain ⟨o, ho, hw⟩ := exists_recent hsome hrow
    have hrecent := lt_of_recent htimes hlt ho
    have hten : 20 * (keepalive / 10) = 2 * keepalive := by
      have := (Settings.tenth_of_dvd ha.tenth).1
      omega
    rw [hten] at hrecent
    have hmem : o ∈ h.log := (List.mem_filter.mp (List.mem_of_mem_drop ho)).1
    obtain ⟨-, r, -, -, hlook⟩ := ha.present hrange hmem hw hrecent
    exact ⟨r, hlook⟩
  · obtain ⟨ho, hc⟩ := orderly_run clock es
    obtain ⟨new', hlog', hothers⟩ := log_of_ended ho hc hl hp es'
    have he : new' = new := List.append_cancel_left (hlog'.symm.trans hlog)
    subst he
    have hlast' := hlast.append hlog fun p hp => hnew p hp (hothers p hp)
    obtain ⟨hmem, hr⟩ := hlast.mem
    have hx := hrange o hmem (Option.isSome_iff_exists.mpr ⟨r, hr⟩)
    have hrun : h.run es' = (start clock).run (es ++ es') := (run_append ..).symm
    have hC : Chronicle (h.run es').log (h.run es').world.store (h.run es').world.now :=
      hrun ▸ chronicle clock (es ++ es')
    have hlimit : (h.run es').limit = clock.limit := hrun ▸ limit_run clock (es ++ es')
    rw [hlast'.look hC, ha.expiry_of_record hmem hr, hlimit]
    exact if_pos hx

/-- Settings with a heartbeat every millisecond. -/
def hasty : Settings :=
  { Settings.standard with keepalive := .ofMillis 10, address := ⟨"redis://localhost"⟩ }

/-- The first beat succeeds and the next nineteen fail. -/
def nineteenMissed : List Event :=
  .wake (.loop 0) :: .command (.fail .set "down") ::
    (List.replicate 19 [.elapse Instant.milli, .wake (.loop 0)]).flatten

theorem alive_of_hasty : Alive ⟨5, 0⟩ [.hire "w" "a" hasty .text] "w" "main" nineteenMissed
    ⟨⟨"a", hasty, .text⟩, none⟩ (.ofMillis 20) :=
  ⟨by decide +kernel, by decide +kernel, by decide +kernel, by decide +kernel, by decide +kernel,
    by decide +kernel⟩

/-- Nineteen milliseconds after its only beat that succeeded, the worker is still seen to be alive. -/
theorem heartbeat_tells_life_nineteen_missed :
    let h := (start ⟨5, 0⟩).run ([.hire "w" "a" hasty .text] ++ .start "w" "main" :: nineteenMissed)
    h.world.ready = [] ∧ h.world.now = 19 * Instant.milli ∧ (h.ticks 0).length = 20 ∧
      ((h.ticks 0).filter fun o => o.Writes (heartbeatKey "a")).length = 1 ∧
      ∃ r, h.world.store.keys.look h.world.now (heartbeatKey "a") = .ok (some r) := by
  intro h
  have hq : h.world.ready = [] := by decide +kernel
  have hlength : (h.ticks 0).length = 20 := by decide +kernel
  have hbeat : ∃ o ∈ h.ticks 0, o.Writes (heartbeatKey "a") := by decide +kernel
  have hphase : (h.world.loops.get? 0).map (·.phase) = some (.ticking (20 * Instant.milli)) := by
    decide +kernel
  obtain ⟨l, hl, hp⟩ := Option.map_eq_some_iff.mp hphase
  obtain ⟨-, hall⟩ := heartbeat_tells_life alive_of_hasty
  obtain ⟨-, -, hrunning, -⟩ := hall (by decide +kernel)
  refine ⟨hq, by decide +kernel, hlength, by decide +kernel, ?_⟩
  refine (hrunning l hl (by rw [hp]; simp) hq).2.2 hbeat fun row hrow hlen => ?_
  rw [hrow.eq_of_length (hlen.trans hlength.symm)]
  exact hbeat

/-- Settings with a keepalive so long that twice of it leads past the end of the clock. -/
def unhurried : Settings :=
  { Settings.standard with
    keepalive := .ofSeconds 9000000000000000000, address := ⟨"redis://localhost"⟩ }

/-- The worker shows once that it is alive. -/
def shownOnce : List Event :=
  [.hire "w" "a" unhurried .text, .start "w" "main", .wake (.loop 0)]

/-- If twice the keepalive leads past the end of the clock, nobody can see the heartbeat of a worker that
has just shown that it is alive. -/
theorem heartbeat_unreadable :
    10 * Instant.milli ∣ unhurried.keepalive.nanos ∧ unhurried.expiry?.isSome = true ∧
      ((start ⟨5, 0⟩).run shownOnce).world.ready = [] ∧
      (∃ o ∈ ((start ⟨5, 0⟩).run shownOnce).log, o.Writes (heartbeatKey "a") ∧
        o.now ≤ ((start ⟨5, 0⟩).run shownOnce).world.now ∧
        ((start ⟨5, 0⟩).run shownOnce).world.now < o.now + 2 * unhurried.keepalive.nanos) ∧
      ((start ⟨5, 0⟩).run shownOnce).world.store.keys.look ((start ⟨5, 0⟩).run shownOnce).world.now
        (heartbeatKey "a") = .error .beyondClock := by
  refine ⟨by decide +kernel, by decide +kernel, by decide +kernel, by decide +kernel, ?_⟩
  rfl

end History

end StreamWorker
