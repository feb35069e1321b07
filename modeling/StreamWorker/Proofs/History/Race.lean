import StreamWorker.Proofs.History.Claims

/-! Publications that race for one key. Whoever claims the key first creates it, and since no time passes
everybody else finds it: one of them succeeds and all others are told that there is a result already. -/

namespace StreamWorker

/-! ### The record under a key -/

namespace Log

/-- The record that the last writer of a key has left. -/
def record? (l : List Occurrence) (key : String) : Option KeyRecord :=
  l.foldl (fun r o => if o.op.key? = some key then o.after.keys.records.get? key else r) none

theorem record?_append {l d : List Occurrence} {key : String}
    (hd : ∀ o ∈ d, o.op.key? ≠ some key) : record? (l ++ d) key = record? l key := by
  rw [record?, List.foldl_append, ← record?]
  generalize record? l key = r
  induction d generalizing r with
  | nil => rfl
  | cons o d ih =>
    rw [List.foldl_cons, if_neg (hd o List.mem_cons_self)]
    exact ih (fun p hp => hd p (List.mem_cons_of_mem _ hp)) r

end Log

namespace Chronicle

variable {l d : List Occurrence} {s s' : Store} {t t' : Nat}

theorem record_eq (h : Chronicle l s t) (key : String) :
    s.keys.records.get? key = Log.record? l key := by
  induction h with
  | start => rfl
  | quiet _ hsame _ ih => rw [hsame.keys, ih]
  | perform o _ ih =>
    rw [Log.record?, List.foldl_append, ← Log.record?]
    dsimp only [List.foldl_cons, List.foldl_nil]
    split
    · rfl
    · next hk => rw [← ih, Occurrence.after, (Store.perform_key_of_ne hk).1]

/-- A key stays as it is as long as nobody writes it. -/
theorem record_unwritten {key : String} (h : Chronicle l s t) (h' : Chronicle (l ++ d) s' t')
    (hd : ∀ o ∈ d, o.op.key? ≠ some key) : s'.keys.records.get? key = s.keys.records.get? key := by
  rw [h'.record_eq, h.record_eq, Log.record?_append hd]

end Chronicle

/-! ### Letting calls come to an end -/

/-- How many operations a call can still perform. -/
def Course.steps : Course → Nat
  | .running f => match f.stage with
    | .claiming .. => 2
    | _ => 1
  | .held _ | .ended _ => 0

theorem Course.steps_le (c : Course) : c.steps ≤ 2 := by
  unfold steps
  split
  · split <;> omega
  · omega
  · omega

theorem Flight.steps_ofReaction (f : Flight) (answer : Except Failure (f.worker.operation f.stage).Answer) :
    (Course.ofReaction f (f.worker.react f.stage answer)).steps ≤ (Course.running f).steps - 1 := by
  cases h : (f.worker.react f.stage answer).next with
  | inl stage =>
    obtain ⟨message, result, hs, rfl⟩ := Worker.react_next_stage h
    simp [Course.ofReaction, h, Course.steps, hs]
  | inr result => simp [Course.ofReaction, h, Course.steps]

theorem World.steps_stepFlight (w : World) (f : Flight) :
    (Course.ofStep f (w.stepFlight f).2).steps ≤ (Course.running f).steps - 1 := by
  by_cases hx : w.isCancelled f.token = true
  · rw [stepFlight_of_cancelled hx]
    exact Nat.zero_le _
  · rw [ofStep_stepFlight hx]
    cases (w.store.perform w.now w.clock (f.worker.operation f.stage)).2 with
    | answer a => exact f.steps_ofReaction (.ok a)
    | failure e => exact f.steps_ofReaction (.error e)
    | stalled => exact Nat.zero_le _
    | broken b => exact Nat.zero_le _

theorem World.steps_resume (w : World) (f : Flight) : (Course.ofStep f (w.resume f).2).steps = 0 := by
  rw [resume_eq]
  split
  · rfl
  · rw [Course.ofStep, if_pos rfl]
    rfl

namespace History

/-- How many operations the call of a number can still perform. -/
def left (h : History) (n : Nat) : Nat := (h.calls[n]?.map (·.course.steps)).getD 0

theorem left_mark (h : History) {n : Nat} {c : CallRecord} (hc : h.calls[n]? = some c)
    (course : Course) (w : World) (l : List Occurrence) (m : Nat) :
    left (mark { h with world := w, log := l } n c course) m =
      if m = n then course.steps else h.left m := by
  have hn : n < h.calls.length := (List.getElem?_eq_some_iff.mp hc).1
  rw [left, mark]
  dsimp only
  rw [List.getElem?_set]
  by_cases hm : m = n
  · subst hm
    simp [hn]
  · rw [if_neg (Ne.symm hm), if_neg hm, left]

/-- A call that is let go on comes closer to its end, and no other call is concerned. -/
theorem left_proceed (h : History) (n m : Nat) :
    (h.next (.proceed n)).left m ≤ h.left m - (if m = n then 1 else 0) := by
  rw [next]
  split
  · next c hc =>
    have hleft : h.left n = c.course.steps := by simp [left, hc]
    rw [proceed]
    cases hf : c.course with
    | running f =>
      dsimp only
      rw [left_mark h hc]
      split
      · next hm =>
        rw [hm, hleft, hf]
        exact World.steps_stepFlight h.world f
      · exact Nat.le_refl _
    | held f =>
      have hmark := left_mark h hc (.ofStep f (h.world.resume f).2) (h.world.resume f).1 h.log m
      dsimp only
      rw [hmark]
      split
      · rw [World.steps_resume]
        exact Nat.zero_le _
      · exact Nat.le_refl _
    | ended e =>
      dsimp only
      split
      · next hm =>
        rw [hm, hleft, hf]
        exact Nat.le_refl _
      · exact Nat.le_refl _
  · next hc =>
    split
    · next hm =>
      subst hm
      simp [left, hc]
    · exact Nat.le_refl _

theorem length_proceed (h : History) (n : Nat) : (h.next (.proceed n)).calls.length = h.calls.length := by
  rw [next]
  split
  · rw [proceed]
    split <;> simp [mark]
  · rfl

/-- Two operations for each of the calls. -/
def rounds (l : List Nat) : List Event := l.flatMap fun n => [.proceed n, .proceed n]

/-- Lets every call go on until it has ended or waits. -/
def finish (h : History) : History := h.run (rounds (List.range h.calls.length))

theorem run_rounds (h : History) (l : List Nat) :
    (h.run (rounds l)).calls.length = h.calls.length ∧
      ∀ m, (h.run (rounds l)).left m ≤ if m ∈ l then 0 else h.left m := by
  induction l generalizing h with
  | nil => exact ⟨rfl, fun m => by simp [rounds]⟩
  | cons n l ih =>
    have hcons : h.run (rounds (n :: l)) = ((h.next (.proceed n)).next (.proceed n)).run (rounds l) := rfl
    rw [hcons]
    obtain ⟨hlen, hleft⟩ := ih ((h.next (.proceed n)).next (.proceed n))
    refine ⟨by rw [hlen, length_proceed, length_proceed], fun m => ?_⟩
    have h1 := left_proceed h n m
    have h2 := left_proceed (h.next (.proceed n)) n m
    have h3 := hleft m
    have hmax : h.left m ≤ 2 := by
      rw [left]
      cases h.calls[m]? with
      | none => exact Nat.zero_le _
      | some c => exact c.course.steps_le
    by_cases hm : m = n
    · subst hm
      rw [if_pos rfl] at h1 h2
      rw [if_pos List.mem_cons_self]
      split at h3 <;> omega
    · rw [if_neg hm] at h1 h2
      by_cases hl : m ∈ l
      · rw [if_pos hl] at h3
        rw [if_pos (List.mem_cons_of_mem _ hl)]
        exact h3
      · rw [if_neg hl] at h3
        rw [if_neg (by simp [hm, hl])]
        omega

/-- In the end no call goes on. -/
theorem steps_finish {h : History} {n : Nat} {c : CallRecord} (hc : h.finish.calls[n]? = some c) :
    c.course.steps = 0 := by
  obtain ⟨hlen, hleft⟩ := run_rounds h (List.range h.calls.length)
  have hn : n < h.finish.calls.length := (List.getElem?_eq_some_iff.mp hc).1
  rw [finish, hlen] at hn
  have h0 := hleft n
  rw [if_pos (List.mem_range.mpr hn), ← finish, left, hc] at h0
  exact Nat.le_zero.mp h0

/-! ### What a run adds to the log -/

/-- The operations that took place after `h₀` up to `h`. -/
def since (h₀ h : History) : List Occurrence := h.log.drop h₀.log.length

theorem run_since (h : History) (es : List Event) :
    (h.run es).log = h.log ++ h.since (h.run es) ∧
      ∀ o ∈ h.since (h.run es), h.world.now ≤ o.now := by
  have hP : ∃ d, (h.run es).log = h.log ++ d ∧ (∀ o ∈ d, h.world.now ≤ o.now) ∧
      h.world.now ≤ (h.run es).world.now := by
    refine run_induction (P := fun h' => ∃ d, h'.log = h.log ++ d ∧
      (∀ o ∈ d, h.world.now ≤ o.now) ∧ h.world.now ≤ h'.world.now) ?_ ?_ es
    · exact ⟨[], (List.append_nil _).symm, by simp, Nat.le_refl _⟩
    · rintro h' e ⟨d, hlog, hd, hnow⟩
      have hle := (h'.next_leads e).now_le
      rcases h'.next_log e with ⟨hl, -⟩ | ⟨asker, op, hl, -⟩
      · exact ⟨d, by rw [hl, hlog], hd, Nat.le_trans hnow hle⟩
      · refine ⟨d ++ [h'.occurrence asker op], by rw [hl, hlog, List.append_assoc], fun o ho => ?_,
          Nat.le_trans hnow hle⟩
        rcases List.mem_append.mp ho with ho | ho
        · exact hd o ho
        · rw [List.mem_singleton.mp ho]
          exact hnow
  obtain ⟨d, hlog, hd, -⟩ := hP
  have hsince : h.since (h.run es) = d := by
    rw [since, hlog, List.drop_left]
  rw [hsince]
  exact ⟨hlog, hd⟩

/-! ### The race -/

/-- A call that was begun after `h₀` and publishes a result under a key. -/
structure Rival (h₀ h : History) (key : String) (n : Nat) (c : CallRecord) (text : String) : Prop where
  begun : h₀.calls.length ≤ n
  publishes : h.Publishes n c key text

/-- From `h₀` to `h` only the publications that were begun meanwhile write a key that was not there
before, and neither faults, time, cancellation nor impatience get in their way. -/
structure Race (h₀ h : History) (key : String) : Prop where
  free : h₀.world.store.keys.look h₀.world.now key = .ok none
  instant : h.world.now = h₀.world.now
  writers : ∀ o ∈ h₀.since h, o.op.key? = some key →
    ∃ n c text, o.asker = .call n ∧ Rival h₀ h key n c text
  unfaulted : ∀ o ∈ h₀.since h, o.store.Open .claim ∧ o.store.Open .acknowledge
  wanted : ∀ n c text, Rival h₀ h key n c text →
    h.world.isCancelled c.token = false ∧ c.course ≠ .ended .abandoned
  inRange : ∀ n c text, Rival h₀ h key n c text →
    h.world.now + c.worker.settings.retention.nanos < h.limit

end History

/-- How a publication has ended that nothing went wrong with. -/
theorem Publishing.outcome {gone : Prop} {w : Worker} {token key text : String} {l : List Occurrence}
    {c : Course} (h : Publishing gone w token key text l c) (hsteps : c.steps = 0) (hgone : ¬ gone)
    (hab : c ≠ .ended .abandoned)
    (ho : ∀ o ∈ l, o.store.Open .claim ∧ o.store.Open .acknowledge) :
    ∃ o, o ∈ l ∧ o.op = .claim key text w.settings.retention ∧
      (o.CameTo (.claim key text w.settings.retention) (.answer false) ∧
          c = .ended (.finished (.error (.resultExists key))) ∨
        (∃ b, o.CameTo (.claim key text w.settings.retention) (.broken b)) ∨
        o.Created key text w.settings.retention ∧ c = .ended (.finished (.ok .done))) := by
  cases h with
  | begun => cases hsteps
  | created => cases hsteps
  | waiting hc =>
    exact absurd hc.2 (Store.claim_of_open (ho _ List.mem_cons_self).1).1
  | unpublished hc =>
    exact absurd hc.2 ((Store.claim_of_open (ho _ List.mem_cons_self).1).2 _)
  | broken hc => exact ⟨_, List.mem_cons_self, hc.1, .inr (.inl ⟨_, hc⟩)⟩
  | refused hc => exact ⟨_, List.mem_cons_self, hc.1, .inl ⟨hc, rfl⟩⟩
  | unconfirmed _ hp =>
    exact absurd hp.2 (Store.acknowledge_of_open (ho _ (by simp)).2).1
  | unacknowledged _ hp =>
    exact absurd hp.2 ((Store.acknowledge_of_open (ho _ (by simp)).2).2 _)
  | done hc _ => exact ⟨_, List.mem_cons_self, hc.1, .inr (.inr ⟨hc, rfl⟩)⟩
  | givenUp _ _ he =>
    rcases he with rfl | ⟨-, hg⟩
    · exact absurd rfl hab
    · exact absurd hg hgone

namespace History.Race

variable {h₀ h : History} {key text : String} {n : Nat} {c : CallRecord} {o : Occurrence}

/-- The operations of a rival took place after the race began. -/
theorem since_of_trail (hS₀ : h₀.Sound) (hlog : h.log = h₀.log ++ h₀.since h)
    (hr : Rival h₀ h key n c text) (ho : o ∈ h.trail n) : o ∈ h₀.since h := by
  obtain ⟨hmem, hasker⟩ := mem_trail.mp ho
  rw [hlog] at hmem
  rcases List.mem_append.mp hmem with hmem | hmem
  · have hlt := hS₀.callers o hmem n hasker
    have hge := hr.begun
    omega
  · exact hmem

/-- Whatever writes the key is a rival's claim. -/
theorem claim_of_writes (hR : Race h₀ h key) (hS : h.Sound)
    (hlog : h.log = h₀.log ++ h₀.since h) (ho : o ∈ h₀.since h) (hk : o.op.key? = some key) :
    ∃ n c text, o.asker = .call n ∧ Rival h₀ h key n c text ∧
      o.op = .claim key text c.worker.settings.retention := by
  obtain ⟨n, c, text, hasker, hr⟩ := hR.writers o ho hk
  have hmem : o ∈ h.trail n := mem_trail.mpr ⟨by rw [hlog]; exact List.mem_append_right _ ho, hasker⟩
  exact ⟨n, c, text, hasker, hr, (hS.publishing hr.publishes).claim_of_key hmem hk⟩

/-- No time passes from the first operation of the race to the last. -/
theorem at_instant (hR : Race h₀ h key) (hC : Chronicle h.log h.world.store h.world.now)
    (hlog : h.log = h₀.log ++ h₀.since h) (hnow : ∀ o ∈ h₀.since h, h₀.world.now ≤ o.now)
    (ho : o ∈ h₀.since h) : o.now = h₀.world.now := by
  have hmem : o ∈ h.log := by
    rw [hlog]
    exact List.mem_append_right _ ho
  have hle := hC.now_le hmem
  rw [hR.instant] at hle
  exact Nat.le_antisymm hle (hnow o ho)

/-- Whoever is the first to write the key finds nothing there, and creates it. -/
theorem first_creates {d₁ d₂ : List Occurrence} (hR : Race h₀ h key)
    (hC₀ : Chronicle h₀.log h₀.world.store h₀.world.now)
    (hC : Chronicle h.log h.world.store h.world.now) (hS : h.Sound)
    (hlimit : h.limit = h₀.limit) (hlog : h.log = h₀.log ++ h₀.since h)
    (hnow : ∀ p ∈ h₀.since h, h₀.world.now ≤ p.now) (hd : h₀.since h = d₁ ++ o :: d₂)
    (hk : o.op.key? = some key)
    (hfirst : ∀ p ∈ d₁, p.op.key? ≠ some key) :
    ∃ n c text, Rival h₀ h key n c text ∧ o ∈ h.trail n ∧
      o.Created key text c.worker.settings.retention := by
  have ho : o ∈ h₀.since h := by simp [hd]
  have hl : h.log = (h₀.log ++ d₁) ++ o :: d₂ := by rw [hlog, hd, List.append_assoc]
  obtain ⟨n, c, text, hasker, hr, hop⟩ := claim_of_writes hR hS hlog ho hk
  have hfree : o.store.keys.look o.now key = .ok none := by
    rw [at_instant hR hC hlog hnow ho,
      Keyspace.look_congr (by rw [hC.limit_eq (by simp [hl])]; exact hlimit)
        (hC₀.record_unwritten (hC.before hl).1 hfirst)]
    exact hR.free
  have htrail : o ∈ h.trail n := mem_trail.mpr ⟨by simp [hl], hasker⟩
  exact ⟨n, c, text, hr, htrail, hop, Store.claim_true_iff.mpr ⟨(hR.unfaulted o ho).1, hfree⟩⟩

/-- Whoever claims the key after it was created is refused. -/
theorem later_refused {d₁ d₂ : List Occurrence} {p : Occurrence} (hR : Race h₀ h key)
    (hC : Chronicle h.log h.world.store h.world.now) (hS : h.Sound)
    (hlog : h.log = h₀.log ++ h₀.since h) (hnow : ∀ p ∈ h₀.since h, h₀.world.now ≤ p.now)
    (hd : h₀.since h = d₁ ++ o :: d₂) (hr : Rival h₀ h key n c text)
    (hc : o.Created key text c.worker.settings.retention) (hp : p ∈ d₂) {value : String}
    {ttl : Duration} {answer : Response Bool} (ha : p.CameTo (.claim key value ttl) answer) :
    answer = .answer false := by
  have ho : o ∈ h₀.since h := by simp [hd]
  have hp' : p ∈ h₀.since h := by simp [hd, hp]
  have hl : h.log = (h₀.log ++ d₁) ++ o :: d₂ := by rw [hlog, hd, List.append_assoc]
  have hsets : ∀ q ∈ d₂, ¬ q.Sets key := by
    rintro q hq ⟨value, ttl, hset⟩
    have hq' : q ∈ h₀.since h := by simp [hd, hq]
    obtain ⟨_, _, _, _, _, hclaim⟩ := claim_of_writes hR hS hlog hq' (by rw [hset]; rfl)
    rw [hset] at hclaim
    cases hclaim
  have hpos := Settings.retention_pos (hS.calls n c hr.publishes.1).checked
  have hrange := hR.inRange n c text hr
  have hin : p.now < o.now + c.worker.settings.retention.nanos := by
    rw [at_instant hR hC hlog hnow hp', at_instant hR hC hlog hnow ho]
    omega
  have hlim : o.now + c.worker.settings.retention.nanos < h.limit := by
    rw [at_instant hR hC hlog hnow ho, ← hR.instant]
    exact hrange
  have hopen := (hR.unfaulted p hp').1
  rcases hC.claim_refused hl hp hc hsets hin hlim ha with he | he | ⟨reason, he⟩
  · exact he
  · rw [he] at ha
    exact absurd ha.2 (Store.claim_of_open hopen).1
  · rw [he] at ha
    exact absurd ha.2 ((Store.claim_of_open hopen).2 _)

/-- The first claim of the race writes, and every later one is refused. -/
theorem first_claim (hR : Race h₀ h key) (hC₀ : Chronicle h₀.log h₀.world.store h₀.world.now)
    (hC : Chronicle h.log h.world.store h.world.now) (hS : h.Sound)
    (hlimit : h.limit = h₀.limit) (hlog : h.log = h₀.log ++ h₀.since h)
    (hnow : ∀ o ∈ h₀.since h, h₀.world.now ≤ o.now) (ho : o ∈ h₀.since h)
    (hk : o.op.key? = some key) :
    ∃ n c text w, Rival h₀ h key n c text ∧ w ∈ h.trail n ∧
      w.Created key text c.worker.settings.retention ∧
      ∀ p ∈ h₀.since h, p.asker ≠ w.asker → ∀ value ttl answer,
        p.CameTo (.claim key value ttl) answer → answer = .answer false := by
  -- take the first operation that writes the key
  obtain ⟨w, hw⟩ : ∃ w, (h₀.since h).find? (fun p => p.op.key? = some key) = some w := by
    cases hf : (h₀.since h).find? (fun p => p.op.key? = some key) with
    | some w => exact ⟨w, rfl⟩
    | none => exact absurd hk (by simpa using List.find?_eq_none.mp hf o ho)
  obtain ⟨hwk, d₁, d₂, hd, hfirst⟩ := List.find?_eq_some_iff_append.mp hw
  have hwk' : w.op.key? = some key := by simpa using hwk
  have hfirst' : ∀ p ∈ d₁, p.op.key? ≠ some key := fun p hp => by simpa using hfirst p hp
  obtain ⟨n, c, text, hr, htrail, hcreated⟩ :=
    first_creates hR hC₀ hC hS hlimit hlog hnow hd hwk' hfirst'
  refine ⟨n, c, text, w, hr, htrail, hcreated, fun p hp hne value ttl answer ha => ?_⟩
  have hp₂ : p ∈ d₂ := by
    rw [hd] at hp
    rcases List.mem_append.mp hp with hp | hp
    · exact absurd (by rw [ha.1]; rfl) (hfirst' p hp)
    · rcases List.mem_cons.mp hp with rfl | hp
      · exact absurd rfl hne
      · exact hp
  exact later_refused hR hC hS hlog hnow hd hr hcreated hp₂ ha

/-- Of the rivals exactly one succeeds, and the others are told that there is a result. -/
theorem one_winner (hR : Race h₀ h key) (hC₀ : Chronicle h₀.log h₀.world.store h₀.world.now)
    (hC : Chronicle h.log h.world.store h.world.now) (hS₀ : h₀.Sound) (hS : h.Sound)
    (hlimit : h.limit = h₀.limit) (hlog : h.log = h₀.log ++ h₀.since h)
    (hnow : ∀ o ∈ h₀.since h, h₀.world.now ≤ o.now)
    (hsteps : ∀ (n : Nat) (c : CallRecord), h.calls[n]? = some c → c.course.steps = 0)
    (hsome : ∃ n c text, Rival h₀ h key n c text) :
    ∃ n c text, Rival h₀ h key n c text ∧ c.course = .ended (.finished (.ok .done)) ∧
      ∀ m d text', Rival h₀ h key m d text' → m ≠ n →
        d.course = .ended (.finished (.error (.resultExists key))) := by
  -- every rival has claimed, and how it has ended follows from what its claim came to
  have hout {m : Nat} {d : CallRecord} {text' : String} (hr : Rival h₀ h key m d text') :=
    (hS.publishing hr.publishes).outcome (hsteps m d hr.publishes.1)
      (by simp [(hR.wanted m d text' hr).1]) (hR.wanted m d text' hr).2
      (fun p hp => hR.unfaulted p (since_of_trail hS₀ hlog hr hp))
  obtain ⟨m, d, text', hr⟩ := hsome
  obtain ⟨o, hmem, hop, -⟩ := hout hr
  obtain ⟨n, c, text, w, hrn, hwn, hcreated, hothers⟩ :=
    first_claim hR hC₀ hC hS hlimit hlog hnow (since_of_trail hS₀ hlog hr hmem) (by rw [hop]; rfl)
  have hwasker : w.asker = .call n := (mem_trail.mp hwn).2
  refine ⟨n, c, text, hrn, ?_, fun m' d' text'' hr' hne => ?_⟩
  · obtain ⟨o', hmem', hop', hcase⟩ := hout hrn
    obtain rfl := (hS.publishing hrn.publishes).claim_unique hmem' hwn hop' hcreated.1
    rcases hcase with ⟨hc, -⟩ | ⟨b, hb⟩ | ⟨-, hcourse⟩
    · cases hcreated.2.symm.trans hc.2
    · cases hcreated.2.symm.trans hb.2
    · exact hcourse
  · obtain ⟨o', hmem', hop', hcase⟩ := hout hr'
    have hasker' : o'.asker ≠ w.asker := by
      rw [(mem_trail.mp hmem').2, hwasker]
      intro he
      cases he
      exact hne rfl
    have hrefused := hothers o' (since_of_trail hS₀ hlog hr' hmem') hasker'
    rcases hcase with ⟨-, hcourse⟩ | ⟨b, hb⟩ | ⟨hc, -⟩
    · exact hcourse
    · cases hrefused _ _ _ hb
    · cases hrefused _ _ _ hc

end History.Race

namespace History

theorem race_has_one_winner {clock : Clock} {es₀ es : List Event} {key : String}
    (hR : Race ((start clock).run es₀) (((start clock).run es₀).run es).finish key)
    (hsome : ∃ n c text,
      Rival ((start clock).run es₀) (((start clock).run es₀).run es).finish key n c text) :
    ∃ n c text, Rival ((start clock).run es₀) (((start clock).run es₀).run es).finish key n c text ∧
      c.course = .ended (.finished (.ok .done)) ∧
      ∀ m d text', Rival ((start clock).run es₀) (((start clock).run es₀).run es).finish key m d text' →
        m ≠ n → d.course = .ended (.finished (.error (.resultExists key))) := by
  obtain ⟨rest, hrest⟩ : ∃ rest,
      (((start clock).run es₀).run es).finish = ((start clock).run es₀).run rest :=
    ⟨_, (run_append _ _ _).symm⟩
  have hsteps : ∀ (n : Nat) (c : CallRecord),
      (((start clock).run es₀).run es).finish.calls[n]? = some c → c.course.steps = 0 :=
    fun n c hc => steps_finish hc
  rw [hrest] at hR hsome hsteps ⊢
  have hC := chronicle clock (es₀ ++ rest)
  have hS := sound clock (es₀ ++ rest)
  rw [run_append] at hC hS
  obtain ⟨hlog, hnow⟩ := run_since ((start clock).run es₀) rest
  have hlimit : (((start clock).run es₀).run rest).limit = ((start clock).run es₀).limit := by
    rw [← run_append, limit_run, limit_run]
  exact Race.one_winner hR (chronicle clock es₀) hC (sound clock es₀) hS hlimit hlog hnow hsteps hsome

/-- The first writer of a key that nobody sets wins. -/
theorem first_writer_wins (clock : Clock) (es : List Event) (key : String)
    (hs : ∀ o ∈ ((start clock).run es).log, ¬ o.Sets key) :
    let h := (start clock).run es
    -- from a claim that wrote until its time is up, the key stays as it is and all others fail
    (∀ l₁ o l₂ value ttl, h.log = l₁ ++ o :: l₂ → o.Created key value ttl →
      o.now + ttl.nanos < clock.limit →
      (h.world.now < o.now + ttl.nanos →
        h.world.store.keys.look h.world.now key = .ok (some ⟨value, ttl, o.now⟩)) ∧
      (∀ p ∈ l₂, ∀ value' ttl' answer, p.now < o.now + ttl.nanos →
        p.CameTo (.claim key value' ttl') answer →
        answer = .answer false ∨ answer = .stalled ∨ ∃ reason, answer = .failure (.store reason)) ∧
      (h.world.now < o.now + ttl.nanos → ∀ n c text e, h.Publishes n c key text →
        o.asker ≠ .call n → o.now ≤ c.begun → c.course = .ended e →
        e = .abandoned ∨ ∃ f, e = .finished (.error f))) ∧
    -- publications that both create the key are the retention of the first apart
    (∀ n c text m d text' o p, n ≠ m → h.Publishes n c key text → h.Publishes m d key text' →
      o ∈ h.trail n → p ∈ h.trail m → o.Created key text c.worker.settings.retention →
      p.Created key text' d.worker.settings.retention → o.now ≤ p.now →
      o.now + c.worker.settings.retention.nanos ≤ p.now) ∧
    -- of those that race for the key at one instant, exactly one succeeds
    (∀ es₀ es₁, es = es₀ ++ es₁ → Race ((start clock).run es₀) h.finish key →
      (∃ n c text, Rival ((start clock).run es₀) h.finish key n c text) →
      ∃ n c text, Rival ((start clock).run es₀) h.finish key n c text ∧
        c.course = .ended (.finished (.ok .done)) ∧
        ∀ m d text', Rival ((start clock).run es₀) h.finish key m d text' → m ≠ n →
          d.course = .ended (.finished (.error (.resultExists key)))) := by
  have hC := chronicle clock es
  have hS := sound clock es
  rw [← limit_run clock es]
  refine ⟨fun l₁ o l₂ value ttl hl hc hx => ⟨fun hlt => ?_, fun p hp value' ttl' answer hlt ha => ?_,
    fun hlt n c text e hp hne hb he => ?_⟩,
    fun n c text m d text' o p hnm _ hd ho hp hoc hpc hle => ?_, fun es₀ es₁ hes hR hsome => ?_⟩
  · have hs₂ : ∀ q ∈ l₂, ¬ q.Sets key := fun q hq => hs q (by simp [hl, hq])
    have hr := hC.record_stays hl (Occurrence.record_of_created hc) hs₂ (.inl hlt)
    exact Keyspace.look_of_live hr hx hlt
  · have hs₂ : ∀ q ∈ l₂, ¬ q.Sets key := fun q hq => hs q (by simp [hl, hq])
    exact hC.claim_refused hl hp hc hs₂ hlt hx ha
  · have ho : o ∈ ((start clock).run es).log := by rw [hl]; simp
    exact publication_fails hC hS hs ho hc hx hlt hp hne hb he
  · exact publications_apart hC hS hs hd hnm ho hp hoc hpc hle
  · rw [hes, run_append] at hR hsome ⊢
    exact race_has_one_winner hR hsome

/-! ### A duel -/

def contestants : List Event :=
  [.hire "v" "a" { Settings.standard with address := ⟨"redis://localhost"⟩ } .text,
    .hire "w" "b" { Settings.standard with address := ⟨"redis://localhost"⟩ } .text]

/-- Two workers begin to publish, and the second one claims first. -/
def duel : List Event :=
  [.begin "v" "main" (.publish "job" "A"), .begin "w" "main" (.publish "job" "B"), .proceed 1,
    .proceed 0]

theorem duel_race :
    Race ((start ⟨5, 0⟩).run contestants) ((start ⟨5, 0⟩).run (contestants ++ duel)).finish "job" where
  free := by rfl
  instant := by rfl
  writers o ho hk := by
    have hasker : ∀ p ∈ since ((start ⟨5, 0⟩).run contestants)
        ((start ⟨5, 0⟩).run (contestants ++ duel)).finish,
        p.asker = .call 0 ∨ p.asker = .call 1 := by decide +kernel
    rcases hasker o ho with h | h
    · exact ⟨0, _, "A", h, by decide +kernel, rfl, rfl⟩
    · exact ⟨1, _, "B", h, by decide +kernel, rfl, rfl⟩
  unfaulted := by decide +kernel
  wanted n c text hr := by
    obtain ⟨-, hc, -⟩ := hr
    match n, hc with
    | 0, hc => cases hc; exact ⟨by decide +kernel, fun h => by cases h⟩
    | 1, hc => cases hc; exact ⟨by decide +kernel, fun h => by cases h⟩
  inRange n c text hr := by
    obtain ⟨-, hc, -⟩ := hr
    match n, hc with
    | 0, hc => cases hc; decide +kernel
    | 1, hc => cases hc; decide +kernel

theorem first_writer_wins_duel :
    ((start ⟨5, 0⟩).run (contestants ++ duel)).world.store.keys.look 0 "job" =
        .ok (some ⟨"B", .ofSeconds 3600, 0⟩) ∧
      ∃ n c text, Rival ((start ⟨5, 0⟩).run contestants) ((start ⟨5, 0⟩).run (contestants ++ duel)).finish
          "job" n c text ∧
        c.course = .ended (.finished (.ok .done)) ∧
        ∀ m d text', Rival ((start ⟨5, 0⟩).run contestants)
          ((start ⟨5, 0⟩).run (contestants ++ duel)).finish "job" m d text' → m ≠ n →
          d.course = .ended (.finished (.error (.resultExists "job"))) := by
  have hops : ((start ⟨5, 0⟩).run (contestants ++ duel)).log.map (·.op) =
      [.claim "job" "B" (.ofSeconds 3600), .claim "job" "A" (.ofSeconds 3600)] := by decide +kernel
  have hs : ∀ o ∈ ((start ⟨5, 0⟩).run (contestants ++ duel)).log, ¬ o.Sets "job" := by
    rintro o ho ⟨value, ttl, hset⟩
    have hmem : o.op ∈ ((start ⟨5, 0⟩).run (contestants ++ duel)).log.map (·.op) :=
      List.mem_map.mpr ⟨o, ho, rfl⟩
    rw [hops, hset] at hmem
    simp at hmem
  obtain ⟨hwindow, -, hrace⟩ := first_writer_wins ⟨5, 0⟩ (contestants ++ duel) "job" hs
  refine ⟨?_, hrace contestants duel rfl duel_race ⟨0, _, "A", by decide +kernel, rfl, rfl⟩⟩
  have hfirst := hwindow [] (((start ⟨5, 0⟩).run (contestants ++ duel)).log.get ⟨0, by decide +kernel⟩)
    (((start ⟨5, 0⟩).run (contestants ++ duel)).log.drop 1) "B" (.ofSeconds 3600) rfl
    ⟨by decide +kernel, by decide +kernel⟩ (by decide +kernel)
  exact hfirst.1 (by decide +kernel)

end History

end StreamWorker
