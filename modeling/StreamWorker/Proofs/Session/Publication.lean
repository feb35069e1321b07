import StreamWorker.Proofs.Session.Flight
import StreamWorker.Proofs.Store.Stream

/-! A publication on its own. It runs, without anything in between, until it has ended or an operation of
it has stalled; a stalled one ends when it is cancelled or its caller gives up, and leaves the store alone
by then. What it has made of the store follows from how it ended: nothing, the key of the result, or the
key and the acknowledgment. -/

namespace StreamWorker

/-- The store with the result of a publication in it. -/
def Store.withResult (s : Store) (now : Nat) (worker : Worker) (message result : String) : Store :=
  { s with keys := s.keys.put now message result worker.settings.retention }

/-- The store once the worker has acknowledged a message. -/
def Store.settled (s : Store) (worker : Worker) (message : String) : Store :=
  (s.acknowledge worker.settings.stream worker.settings.group message).1

namespace World

variable {w : World} {e : Ending Success}

/-! ### Running a call -/

/-- A call that is let go on stops if its next operation ends or holds it. -/
theorem runFlight_succ (n : Nat) (f : Flight) (w : World) :
    runFlight (n + 1) f w = match Course.ofStep f (w.stepFlight f).2 with
      | .ended e => ((w.stepFlight f).1, .inr e)
      | .held g => ((w.stepFlight f).1, .inl g)
      | .running g => runFlight n g (w.stepFlight f).1 := by
  rw [runFlight]
  cases w.stepFlight f with
  | mk v next =>
    cases next with
    | inr e => rfl
    | inl g =>
      by_cases hg : g = f
      · subst hg
        simp [Course.ofStep]
      · simp [Course.ofStep, hg]

/-! ### Beginning a publication -/

/-- Where a publication is whose claim has come to this, unless it wrote. -/
def claimed (worker : Worker) (token message result : String) :
    Response Bool → Flight ⊕ Ending Success
  | .answer _ => .inr (.finished (.error (.resultExists message)))
  | .failure f => .inr (.finished (.error (f.within (.unpublished message))))
  | .stalled => .inl ⟨worker, token, .claiming message result⟩
  | .broken b => .inr (.broken b)

/-- Where a publication is whose acknowledgment has come to this. -/
def confirmed (worker : Worker) (token message : String) :
    Response UInt64 → Flight ⊕ Ending Success
  | .answer _ => .inr (.finished (.ok .done))
  | .failure f => .inr (.finished (.error (f.within (.unacknowledged message))))
  | .stalled => .inl ⟨worker, token, .acknowledging message⟩
  | .broken b => .inr (.broken b)

variable {worker : Worker} {token message result : String}

theorem begin_publish (w : World) (worker : Worker) (token message result : String) :
    w.begin worker token (.publish message result) =
      runFlight 2 ⟨worker, token, .claiming message result⟩ w := rfl

theorem begin_of_cancelled (worker : Worker) (message result : String)
    (hx : w.isCancelled token = true) :
    ∃ v, w.begin worker token (.publish message result) =
        (v, .inr (.finished (.error .cancelled))) ∧ v.store = w.store := by
  have hx' : w.isCancelled (Flight.mk worker token (.claiming message result)).token = true := hx
  rw [begin_publish, runFlight_succ, stepFlight_of_cancelled hx']
  exact ⟨_, rfl, notes_store ..⟩

section Claim
variable {response : Response Bool} {store : Store}

/-- A publication whose claim does not write is decided by it. -/
theorem begin_of_claim (hx : ¬ w.isCancelled token = true)
    (hc : w.store.claim w.now message result worker.settings.retention = (store, response))
    (hne : response ≠ .answer true) :
    ∃ v, v.store = store ∧ w.begin worker token (.publish message result) =
      (v, claimed worker token message result response) := by
  have hx' : ¬ w.isCancelled (Flight.mk worker token (.claiming message result)).token = true := hx
  obtain ⟨hstore, hcourse⟩ := stepFlight_of_perform hx' hc
  refine ⟨_, hstore, ?_⟩
  rw [begin_publish, runFlight_succ, hcourse]
  match response, hne with
  | .answer false, _ => rfl
  | .failure f, _ => rfl
  | .stalled, _ => rfl
  | .broken b, _ => rfl

end Claim

/-- A publication whose claim has written is decided by its acknowledgment. -/
theorem begin_of_created {response : Response UInt64} {store : Store}
    (hx : ¬ w.isCancelled token = true)
    (hc : w.store.claim w.now message result worker.settings.retention =
      (w.store.withResult w.now worker message result, .answer true))
    (ha : (w.store.withResult w.now worker message result).acknowledge worker.settings.stream
      worker.settings.group message = (store, response)) :
    ∃ v, v.store = store ∧ w.begin worker token (.publish message result) =
      (v, confirmed worker token message response) := by
  have hx' : ¬ w.isCancelled (Flight.mk worker token (.claiming message result)).token = true := hx
  obtain ⟨hstore, hcourse⟩ := stepFlight_of_perform hx' hc
  obtain ⟨trace, ledger, hw⟩ := stepFlight_eq w ⟨worker, token, .claiming message result⟩
  rw [hstore] at hw
  rw [begin_publish, runFlight_succ, hcourse, hw]
  -- the second operation takes place in the same state but for the result and what was reported
  generalize hw₁ : ({ w with
    store := w.store.withResult w.now worker message result, trace, ledger } : World) = w₁
  have hx₁ : ¬ w₁.isCancelled (Flight.mk worker token (.acknowledging message)).token = true := by
    rw [← hw₁]
    exact hx
  have hperform₁ : w₁.store.perform w₁.now w₁.clock (worker.operation (.acknowledging message)) =
      (store, response) := by
    rw [← hw₁]
    exact ha
  obtain ⟨hstore₁, hcourse₁⟩ := stepFlight_of_perform hx₁ hperform₁
  have hrun := runFlight_succ 0 ⟨worker, token, .acknowledging message⟩ w₁
  rw [hcourse₁] at hrun
  refine ⟨_, hstore₁, ?_⟩
  cases response with
  | answer k => exact hrun
  | failure f => exact hrun
  | stalled => exact hrun
  | broken b => exact hrun

/-! ### How a publication ends -/

/-- A publication that is begun in `w` ends with `e`, and the store is `s` when it no longer concerns it:
at once, or after it has waited, when its token is cancelled or when its caller gives up. -/
inductive PublicationEnds (w : World) (worker : Worker) (token message result : String) :
    Store → Ending Success → Prop where
  | atOnce {v : World} {e : Ending Success} :
    w.begin worker token (.publish message result) = (v, .inr e) →
    PublicationEnds w worker token message result v.store e
  | cancelled {v u u' : World} {f : Flight} {e : Ending Success} :
    w.begin worker token (.publish message result) = (v, .inl f) → u.resume f = (u', .inr e) →
    PublicationEnds w worker token message result v.store e
  | abandoned {v : World} {f : Flight} :
    w.begin worker token (.publish message result) = (v, .inl f) →
    PublicationEnds w worker token message result v.store .abandoned

/-- The claim of a publication writes the key. -/
def Writes (w : World) (token message : String) : Prop :=
  ¬ w.isCancelled token = true ∧ w.store.Open .claim ∧ w.store.keys.look w.now message = .ok none

theorem Writes.not_live (h : w.Writes token message) :
    ¬ ∃ r, w.store.keys.look w.now message = .ok (some r) := by
  rintro ⟨r, hr⟩
  have := h.2.2.symm.trans hr
  cases this

/-- What a publication makes of the store, and how it ends. -/
inductive Outcome (w : World) (worker : Worker) (token message result : String) :
    Store → Ending Success → Prop where
  /-- It was cancelled before, or in a stalled claim, or its caller gave up there. -/
  | unbegun {e : Ending Success} : e = .abandoned ∨ e = .finished (.error .cancelled) →
    w.isCancelled token = true ∨ .claim ∈ w.store.stalled →
    Outcome w worker token message result w.store e
  | unpublished {reason : String} : ¬ w.isCancelled token = true → .claim ∉ w.store.stalled →
    w.store.failing.get? .claim = some reason →
    Outcome w worker token message result w.store
      (.finished (.error (.unpublished message (.store reason))))
  | refused {r : KeyRecord} : ¬ w.isCancelled token = true → w.store.Open .claim →
    w.store.keys.look w.now message = .ok (some r) →
    Outcome w worker token message result w.store (.finished (.error (.resultExists message)))
  /-- It was cancelled, or its caller gave up, in a stalled acknowledgment. -/
  | unconfirmed {e : Ending Success} : e = .abandoned ∨ e = .finished (.error .cancelled) →
    w.Writes token message → .acknowledge ∈ w.store.stalled →
    Outcome w worker token message result (w.store.withResult w.now worker message result) e
  | unacknowledged {reason : String} : w.Writes token message → .acknowledge ∉ w.store.stalled →
    w.store.failing.get? .acknowledge = some reason →
    Outcome w worker token message result (w.store.withResult w.now worker message result)
      (.finished (.error (.unacknowledged message (.store reason))))
  | done : w.Writes token message → w.store.Open .acknowledge →
    Outcome w worker token message result
      ((w.store.withResult w.now worker message result).settled worker message)
      (.finished (.ok .done))

/-- Where a publication is once it was begun: it has ended, or it waits for a stalled operation. -/
def Begun (w : World) (worker : Worker) (token message result : String) (v : World) :
    Flight ⊕ Ending Success → Prop
  | .inr e => Outcome w worker token message result v.store e
  | .inl f => f.token = token ∧
    (¬ w.isCancelled token = true ∧ .claim ∈ w.store.stalled ∧ v.store = w.store ∨
      w.Writes token message ∧ .acknowledge ∈ w.store.stalled ∧
        v.store = w.store.withResult w.now worker message result)

theorem begun_of_outcome {v : World} {s : Store} (hv : v.store = s)
    (h : Outcome w worker token message result s e) :
    w.Begun worker token message result v (.inr e) := by
  rw [← hv] at h
  exact h

/-- What a publication comes to whose claim has written. -/
theorem begin_after_claim (hw : w.Writes token message)
    (hclaim : w.store.claim w.now message result worker.settings.retention =
      (w.store.withResult w.now worker message result, .answer true)) :
    ∃ v next, w.begin worker token (.publish message result) = (v, next) ∧
      w.Begun worker token message result v next := by
  generalize hmade : w.store.withResult w.now worker message result = made at hclaim
  have hstalled : made.stalled = w.store.stalled := by rw [← hmade]; rfl
  have hfailing : made.failing = w.store.failing := by rw [← hmade]; rfl
  rcases Store.fault_cases made .acknowledge with hf | ⟨reason, hn, hf⟩ | ho
  · have hack : made.acknowledge worker.settings.stream worker.settings.group message =
        (made, .stalled) := Store.gate_of_stalled hf
    rw [← hmade] at hclaim hack
    obtain ⟨v, hv, hb⟩ := begin_of_created hw.1 hclaim hack
    exact ⟨v, _, hb, rfl, .inr ⟨hw, hstalled ▸ hf, hv⟩⟩
  · have hack : made.acknowledge worker.settings.stream worker.settings.group message =
        (made, .failure (.store reason)) := Store.gate_of_failing hn hf
    rw [← hmade] at hclaim hack
    obtain ⟨v, hv, hb⟩ := begin_of_created hw.1 hclaim hack
    have hout : Outcome w worker token message result (w.store.withResult w.now worker message result)
        (.finished (.error (.unacknowledged message (.store reason)))) :=
      .unacknowledged hw (hstalled ▸ hn) (hfailing ▸ hf)
    exact ⟨v, _, hb, begun_of_outcome hv hout⟩
  · obtain ⟨k, hk⟩ : ∃ k, (made.acknowledge worker.settings.stream worker.settings.group message).2 =
        .answer k := by
      by_cases hp : message ∈ made.pending worker.settings.stream worker.settings.group
      · obtain ⟨g, hg, hp'⟩ := Store.mem_pending.mp hp
        exact ⟨1, by rw [Store.acknowledge_of_pending ho hg hp']⟩
      · exact ⟨0, by rw [Store.acknowledge_of_not_pending ho hp]⟩
    have hack : made.acknowledge worker.settings.stream worker.settings.group message =
        (made.settled worker message, .answer k) := Prod.ext rfl hk
    have ho' : w.store.Open .acknowledge := by
      rwa [Store.Open, hstalled, hfailing] at ho
    rw [← hmade] at hclaim hack
    obtain ⟨v, hv, hb⟩ := begin_of_created hw.1 hclaim hack
    exact ⟨v, _, hb, begun_of_outcome hv (.done hw ho')⟩

/-- What the beginning of a publication comes to. -/
theorem begin_cases (w : World) (worker : Worker) (token message result : String)
    (hx : ∀ r, w.store.keys.records.get? message = some r → r.expiry < w.store.keys.limit) :
    ∃ v next, w.begin worker token (.publish message result) = (v, next) ∧
      w.Begun worker token message result v next := by
  by_cases hc : w.isCancelled token = true
  · obtain ⟨v, hb, hv⟩ := begin_of_cancelled worker message result hc
    have hout : Outcome w worker token message result w.store (.finished (.error .cancelled)) :=
      .unbegun (.inr rfl) (.inl hc)
    exact ⟨v, _, hb, begun_of_outcome hv hout⟩
  · rcases Store.fault_cases w.store .claim with hf | ⟨reason, hn, hf⟩ | ho
    · have hclaim : w.store.claim w.now message result worker.settings.retention =
          (w.store, .stalled) := Store.gate_of_stalled hf
      obtain ⟨v, hv, hb⟩ := begin_of_claim hc hclaim (by simp)
      exact ⟨v, _, hb, rfl, .inl ⟨hc, hf, hv⟩⟩
    · have hclaim : w.store.claim w.now message result worker.settings.retention =
          (w.store, .failure (.store reason)) := Store.gate_of_failing hn hf
      obtain ⟨v, hv, hb⟩ := begin_of_claim hc hclaim (by simp)
      have hout : Outcome w worker token message result w.store
          (.finished (.error (.unpublished message (.store reason)))) := .unpublished hc hn hf
      exact ⟨v, _, hb, begun_of_outcome hv hout⟩
    · cases hl : w.store.keys.look w.now message with
      | error b =>
        obtain ⟨r, hr, hlim⟩ := Keyspace.look_error hl
        exact absurd (hx r hr) (Nat.not_lt.mpr hlim)
      | ok found =>
        cases found with
        | some r =>
          have hclaim : w.store.claim w.now message result worker.settings.retention =
              (w.store, .answer false) := Store.claim_of_present ho hl
          obtain ⟨v, hv, hb⟩ := begin_of_claim hc hclaim (by simp)
          have hout : Outcome w worker token message result w.store
              (.finished (.error (.resultExists message))) := .refused hc ho hl
          exact ⟨v, _, hb, begun_of_outcome hv hout⟩
        | none =>
          have hclaim : w.store.claim w.now message result worker.settings.retention =
              (w.store.withResult w.now worker message result, .answer true) :=
            Store.claim_of_absent ho hl
          exact begin_after_claim ⟨hc, ho, hl⟩ hclaim

/-- However a publication ends, it is one of the outcomes. -/
theorem outcome_of_ends {s : Store}
    (hx : ∀ r, w.store.keys.records.get? message = some r → r.expiry < w.store.keys.limit)
    (h : w.PublicationEnds worker token message result s e) :
    Outcome w worker token message result s e := by
  obtain ⟨v, next, hb, hbegun⟩ := begin_cases w worker token message result hx
  have hwaits {v' : World} {f : Flight} {e' : Ending Success}
      (hb' : w.begin worker token (.publish message result) = (v', .inl f))
      (he : e' = .abandoned ∨ e' = .finished (.error .cancelled)) :
      Outcome w worker token message result v'.store e' := by
    rw [hb] at hb'
    cases hb'
    rcases hbegun.2 with ⟨-, hstalled, hv⟩ | ⟨hw, hstalled, hv⟩
    · rw [hv]
      exact .unbegun he (.inr hstalled)
    · rw [hv]
      exact .unconfirmed he hw hstalled
  cases h with
  | atOnce hb' =>
    rw [hb] at hb'
    cases hb'
    exact hbegun
  | cancelled hb' hr =>
    rw [resume_eq] at hr
    split at hr
    · cases hr
      exact hwaits hb' (.inr rfl)
    · cases hr
  | abandoned hb' => exact hwaits hb' (.inl rfl)

/-! ### What follows from an outcome -/

namespace Outcome

variable {s : Store}

theorem changes (h : Outcome w worker token message result s e) :
    (¬ w.Writes token message ∧ s = w.store ∧
        (e = .abandoned ∨ e = .finished (.error .cancelled) ∨
          e = .finished (.error (.resultExists message)) ∨
          ∃ reason, e = .finished (.error (.unpublished message (.store reason))))) ∨
      (w.Writes token message ∧ ¬ w.store.Open .acknowledge ∧
        s = w.store.withResult w.now worker message result ∧
        (e = .abandoned ∨ e = .finished (.error .cancelled) ∨
          ∃ reason, e = .finished (.error (.unacknowledged message (.store reason))))) ∨
      w.Writes token message ∧ w.store.Open .acknowledge ∧
        s = (w.store.withResult w.now worker message result).settled worker message ∧
        e = .finished (.ok .done) := by
  cases h with
  | unbegun he hno =>
    refine .inl ⟨fun hw => hno.elim hw.1 hw.2.1.1, rfl, ?_⟩
    rcases he with he | he
    · exact .inl he
    · exact .inr (.inl he)
  | unpublished hc hn hf =>
    exact .inl ⟨fun hw => Store.not_open_of_failing hf hw.2.1, rfl, .inr (.inr (.inr ⟨_, rfl⟩))⟩
  | refused hc ho hl => exact .inl ⟨fun hw => hw.not_live ⟨_, hl⟩, rfl, .inr (.inr (.inl rfl))⟩
  | unconfirmed he hw hs =>
    refine .inr (.inl ⟨hw, fun ho => ho.1 hs, rfl, ?_⟩)
    rcases he with he | he
    · exact .inl he
    · exact .inr (.inl he)
  | unacknowledged hw hn hf =>
    exact .inr (.inl ⟨hw, Store.not_open_of_failing hf, rfl, .inr (.inr ⟨_, rfl⟩)⟩)
  | done hw ho => exact .inr (.inr ⟨hw, ho, rfl, rfl⟩)

theorem ok_iff (h : Outcome w worker token message result s e) :
    e = .finished (.ok .done) ↔ w.Writes token message ∧ w.store.Open .acknowledge := by
  rcases h.changes with ⟨hnw, -, he⟩ | ⟨-, hno, -, he⟩ | ⟨hw, ho, -, he⟩
  · refine ⟨fun hok => ?_, fun hw => absurd hw.1 hnw⟩
    rw [hok] at he
    rcases he with he | he | he | ⟨reason, he⟩ <;> cases he
  · refine ⟨fun hok => ?_, fun hw => absurd hw.2 hno⟩
    rw [hok] at he
    rcases he with he | he | ⟨reason, he⟩ <;> cases he
  · exact ⟨fun _ => ⟨hw, ho⟩, fun _ => he⟩

theorem resultExists_iff (h : Outcome w worker token message result s e) :
    e = .finished (.error (.resultExists message)) ↔
      ¬ w.isCancelled token = true ∧ w.store.Open .claim ∧
        ∃ r, w.store.keys.look w.now message = .ok (some r) := by
  have hgaveUp (he : e = .abandoned ∨ e = .finished (.error .cancelled)) :
      e ≠ .finished (.error (.resultExists message)) := by
    rcases he with rfl | rfl <;> simp
  cases h with
  | unbegun he hno =>
    exact ⟨fun hr => absurd hr (hgaveUp he), fun ⟨hc, ho, _⟩ => (hno.elim hc ho.1).elim⟩
  | unpublished hc hn hf =>
    exact ⟨fun hr => (nomatch hr), fun ⟨_, ho, _⟩ => absurd ho (Store.not_open_of_failing hf)⟩
  | refused hc ho hl => exact ⟨fun _ => ⟨hc, ho, _, hl⟩, fun _ => rfl⟩
  | unconfirmed he hw hs =>
    exact ⟨fun hr => absurd hr (hgaveUp he), fun ⟨_, _, hl⟩ => absurd hl hw.not_live⟩
  | unacknowledged hw hn hf =>
    exact ⟨fun hr => (nomatch hr), fun ⟨_, _, hl⟩ => absurd hl hw.not_live⟩
  | done hw ho => exact ⟨fun hr => (nomatch hr), fun ⟨_, _, hl⟩ => absurd hl hw.not_live⟩

end Outcome

/-- How a publication ends says exactly what it has made of the store. -/
theorem publication_outcome (w : World) (worker : Worker) (token message result : String)
    (hx : ∀ r, w.store.keys.records.get? message = some r → r.expiry < w.store.keys.limit) :
    let s := w.store
    let made := s.withResult w.now worker message result
    let done := made.settled worker message
    -- nothing has changed, or the key was made, or it was made and the message acknowledged
    (∀ t e, w.PublicationEnds worker token message result t e →
      (¬ w.Writes token message ∧ t = s ∧
          (e = .abandoned ∨ e = .finished (.error .cancelled) ∨
            e = .finished (.error (.resultExists message)) ∨
            ∃ reason, e = .finished (.error (.unpublished message (.store reason)))) ∨
        w.Writes token message ∧ ¬ s.Open .acknowledge ∧ t = made ∧
          (e = .abandoned ∨ e = .finished (.error .cancelled) ∨
            ∃ reason, e = .finished (.error (.unacknowledged message (.store reason)))) ∨
        w.Writes token message ∧ s.Open .acknowledge ∧ t = done ∧ e = .finished (.ok .done)) ∧
      (e = .finished (.ok .done) ↔ w.Writes token message ∧ s.Open .acknowledge) ∧
      (e = .finished (.error (.resultExists message)) ↔
        ¬ w.isCancelled token = true ∧ s.Open .claim ∧ ∃ r, s.keys.look w.now message = .ok (some r))) ∧
    -- the key that was made, and nothing else
    (made = { s with keys := made.keys } ∧
      ∀ k, made.keys.records.get? k =
          (if message = k then some ⟨result, worker.settings.retention, w.now⟩
            else s.keys.records.get? k) ∧
        made.keys.writeCount k =
          if message = k then s.keys.writeCount k + 1 else s.keys.writeCount k) ∧
    -- the acknowledgment, and nothing else
    (s.Open .acknowledge →
      Store.TakenOff made done worker.settings.stream worker.settings.group message ∧
      message ∉ done.pending worker.settings.stream worker.settings.group ∧
      done.acknowledged = if message ∈ s.pending worker.settings.stream worker.settings.group
        then s.acknowledged ++ [message] else s.acknowledged) ∧
    -- a publication waits only for an operation that has stalled, and leaves the store alone by then
    (∀ v f, w.begin worker token (.publish message result) = (v, .inl f) →
      (.claim ∈ s.stalled ∨ .acknowledge ∈ s.stalled) ∧
      ∀ u : World, (u.abandon f).store = u.store ∧ (u.resume f).1.store = u.store ∧
        (u.resume f).2 = if u.isCancelled token = true then .inr (.finished (.error .cancelled))
          else .inl f) := by
  refine ⟨fun t e h => ?_, ⟨rfl, fun k => ⟨Keyspace.get?_put .., Keyspace.writeCount_put ..⟩⟩,
    fun ho => ?_, fun v f hb => ?_⟩
  · have hout := outcome_of_ends hx h
    exact ⟨hout.changes, hout.ok_iff, hout.resultExists_iff⟩
  · have ho' : (w.store.withResult w.now worker message result).Open .acknowledge := ho
    have htaken := Store.acknowledge_takenOff ho' worker.settings.stream worker.settings.group message
    exact ⟨htaken, fun hm => ((htaken.pending message).mp hm).1 rfl, htaken.acknowledged⟩
  · obtain ⟨v', next, hb', hbegun⟩ := begin_cases w worker token message result hx
    rw [hb] at hb'
    cases hb'
    obtain ⟨htoken, hwaits⟩ := hbegun
    refine ⟨?_, fun u => ⟨notes_store .., ?_, ?_⟩⟩
    · rcases hwaits with ⟨-, hs, -⟩ | ⟨-, hs, -⟩
      · exact .inl hs
      · exact .inr hs
    · rw [resume_eq]
      split
      · exact notes_store ..
      · rfl
    · rw [resume_eq, htoken]
      split <;> rfl

/-- A session in which a message was handed to the worker, and in which what was written as the result of
an earlier message of that id has expired since. -/
def messageWaits (worker : Worker) : World :=
  let stream := worker.settings.stream
  let s₀ := ((Store.new Instant.range).createGroup stream worker.settings.group).1
  let s₁ := (s₀.append 5 stream [("message", [])]).1
  let s₂ := (s₁.read worker.readRequest).1
  { now := 2 * Instant.milli, clockShown := 5, store := (s₂.set 0 "5-0" "old" (.ofMillis 1)).1 }

theorem publication_outcome_expired_result :
    let worker : Worker := ⟨"a", { Settings.standard with address := ⟨"redis://localhost"⟩ }, .text⟩
    let w := messageWaits worker
    let done := (w.store.withResult w.now worker "5-0" "new").settled worker "5-0"
    w.store.keys.records.get? "5-0" = some ⟨"old", .ofMillis 1, 0⟩ ∧
      "5-0" ∈ w.store.pending worker.settings.stream worker.settings.group ∧
      w.PublicationEnds worker "main" "5-0" "new" done (.finished (.ok .done)) ∧
      done.keys.records.get? "5-0" = some ⟨"new", worker.settings.retention, w.now⟩ ∧
      done.keys.writeCount "5-0" = 2 ∧ done.acknowledged = ["5-0"] ∧
      "5-0" ∉ done.pending worker.settings.stream worker.settings.group := by
  intro worker w done
  have hold : w.store.keys.records.get? "5-0" = some ⟨"old", .ofMillis 1, 0⟩ := by decide +kernel
  have hpending : "5-0" ∈ w.store.pending worker.settings.stream worker.settings.group :=
    Store.mem_pending.mpr (Option.any_eq_true ..|>.mp (by decide +kernel))
  have hcount : w.store.keys.writeCount "5-0" = 1 := by decide +kernel
  have hnone : w.store.acknowledged = [] := by decide +kernel
  have hw : w.Writes "main" "5-0" := ⟨by decide +kernel, by decide +kernel, rfl⟩
  have ho : w.store.Open .acknowledge := by decide +kernel
  have hexpired : ∀ r, w.store.keys.records.get? "5-0" = some r → r.expiry < w.store.keys.limit := by
    intro r hr
    rw [hold] at hr
    cases hr
    decide +kernel
  obtain ⟨hends, ⟨-, hkeys⟩, hack, hwaits⟩ := publication_outcome w worker "main" "5-0" "new" hexpired
  obtain ⟨htaken, hgone, hacknowledged⟩ := hack ho
  rw [if_pos hpending, hnone] at hacknowledged
  refine ⟨hold, hpending, ?_, ?_, ?_, hacknowledged, hgone⟩
  · cases hb : w.begin worker "main" (.publish "5-0" "new") with
    | mk v next =>
      cases next with
      | inl f => exact absurd (hwaits v f hb).1 (by decide +kernel)
      | inr e =>
        rcases (hends _ _ (.atOnce hb)).1 with ⟨hn, -⟩ | ⟨-, hn, -⟩ | ⟨-, -, hdone, he⟩
        · exact absurd hw hn
        · exact absurd ho hn
        · have hstore : v.store = done := hdone
          rw [← hstore, ← he]
          exact .atOnce hb
  · rw [htaken.keys, (hkeys "5-0").1, if_pos rfl]
  · rw [htaken.keys, (hkeys "5-0").2, if_pos rfl, hcount]

end World

end StreamWorker
