import StreamWorker.Proofs.Server.Read
import StreamWorker.Proofs.Session.Publication
import StreamWorker.Proofs.Store.Unanswered

/-! How a call comes out that is begun. Under a cancelled token it says so at once and asks for nothing.
Otherwise its operations take place, and it waits only if one of them stalls. Being cancelled is the only
failure that is taken for it, and a call fails in this way exactly if its token is cancelled. -/

namespace StreamWorker

/-- The operations that a call can ask for. -/
def Call.uses : Call → List FaultPoint
  | .consume => [.read]
  | .publish .. => [.claim, .acknowledge]
  | .heartbeat => [.set]

/-- What can be made to stall at a stage. -/
def Stage.point : Stage → FaultPoint
  | .reading => .read
  | .claiming .. => .claim
  | .acknowledging _ => .acknowledge
  | .beating .. => .set

/-! ### Failures -/

namespace Worker

variable {w : Worker} {s : Stage} {e : Failure}

/-- Whatever the store answers, a call does not take it for being cancelled. -/
theorem isCancelled_of_react {answer : Except Failure (w.operation s).Answer}
    (ha : ∀ f, answer = .error f → ∃ reason, f = .store reason)
    (h : (w.react s answer).next = .inr (.error e)) : e.isCancelled = false := by
  cases s with
  | reading =>
    cases answer with
    | error f =>
      obtain ⟨reason, rfl⟩ := ha f rfl
      cases h
      rfl
    | ok reply =>
      have hmap : (classify (Payload.decode w.kind) reply).map consumed = .error e := Sum.inr.inj h
      rcases classify_cases (Payload.decode w.kind) reply with
        ⟨_, id, _, _, v, -, -, -, hc⟩ | hc | ⟨f, hf, hc⟩
      · rw [hc] at hmap; cases hmap
      · rw [hc] at hmap; cases hmap
      · rw [hc] at hmap; cases hmap; exact hf
  | claiming message result =>
    match answer, ha, h with
    | .ok true, _, h => cases h
    | .ok false, _, h => cases h; rfl
    | .error f, ha, h =>
      obtain ⟨reason, rfl⟩ := ha f rfl
      cases h
      rfl
  | acknowledging message =>
    match answer, ha, h with
    | .ok n, _, h => cases h
    | .error f, ha, h =>
      obtain ⟨reason, rfl⟩ := ha f rfl
      cases h
      rfl
  | beating value expiry =>
    cases answer with
    | ok u => cases h
    | error f =>
      obtain ⟨reason, rfl⟩ := ha f rfl
      cases h
      rfl

end Worker

/-! ### One operation -/

namespace Store

variable {s : Store} {now clock : Nat} {w : Worker} {stage : Stage}

theorem gate_stalled {α : Type} {p : FaultPoint} {go : Store → Store × Response α}
    (hgo : (go s).2 ≠ .stalled) (h : (s.gate p go).2 = .stalled) : p ∈ s.stalled := by
  rcases fault_cases s p with hs | ⟨reason, hn, hf⟩ | ho
  · exact hs
  · rw [gate_of_failing hn hf] at h; cases h
  · rw [gate_of_open ho] at h; exact absurd h hgo

theorem gate_broken {α : Type} {p : FaultPoint} {go : Store → Store × Response α} {b : Breakdown}
    (h : (s.gate p go).2 = .broken b) : s.Open p ∧ (go s).2 = .broken b := by
  rcases fault_cases s p with hs | ⟨reason, hn, hf⟩ | ho
  · rw [gate_of_stalled hs] at h; cases h
  · rw [gate_of_failing hn hf] at h; cases h
  · rw [gate_of_open ho] at h; exact ⟨ho, h⟩

theorem deliver_ne_stalled (s : Store) (r : ReadRequest) : (s.deliver r).2 ≠ .stalled := by
  unfold deliver
  split
  · simp
  · split
    · simp
    · split <;> simp

/-- Only what is made to stall does. -/
theorem point_of_stalled (h : (s.perform now clock (w.operation stage)).2 = .stalled) :
    stage.point ∈ s.stalled := by
  cases stage with
  | reading =>
    refine gate_stalled (s := { s with lastRead := some w.readRequest }) ?_ h
    split
    · simp
    · exact deliver_ne_stalled _ _
  | claiming message result =>
    refine gate_stalled ?_ h
    split <;> simp
  | acknowledging message =>
    refine gate_stalled ?_ h
    split <;> simp
  | beating value expiry => exact gate_stalled (by simp) h

/-- Nothing breaks but a look at a key whose record has no end on the clock, to get it or to claim it, and
a read whose count leads too far. -/
theorem perform_broken_iff {op : Operation} {b : Breakdown} : (s.perform now clock op).2 = .broken b ↔
    (∃ key, op = .get key ∧ s.Open .get ∧ s.keys.look now key = .error b) ∨
      (∃ key value ttl, op = .claim key value ttl ∧ s.Open .claim ∧ s.keys.look now key = .error b) ∨
      ∃ r, op = .read r ∧ b = .beyondCount ∧ s.Overreaches r := by
  constructor
  · intro h
    cases op with
    | set key value ttl =>
      obtain ⟨-, hb⟩ := gate_broken h
      cases hb
    | claim key value ttl =>
      obtain ⟨ho, -⟩ := gate_broken h
      exact .inr (.inl ⟨key, value, ttl, rfl, ho, claim_broken h⟩)
    | get key =>
      obtain ⟨ho, hb⟩ := gate_broken h
      refine .inl ⟨key, rfl, ho, ?_⟩
      cases hl : s.keys.look now key with
      | error b' => rw [hl] at hb; cases hb; rfl
      | ok r => rw [hl] at hb; cases hb
    | read r => exact .inr (.inr ⟨r, rfl, read_broken_iff.mp h⟩)
    | acknowledge stream group id => exact (acknowledge_ne_broken _ _ _ _ b h).elim
    | createGroup stream group => cases h
    | append stream fields => cases h
  · rintro (⟨key, rfl, ho, hl⟩ | ⟨key, value, ttl, rfl, ho, hl⟩ | ⟨r, rfl, hr⟩)
    · rw [perform, get_of_open ho, hl]
    · rw [perform, claim_of_broken ho hl]
    · exact read_broken_iff.mpr hr

/-- Of the operations that a call asks for, a claim can break, and a read. -/
theorem stage_broken_iff {b : Breakdown} :
    (s.perform now clock (w.operation stage)).2 = .broken b ↔
      (∃ message result, stage = .claiming message result ∧ s.Open .claim ∧
        s.keys.look now message = .error b) ∨
      stage = .reading ∧ b = .beyondCount ∧ s.Overreaches w.readRequest := by
  rw [perform_broken_iff]
  constructor
  · rintro (⟨key, hop, -⟩ | ⟨key, value, ttl, hop, ho, hl⟩ | ⟨r, hop, hr⟩)
    · cases stage <;> cases hop
    · cases stage with
      | claiming message result =>
        cases hop
        exact .inl ⟨_, _, rfl, ho, hl⟩
      | _ => cases hop
    · cases stage with
      | reading =>
        cases hop
        exact .inr ⟨rfl, hr⟩
      | _ => cases hop
  · rintro (⟨message, result, rfl, ho, hl⟩ | ⟨rfl, hr⟩)
    · exact .inr (.inl ⟨message, result, _, rfl, ho, hl⟩)
    · exact .inr (.inr ⟨_, rfl, hr⟩)

end Store

/-! ### A call on its own -/

namespace World

variable {w v : World} {f g : Flight} {e : Failure} {worker : Worker} {token : String} {call : Call}

/-- Where a call stands that is not cancelled, after its next operation. -/
theorem step_cases (hx : ¬ w.isCancelled f.token = true) :
    (∃ r, Course.ofStep f (w.stepFlight f).2 = .ended (.finished r) ∧
      ∀ e, r = .error e → e.isCancelled = false) ∨
    (∃ b, Course.ofStep f (w.stepFlight f).2 = .ended (.broken b) ∧
      (w.store.perform w.now w.clock (f.worker.operation f.stage)).2 = .broken b) ∨
    (Course.ofStep f (w.stepFlight f).2 = .held f ∧ f.stage.point ∈ w.store.stalled ∧
      (w.stepFlight f).1.store = w.store.noted (f.worker.operation f.stage)) ∨
    ∃ message result, f.stage = .claiming message result ∧
      Course.ofStep f (w.stepFlight f).2 = .running { f with stage := .acknowledging message } := by
  have hreact (answer : Except Failure (f.worker.operation f.stage).Answer)
      (ha : ∀ x, answer = .error x → ∃ reason, x = .store reason) :
      (∃ r, Course.ofReaction f (f.worker.react f.stage answer) = .ended (.finished r) ∧
        ∀ e, r = .error e → e.isCancelled = false) ∨
      ∃ message result, f.stage = .claiming message result ∧
        Course.ofReaction f (f.worker.react f.stage answer) =
          .running { f with stage := .acknowledging message } := by
    cases hn : (f.worker.react f.stage answer).next with
    | inr r =>
      refine .inl ⟨r, by rw [Course.ofReaction, hn], fun e he => ?_⟩
      exact Worker.isCancelled_of_react ha (hn.trans (congrArg Sum.inr he))
    | inl stage =>
      obtain ⟨message, result, hs, rfl⟩ := Worker.react_next_stage hn
      exact .inr ⟨message, result, hs, by rw [Course.ofReaction, hn]⟩
  rw [ofStep_stepFlight hx, stepFlight_store hx]
  cases hr : (w.store.perform w.now w.clock (f.worker.operation f.stage)).2 with
  | answer a =>
    rcases hreact (.ok a) (fun x hx => by cases hx) with h | h
    · exact .inl h
    · exact .inr (.inr (.inr h))
  | failure x =>
    obtain ⟨reason, rfl⟩ := Store.perform_failure hr
    rcases hreact (.error (.store reason)) (fun x hx => ⟨reason, by cases hx; rfl⟩) with h | h
    · exact .inl h
    · exact .inr (.inr (.inr h))
  | stalled =>
    refine .inr (.inr (.inl ⟨rfl, Store.point_of_stalled hr, Store.perform_unanswered ?_⟩))
    rw [Store.Unanswered, hr]
    simp
  | broken b => exact .inr (.inl ⟨b, rfl, rfl⟩)

theorem stepFlight_now (w : World) (f : Flight) : (w.stepFlight f).1.now = w.now ∧
    ∀ t, (w.stepFlight f).1.isCancelled t = w.isCancelled t := by
  obtain ⟨trace, ledger, h⟩ := w.stepFlight_eq f
  rw [h]
  exact ⟨rfl, fun t => rfl⟩

/-- How a call comes out that is let go on until it has ended or has to wait. -/
inductive ComesOut (w : World) (worker : Worker) (token : String) (stage : Stage) :
    World × (Flight ⊕ Ending Success) → Prop where
  | finished {v : World} {r : Except Failure Success} : (∀ e, r = .error e → e.isCancelled = false) →
    ComesOut w worker token stage (v, .inr (.finished r))
  | broken {v : World} {b : Breakdown} :
    (w.store.perform w.now w.clock (worker.operation stage)).2 = .broken b →
    ComesOut w worker token stage (v, .inr (.broken b))
  | waits {v : World} : stage.point ∈ w.store.stalled →
    v.store = w.store.noted (worker.operation stage) →
    ComesOut w worker token stage (v, .inl ⟨worker, token, stage⟩)
  | unconfirmed {v : World} {message result : String} : stage = .claiming message result →
    .acknowledge ∈ w.store.stalled →
    ComesOut w worker token stage (v, .inl ⟨worker, token, .acknowledging message⟩)

theorem comesOut_of_runFlight {stage : Stage} (hx : ¬ w.isCancelled token = true) :
    ComesOut w worker token stage (runFlight 2 ⟨worker, token, stage⟩ w) := by
  have hx₁ : ¬ w.isCancelled (Flight.mk worker token stage).token = true := hx
  rw [runFlight_succ]
  rcases step_cases hx₁ with ⟨r, hc, hr⟩ | ⟨b, hc, hb⟩ | ⟨hc, hs, hn⟩ | ⟨message, result, hs, hc⟩
  · rw [hc]
    exact .finished hr
  · rw [hc]
    exact .broken hb
  · rw [hc]
    exact .waits hs hn
  · -- the claim has written, and what is left is the acknowledgment
    rw [hc]
    generalize hv : (w.stepFlight ⟨worker, token, stage⟩).1 = v
    have hstalled : v.store.stalled = w.store.stalled := by
      rw [← hv, stepFlight_store hx₁, Store.perform_stalled]
    have hx₂ : ¬ v.isCancelled (Flight.mk worker token (.acknowledging message)).token = true := by
      rw [← hv, (w.stepFlight_now _).2]
      exact hx
    dsimp only
    rw [runFlight_succ]
    rcases step_cases hx₂ with ⟨r, hc, hr⟩ | ⟨b, -, hb⟩ | ⟨hc, hs', -⟩ | ⟨m, text, hs', -⟩
    · rw [hc]
      exact .finished hr
    · rcases Store.stage_broken_iff.mp hb with ⟨m, text, hs', -⟩ | ⟨hs', -⟩ <;> cases hs'
    · rw [hc]
      rw [hstalled] at hs'
      exact .unconfirmed hs hs'
    · cases hs'

/-- A call that is let go on changes the store, and what is reported. -/
theorem runFlight_eq (n : Nat) (f : Flight) (w : World) :
    ∃ store trace ledger, (runFlight n f w).1 = { w with store, trace, ledger } := by
  induction n generalizing f w with
  | zero => exact ⟨_, _, _, rfl⟩
  | succ n ih =>
    obtain ⟨trace, ledger, hw⟩ := w.stepFlight_eq f
    rw [runFlight_succ]
    cases Course.ofStep f (w.stepFlight f).2 with
    | running g =>
      obtain ⟨store', trace', ledger', hv⟩ := ih g (w.stepFlight f).1
      exact ⟨store', trace', ledger', by rw [hv, hw]⟩
    | held g => exact ⟨_, trace, ledger, hw⟩
    | ended e => exact ⟨_, trace, ledger, hw⟩

/-- A call that can be begun starts with one of the operations that it uses. -/
theorem begin_of_start (w : World) (worker : Worker) (token : String) (call : Call) :
    (∃ stage, stage.point ∈ call.uses ∧ w.begin worker token call = runFlight 2 ⟨worker, token, stage⟩ w ∧
      (call = .consume → stage = .reading) ∧
      (∀ message result, stage = .claiming message result ↔ call = .publish message result)) ∨
    call = .heartbeat ∧ worker.settings.expiry? = none ∧
      w.begin worker token call = (w, .inr (.broken .spanTooLong)) := by
  cases call with
  | consume =>
    exact .inl ⟨.reading, List.mem_singleton_self _, rfl, fun _ => rfl, fun m r => by simp⟩
  | publish message result =>
    refine .inl ⟨.claiming message result, List.mem_cons_self, rfl, fun h => (by cases h), fun m r => ?_⟩
    simp
  | heartbeat =>
    cases he : worker.settings.expiry? with
    | none => exact .inr ⟨rfl, rfl, by simp only [begin, Worker.start, he]⟩
    | some expiry =>
      refine .inl ⟨.beating (toString w.clock) expiry, List.mem_singleton_self _, ?_,
        fun h => (by cases h), fun m r => by simp⟩
      simp only [begin, Worker.start, he]

theorem begin_eq (w : World) (worker : Worker) (token : String) (call : Call) :
    ∃ store trace ledger, (w.begin worker token call).1 = { w with store, trace, ledger } := by
  rcases begin_of_start w worker token call with ⟨stage, -, hb, -⟩ | ⟨-, -, hb⟩
  · rw [hb]
    exact runFlight_eq ..
  · rw [hb]
    exact ⟨_, _, _, rfl⟩

/-- Beginning a call takes no time and cancels nothing. -/
theorem begin_now (w : World) (worker : Worker) (token : String) (call : Call) :
    (w.begin worker token call).1.now = w.now ∧
      ∀ t, (w.begin worker token call).1.isCancelled t = w.isCancelled t := by
  obtain ⟨store, trace, ledger, hw⟩ := begin_eq w worker token call
  rw [hw]
  exact ⟨rfl, fun t => rfl⟩

/-- The first operation of the call cannot even be asked for. -/
def Unbegun (worker : Worker) (call : Call) : Prop :=
  call = .heartbeat ∧ worker.settings.expiry? = none

/-- A call under a token that is cancelled already asks for nothing. -/
theorem begin_cancelled (hx : w.isCancelled token = true) (hu : ¬ Unbegun worker call) :
    (w.begin worker token call).2 = .inr (.finished (.error .cancelled)) ∧
      (w.begin worker token call).1.store = w.store := by
  rcases begin_of_start w worker token call with ⟨stage, -, hb, -⟩ | ⟨hcall, he, -⟩
  · have hx' : w.isCancelled (Flight.mk worker token stage).token = true := hx
    rw [hb, runFlight_succ, stepFlight_of_cancelled hx']
    exact ⟨rfl, notes_store ..⟩
  · exact absurd ⟨hcall, he⟩ hu

theorem begin_unbegun (w : World) (token : String) (hu : Unbegun worker call) :
    w.begin worker token call = (w, .inr (.broken .spanTooLong)) := by
  obtain ⟨rfl, he⟩ := hu
  simp only [begin, Worker.start, he]

/-- A call under a token that is not cancelled comes out by what its operations come to. -/
theorem begin_comesOut (hx : ¬ w.isCancelled token = true) (hu : ¬ Unbegun worker call) :
    ∃ stage, stage.point ∈ call.uses ∧ (call = .consume → stage = .reading) ∧
      (∀ message result, stage = .claiming message result ↔ call = .publish message result) ∧
      ComesOut w worker token stage (w.begin worker token call) := by
  rcases begin_of_start w worker token call with ⟨stage, huse, hb, hc, hp⟩ | ⟨hcall, he, -⟩
  · exact ⟨stage, huse, hc, hp, hb ▸ comesOut_of_runFlight hx⟩
  · exact absurd ⟨hcall, he⟩ hu

/-- A call cannot be begun, or is cancelled already, or comes out by its operations. -/
theorem begin_ways (w : World) (worker : Worker) (token : String) (call : Call) :
    (Unbegun worker call ∧ w.begin worker token call = (w, .inr (.broken .spanTooLong))) ∨
    (¬ Unbegun worker call ∧ w.isCancelled token = true ∧
      (w.begin worker token call).2 = .inr (.finished (.error .cancelled))) ∨
    (¬ Unbegun worker call ∧ w.isCancelled token = false ∧
      ∃ stage, stage.point ∈ call.uses ∧ (call = .consume → stage = .reading) ∧
        (∀ message result, stage = .claiming message result ↔ call = .publish message result) ∧
        ComesOut w worker token stage (w.begin worker token call)) := by
  by_cases hu : Unbegun worker call
  · exact .inl ⟨hu, begin_unbegun w token hu⟩
  · cases hx : w.isCancelled token with
    | true => exact .inr (.inl ⟨hu, rfl, (begin_cancelled hx hu).1⟩)
    | false => exact .inr (.inr ⟨hu, rfl, begin_comesOut (by simp [hx]) hu⟩)

/-- A call waits only for an operation of its own that has stalled. -/
theorem begin_waits (hout : (w.begin worker token call).2 = .inl f) :
    f.worker = worker ∧ f.token = token ∧ w.isCancelled token = false ∧ f.stage.point ∈ call.uses ∧
      f.stage.point ∈ w.store.stalled ∧ (call = .consume →
        (w.begin worker token call).1.store = { w.store with lastRead := some worker.readRequest }) := by
  rcases begin_ways w worker token call with ⟨-, hb⟩ | ⟨-, -, hb⟩ | ⟨-, hx, stage, huse, hc, hp, hout'⟩
  · rw [hb] at hout
    cases hout
  · rw [hb] at hout
    cases hout
  · generalize w.begin worker token call = out at hout hout' ⊢
    cases hout' with
    | finished hr => cases hout
    | broken hb => cases hout
    | waits hs hn =>
      cases hout
      refine ⟨rfl, rfl, hx, huse, hs, fun h => ?_⟩
      rw [hc h] at hn
      exact hn
    | unconfirmed hs ha =>
      cases hout
      have hcall := (hp _ _).mp hs
      subst hcall
      exact ⟨rfl, rfl, hx, by simp [Call.uses, Stage.point], ha, fun h => (by cases h)⟩

theorem begin_ne_abandoned : (w.begin worker token call).2 ≠ .inr .abandoned := by
  intro hout
  rcases begin_ways w worker token call with ⟨-, hb⟩ | ⟨-, -, hb⟩ | ⟨-, -, stage, -, -, -, hout'⟩
  · rw [hb] at hout
    cases hout
  · rw [hb] at hout
    cases hout
  · generalize w.begin worker token call = out at hout hout'
    cases hout' <;> cases hout

/-- A call breaks off at once with its first operation. -/
theorem runFlight_of_broken (stage : Stage) {n : Nat} {b : Breakdown}
    (hx : ¬ w.isCancelled token = true)
    (hb : (w.store.perform w.now w.clock (worker.operation stage)).2 = .broken b) :
    (runFlight (n + 1) ⟨worker, token, stage⟩ w).2 = .inr (.broken b) := by
  have hcourse := ofStep_stepFlight (f := ⟨worker, token, stage⟩) hx
  rw [hb] at hcourse
  rw [runFlight_succ, hcourse]
  rfl

theorem begin_broken_iff {b : Breakdown} : (w.begin worker token call).2 = .inr (.broken b) ↔
    Unbegun worker call ∧ b = .spanTooLong ∨
    (∃ message result, call = .publish message result ∧ w.isCancelled token = false ∧
      w.store.Open .claim ∧ w.store.keys.look w.now message = .error b) ∨
    call = .consume ∧ w.isCancelled token = false ∧ b = .beyondCount ∧
      w.store.Overreaches worker.readRequest := by
  rcases begin_ways w worker token call with ⟨hu, hb⟩ | ⟨hu, hx, hb⟩ | ⟨hu, hx, stage, huse, -, hp, hout'⟩
  · rw [hb]
    constructor
    · intro h
      cases h
      exact .inl ⟨hu, rfl⟩
    · rintro (⟨-, rfl⟩ | ⟨message, result, rfl, -⟩ | ⟨rfl, -⟩)
      · rfl
      · cases hu.1
      · cases hu.1
  · rw [hb]
    simp [hu, hx]
  · constructor
    · intro hout
      generalize w.begin worker token call = out at hout hout'
      cases hout' with
      | broken hb =>
        cases hout
        rcases Store.stage_broken_iff.mp hb with ⟨message, result, hs, ho, hl⟩ | ⟨rfl, hr⟩
        · exact .inr (.inl ⟨_, _, (hp _ _).mp hs, hx, ho, hl⟩)
        · cases call with
          | consume => exact .inr (.inr ⟨rfl, hx, hr⟩)
          | publish message result => simp [Call.uses, Stage.point] at huse
          | heartbeat => simp [Call.uses, Stage.point] at huse
      | _ => cases hout
    · have hnot : ¬ w.isCancelled token = true := by simp [hx]
      rintro (⟨hu', -⟩ | ⟨message, result, rfl, -, hl⟩ | ⟨rfl, -, hr⟩)
      · exact absurd hu' hu
      · exact runFlight_of_broken (.claiming message result) hnot
          (Store.stage_broken_iff.mpr (.inl ⟨_, _, rfl, hl⟩))
      · exact runFlight_of_broken .reading hnot (Store.stage_broken_iff.mpr (.inr ⟨rfl, hr⟩))

/-- A call fails as cancelled exactly if its token is cancelled by then, and never as anything that
looks like it. -/
theorem begin_error (hout : (w.begin worker token call).2 = .inr (.finished (.error e))) :
    (e.isCancelled = true ↔ e = .cancelled) ∧
      (e = .cancelled ↔ (w.begin worker token call).1.isCancelled token = true) := by
  rw [(begin_now w worker token call).2]
  rcases begin_ways w worker token call with ⟨-, hb⟩ | ⟨-, hx, hb⟩ | ⟨-, hx, stage, -, -, -, hout'⟩
  · rw [hb] at hout
    cases hout
  · rw [hb] at hout
    cases hout
    simp [hx, Failure.isCancelled]
  · have hnot : e.isCancelled = false := by
      generalize w.begin worker token call = out at hout hout'
      cases hout' with
      | finished hr => cases hout; exact hr e rfl
      | _ => cases hout
    have hne : e ≠ .cancelled := fun he => by rw [he] at hnot; cases hnot
    simp [hnot, hne, hx]

end World

end StreamWorker
