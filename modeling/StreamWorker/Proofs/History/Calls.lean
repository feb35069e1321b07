import StreamWorker.Proofs.History.Chronicle

/-! What the calls of a history have asked for so far. A publication claims its key once and, if that
wrote, asks for one acknowledgment; every other call asks for one operation. How far a call has got is
decided by what its operations came to, unless it was cancelled or its caller gave up. -/

namespace StreamWorker

/-! ### One call -/

/-- The call as it waits for its next operation. -/
def Course.flight? : Course → Option Flight
  | .running f | .held f => some f
  | .ended _ => none

/-- How a call ends without an answer to its operation, where `gone` says that it is cancelled. -/
def Ending.GivenUp (gone : Prop) (e : Ending Success) : Prop :=
  e = .abandoned ∨ e = .finished (.error .cancelled) ∧ gone

/-- What a publication of `result` for `message` has asked for, and how far it has got. -/
inductive Publishing (gone : Prop) (w : Worker) (token message result : String) :
    List Occurrence → Course → Prop where
  | begun : Publishing gone w token message result [] (.running ⟨w, token, .claiming message result⟩)
  | waiting {o : Occurrence} : o.CameTo (.claim message result w.settings.retention) .stalled →
    Publishing gone w token message result [o] (.held ⟨w, token, .claiming message result⟩)
  | unpublished {o : Occurrence} {reason : String} :
    o.CameTo (.claim message result w.settings.retention) (.failure (.store reason)) →
    Publishing gone w token message result [o]
      (.ended (.finished (.error (.unpublished message (.store reason)))))
  | broken {o : Occurrence} {b : Breakdown} :
    o.CameTo (.claim message result w.settings.retention) (.broken b) →
    Publishing gone w token message result [o] (.ended (.broken b))
  | refused {o : Occurrence} : o.CameTo (.claim message result w.settings.retention) (.answer false) →
    Publishing gone w token message result [o] (.ended (.finished (.error (.resultExists message))))
  | created {o : Occurrence} : o.CameTo (.claim message result w.settings.retention) (.answer true) →
    Publishing gone w token message result [o] (.running ⟨w, token, .acknowledging message⟩)
  | unconfirmed {o p : Occurrence} :
    o.CameTo (.claim message result w.settings.retention) (.answer true) →
    p.CameTo (.acknowledge w.settings.stream w.settings.group message) .stalled →
    Publishing gone w token message result [o, p] (.held ⟨w, token, .acknowledging message⟩)
  | unacknowledged {o p : Occurrence} {reason : String} :
    o.CameTo (.claim message result w.settings.retention) (.answer true) →
    p.CameTo (.acknowledge w.settings.stream w.settings.group message) (.failure (.store reason)) →
    Publishing gone w token message result [o, p]
      (.ended (.finished (.error (.unacknowledged message (.store reason)))))
  | done {o p : Occurrence} {n : UInt64} :
    o.CameTo (.claim message result w.settings.retention) (.answer true) →
    p.CameTo (.acknowledge w.settings.stream w.settings.group message) (.answer n) →
    Publishing gone w token message result [o, p] (.ended (.finished (.ok .done)))
  | givenUp {l : List Occurrence} {c : Course} {f : Flight} {e : Ending Success} :
    Publishing gone w token message result l c → c.flight? = some f → e.GivenUp gone →
    Publishing gone w token message result l (.ended e)

/-- What a call that is a single operation has asked for, and how far it has got. -/
inductive Asking (gone : Prop) (f : Flight) : List Occurrence → Course → Prop where
  | begun : Asking gone f [] (.running f)
  | waiting {o : Occurrence} : o.CameTo (f.worker.operation f.stage) .stalled → Asking gone f [o] (.held f)
  | ended {o : Occurrence} {e : Ending Success} : o.op = f.worker.operation f.stage →
    Asking gone f [o] (.ended e)
  | givenUp {l : List Occurrence} {c : Course} {g : Flight} {e : Ending Success} :
    Asking gone f l c → c.flight? = some g → e.GivenUp gone → Asking gone f l (.ended e)

namespace Publishing

variable {gone : Prop} {w : Worker} {token message result : String} {l : List Occurrence} {c : Course}
variable {f : Flight}

theorem flight (h : Publishing gone w token message result l c) (hf : c.flight? = some f) :
    f.token = token := by
  cases h <;> cases hf <;> rfl

theorem mono {gone' : Prop} (hg : gone → gone') (h : Publishing gone w token message result l c) :
    Publishing gone' w token message result l c := by
  induction h with
  | begun => exact .begun
  | waiting ho => exact .waiting ho
  | unpublished ho => exact .unpublished ho
  | broken ho => exact .broken ho
  | refused ho => exact .refused ho
  | created ho => exact .created ho
  | unconfirmed ho hp => exact .unconfirmed ho hp
  | unacknowledged ho hp => exact .unacknowledged ho hp
  | done ho hp => exact .done ho hp
  | givenUp _ hf he ih => exact .givenUp ih hf (he.imp_right (And.imp_right hg))

/-- A publication that performs its operation goes where the answer leads it. -/
theorem perform {o : Occurrence} (h : Publishing gone w token message result l (.running f))
    (ho : o.op = f.worker.operation f.stage) :
    Publishing gone w token message result (l ++ [o])
      (f.answered (o.store.perform o.now o.clock (f.worker.operation f.stage)).2) := by
  cases h with
  | begun =>
    cases hr : (o.store.perform o.now o.clock (.claim message result w.settings.retention)).2 with
    | answer b =>
      cases b with
      | true => exact .created ⟨ho, hr⟩
      | false => exact .refused ⟨ho, hr⟩
    | failure f =>
      obtain ⟨reason, rfl⟩ := Store.perform_failure hr
      exact .unpublished ⟨ho, hr⟩
    | stalled => exact .waiting ⟨ho, hr⟩
    | broken b => exact .broken ⟨ho, hr⟩
  | created hc =>
    cases hr : (o.store.perform o.now o.clock
        (.acknowledge w.settings.stream w.settings.group message)).2 with
    | answer n => exact .done hc ⟨ho, hr⟩
    | failure f =>
      obtain ⟨reason, rfl⟩ := Store.perform_failure hr
      exact .unacknowledged hc ⟨ho, hr⟩
    | stalled => exact .unconfirmed hc ⟨ho, hr⟩
    | broken b => exact (Store.acknowledge_ne_broken _ _ _ _ b hr).elim

/-- A publication claims first, and asks for an acknowledgment only once its claim has written. -/
theorem shape (h : Publishing gone w token message result l c) :
    l = [] ∨ (∃ o, l = [o] ∧ o.op = .claim message result w.settings.retention) ∨
      ∃ o p, l = [o, p] ∧ o.Created message result w.settings.retention ∧
        p.op = .acknowledge w.settings.stream w.settings.group message := by
  induction h with
  | begun => exact .inl rfl
  | waiting ho => exact .inr (.inl ⟨_, rfl, ho.1⟩)
  | unpublished ho => exact .inr (.inl ⟨_, rfl, ho.1⟩)
  | broken ho => exact .inr (.inl ⟨_, rfl, ho.1⟩)
  | refused ho => exact .inr (.inl ⟨_, rfl, ho.1⟩)
  | created ho => exact .inr (.inl ⟨_, rfl, ho.1⟩)
  | unconfirmed ho hp => exact .inr (.inr ⟨_, _, rfl, ho, hp.1⟩)
  | unacknowledged ho hp => exact .inr (.inr ⟨_, _, rfl, ho, hp.1⟩)
  | done ho hp => exact .inr (.inr ⟨_, _, rfl, ho, hp.1⟩)
  | givenUp _ _ _ ih => exact ih

/-- The only key that a publication touches is the one that it claims. -/
theorem claim_of_key {o : Occurrence} {key : String} (h : Publishing gone w token message result l c)
    (ho : o ∈ l) (hk : o.op.key? = some key) : o.op = .claim message result w.settings.retention := by
  rcases h.shape with rfl | ⟨p, rfl, hop⟩ | ⟨p, q, rfl, hcreated, hq⟩
  · cases ho
  · rw [List.mem_singleton.mp ho, hop]
  · rw [List.mem_cons, List.mem_singleton] at ho
    rcases ho with rfl | rfl
    · exact hcreated.1
    · rw [hq] at hk; cases hk

/-- A publication claims only once. -/
theorem claim_unique {o p : Occurrence} (h : Publishing gone w token message result l c)
    (ho : o ∈ l) (hp : p ∈ l) (hoc : o.op = .claim message result w.settings.retention)
    (hpc : p.op = .claim message result w.settings.retention) : o = p := by
  rcases h.shape with rfl | ⟨q, rfl, -⟩ | ⟨q, r, rfl, -, hr⟩
  · cases ho
  · rw [List.mem_singleton.mp ho, List.mem_singleton.mp hp]
  · have hne (x : Occurrence) (hx : x ∈ [q, r])
        (hxc : x.op = .claim message result w.settings.retention) : x = q := by
      rcases List.mem_cons.mp hx with hx | hx
      · exact hx
      · rw [List.mem_singleton.mp hx, hr] at hxc
        cases hxc
    rw [hne o ho hoc, hne p hp hpc]

/-- Whoever is told that there is a result already was refused, and asked for nothing more. -/
theorem of_resultExists {m : String}
    (h : Publishing gone w token message result l (.ended (.finished (.error (.resultExists m))))) :
    ∃ o, l = [o] ∧ o.CameTo (.claim message result w.settings.retention) (.answer false) := by
  cases h with
  | refused ho => exact ⟨_, rfl, ho⟩
  | givenUp _ _ he => rcases he with he | ⟨he, -⟩ <;> cases he

theorem of_unpublished {m : String} {cause : Failure}
    (h : Publishing gone w token message result l (.ended (.finished (.error (.unpublished m cause))))) :
    ∃ o reason, l = [o] ∧ cause = .store reason ∧
      o.CameTo (.claim message result w.settings.retention) (.failure (.store reason)) := by
  cases h with
  | unpublished ho => exact ⟨_, _, rfl, rfl, ho⟩
  | givenUp _ _ he => rcases he with he | ⟨he, -⟩ <;> cases he

/-- Whoever succeeds has created the result and was answered its acknowledgment. -/
theorem of_ok {success : Success}
    (h : Publishing gone w token message result l (.ended (.finished (.ok success)))) :
    ∃ o p n, l = [o, p] ∧ o.Created message result w.settings.retention ∧
      p.CameTo (.acknowledge w.settings.stream w.settings.group message) (.answer n) := by
  cases h with
  | done ho hp => exact ⟨_, _, _, rfl, ho, hp⟩
  | givenUp _ _ he => rcases he with he | ⟨he, -⟩ <;> cases he

theorem of_broken {b : Breakdown}
    (h : Publishing gone w token message result l (.ended (.broken b))) :
    ∃ o, l = [o] ∧ o.CameTo (.claim message result w.settings.retention) (.broken b) := by
  cases h with
  | broken ho => exact ⟨_, rfl, ho⟩
  | givenUp _ _ he => rcases he with he | ⟨he, -⟩ <;> cases he

end Publishing

/-- A stage whose operation is the only one of its call. -/
def Stage.Single : Stage → Prop
  | .reading | .beating .. => True
  | .claiming .. | .acknowledging _ => False

/-- After its only operation a call has ended, unless it waits for it. -/
theorem Flight.answered_of_single {f : Flight} (hs : f.stage.Single)
    (r : Response (f.worker.operation f.stage).Answer) :
    (r = .stalled ∧ f.answered r = .held f) ∨ ∃ e, f.answered r = .ended e := by
  have hnext (answer : Except Failure (f.worker.operation f.stage).Answer) :
      ∃ e, Course.ofReaction f (f.worker.react f.stage answer) = .ended e := by
    cases h : (f.worker.react f.stage answer).next with
    | inl stage =>
      obtain ⟨message, result, hc, -⟩ := Worker.react_next_stage h
      rw [hc] at hs
      cases hs
    | inr result => exact ⟨_, by rw [Course.ofReaction, h]⟩
  cases r with
  | answer a => exact .inr (hnext (.ok a))
  | failure e => exact .inr (hnext (.error e))
  | stalled => exact .inl ⟨rfl, rfl⟩
  | broken b => exact .inr ⟨_, rfl⟩

namespace Asking

variable {gone : Prop} {f g : Flight} {l : List Occurrence} {c : Course}

theorem flight (h : Asking gone f l c) (hg : c.flight? = some g) : g = f := by
  cases h <;> cases hg <;> rfl

theorem mono {gone' : Prop} (hg : gone → gone') (h : Asking gone f l c) : Asking gone' f l c := by
  induction h with
  | begun => exact .begun
  | waiting ho => exact .waiting ho
  | ended ho => exact .ended ho
  | givenUp _ hf he ih => exact .givenUp ih hf (he.imp_right (And.imp_right hg))

theorem perform {o : Occurrence} (hs : f.stage.Single) (h : Asking gone f l (.running f))
    (ho : o.op = f.worker.operation f.stage) :
    Asking gone f (l ++ [o])
      (f.answered (o.store.perform o.now o.clock (f.worker.operation f.stage)).2) := by
  cases h with
  | begun =>
    rcases Flight.answered_of_single hs
      (o.store.perform o.now o.clock (f.worker.operation f.stage)).2 with ⟨hr, ha⟩ | ⟨e, ha⟩
    · rw [ha]
      exact .waiting ⟨ho, hr⟩
    · rw [ha]
      exact .ended ho

theorem op_eq (h : Asking gone f l c) : ∀ o ∈ l, o.op = f.worker.operation f.stage := by
  induction h with
  | begun => simp
  | waiting ho => simpa using ho.1
  | ended ho => simpa using ho
  | givenUp _ _ _ ih => exact ih

end Asking

namespace CallRecord

variable {c : CallRecord} {gone : Prop} {l : List Occurrence} {f : Flight}

/-- The operations of a call so far and how far it has got fit together. -/
def Follows (c : CallRecord) (gone : Prop) (l : List Occurrence) : Prop :=
  match c.call with
  | .publish message result => Publishing gone c.worker c.token message result l c.course
  | .consume | .heartbeat =>
    (∃ stage, stage.Single ∧ Asking gone ⟨c.worker, c.token, stage⟩ l c.course) ∨
      l = [] ∧ ∃ b, c.course = .ended (.broken b)

namespace Follows

theorem flight (h : c.Follows gone l) (hf : c.course.flight? = some f) : f.token = c.token := by
  unfold Follows at h
  split at h
  · exact h.flight hf
  all_goals
    rcases h with ⟨stage, -, h⟩ | ⟨-, b, hb⟩
    · rw [h.flight hf]
    · rw [hb] at hf; cases hf

theorem mono {gone' : Prop} (hg : gone → gone') (h : c.Follows gone l) : c.Follows gone' l := by
  unfold Follows at *
  split at h
  · exact h.mono hg
  all_goals exact h.imp_left fun ⟨stage, hs, ha⟩ => ⟨stage, hs, ha.mono hg⟩

theorem perform {o : Occurrence} (h : c.Follows gone l) (hc : c.course = .running f)
    (ho : o.op = f.worker.operation f.stage) :
    CallRecord.Follows { c with
      course := f.answered (o.store.perform o.now o.clock (f.worker.operation f.stage)).2 }
      gone (l ++ [o]) := by
  unfold Follows at *
  dsimp only
  split at h
  · rw [hc] at h
    exact h.perform ho
  all_goals
    rcases h with ⟨stage, hs, ha⟩ | ⟨-, b, hb⟩
    · have hf := ha.flight (by rw [hc]; rfl : c.course.flight? = some f)
      subst hf
      rw [hc] at ha
      exact .inl ⟨stage, hs, ha.perform hs ho⟩
    · rw [hb] at hc; cases hc

theorem giveUp {e : Ending Success} (h : c.Follows gone l) (hf : c.course.flight? = some f)
    (he : e.GivenUp gone) : CallRecord.Follows { c with course := .ended e } gone l := by
  unfold Follows at *
  dsimp only
  split at h
  · exact .givenUp h hf he
  all_goals
    rcases h with ⟨stage, hs, ha⟩ | ⟨-, b, hb⟩
    · exact .inl ⟨stage, hs, .givenUp ha hf he⟩
    · rw [hb] at hf; cases hf

end Follows

/-- What is so of every call: its worker can be used, and its operations took place since it began. -/
structure Sound (c : CallRecord) (w : World) (l : List Occurrence) : Prop where
  checked : c.worker.settings.check = .ok ()
  begun_le : c.begun ≤ w.now
  since : ∀ o ∈ l, c.begun ≤ o.now
  follows : c.Follows (w.isCancelled c.token = true) l

theorem Sound.mono {w w' : World} (h : c.Sound w l) (hw : w.Leads w') : c.Sound w' l where
  checked := h.checked
  begun_le := Nat.le_trans h.begun_le hw.now_le
  since := h.since
  follows := h.follows.mono (hw.cancelled c.token)

end CallRecord

/-! ### All calls -/

namespace History

/-- What is so of every history. -/
structure Sound (h : History) : Prop where
  members : h.world.Checked
  callers : ∀ o ∈ h.log, ∀ n, o.asker = .call n → n < h.calls.length
  /-- Loops only write. -/
  loops : ∀ o ∈ h.log, ∀ id, o.asker = .loop id → ∃ key, o.Sets key
  calls : ∀ (n : Nat) (c : CallRecord), h.calls[n]? = some c → c.Sound h.world (h.trail n)

variable {h h' : History} {new : List Occurrence} {n : Nat} {c c' : CallRecord}

theorem trail_append (hlog : h'.log = h.log ++ new) (n : Nat) :
    h'.trail n = h.trail n ++ new.filter (·.asker = .call n) := by
  rw [trail, trail, hlog, List.filter_append]

theorem trail_of_others (hlog : h'.log = h.log ++ new) (hnew : ∀ o ∈ new, o.asker ≠ .call n) :
    h'.trail n = h.trail n := by
  have hnil : new.filter (·.asker = .call n) = [] := by
    rw [List.filter_eq_nil_iff]
    intro o ho
    simpa using hnew o ho
  rw [trail_append hlog, hnil, List.append_nil]

theorem trail_of_own (hlog : h'.log = h.log ++ new) (hnew : ∀ o ∈ new, o.asker = .call n) :
    h'.trail n = h.trail n ++ new := by
  have hall : new.filter (·.asker = .call n) = new := by
    rw [List.filter_eq_self]
    intro o ho
    simpa using hnew o ho
  rw [trail_append hlog, hall]

namespace Sound

/-- Events that concern no call. -/
theorem move (hS : h.Sound) (hw : h.world.Leads h'.world) (hcalls : h'.calls = h.calls)
    (hlog : h'.log = h.log ++ new) (hnew : ∀ o ∈ new, ∀ n, o.asker ≠ .call n)
    (hloop : ∀ o ∈ new, ∀ id, o.asker = .loop id → ∃ key, o.Sets key) : h'.Sound where
  members := hw.checked hS.members
  callers o ho n hn := by
    rw [hlog] at ho
    rw [hcalls]
    rcases List.mem_append.mp ho with ho | ho
    · exact hS.callers o ho n hn
    · exact absurd hn (hnew o ho n)
  loops o ho id hid := by
    rw [hlog] at ho
    rcases List.mem_append.mp ho with ho | ho
    · exact hS.loops o ho id hid
    · exact hloop o ho id hid
  calls n c hc := by
    rw [hcalls] at hc
    rw [trail_of_others hlog fun o ho => hnew o ho n]
    exact (hS.calls n c hc).mono hw

/-- Events that concern one call. -/
theorem update (hS : h.Sound) (hw : h.world.Leads h'.world) (hc : h.calls[n]? = some c)
    (hcalls : h'.calls = h.calls.set n c') (hlog : h'.log = h.log ++ new)
    (hnew : ∀ o ∈ new, o.asker = .call n) (hc' : c'.Sound h'.world (h.trail n ++ new)) : h'.Sound where
  members := hw.checked hS.members
  callers o ho m hm := by
    rw [hlog] at ho
    rw [hcalls, List.length_set]
    rcases List.mem_append.mp ho with ho | ho
    · exact hS.callers o ho m hm
    · have hnm : n = m := by
        have := (hnew o ho).symm.trans hm
        cases this
        rfl
      exact hnm ▸ (List.getElem?_eq_some_iff.mp hc).1
  loops o ho id hid := by
    rw [hlog] at ho
    rcases List.mem_append.mp ho with ho | ho
    · exact hS.loops o ho id hid
    · rw [hnew o ho] at hid; cases hid
  calls m d hd := by
    rw [hcalls, List.getElem?_set] at hd
    split at hd
    · next hnm =>
      subst hnm
      split at hd
      · cases hd
        rw [trail_of_own hlog hnew]
        exact hc'
      · cases hd
    · next hnm =>
      have hother : ∀ o ∈ new, o.asker ≠ .call m := fun o ho e => hnm (by
        have := (hnew o ho).symm.trans e
        cases this
        rfl)
      rw [trail_of_others hlog hother]
      exact (hS.calls m d hd).mono hw

theorem begin (hS : h.Sound) {worker : Worker} (hw : worker.settings.check = .ok ()) (token : String)
    (call : Call) : (h.begin worker token call).Sound where
  members := hS.members
  callers o ho n hn := by
    have := hS.callers o ho n hn
    rw [History.begin, List.length_append]
    omega
  loops := hS.loops
  calls n c hc := by
    rw [History.begin, List.getElem?_append] at hc
    split at hc
    · exact hS.calls n c hc
    · next hlt =>
      -- the new call has no operations yet: no occurrence of the log can have its number
      have hn : n = h.calls.length := by
        by_cases hn : n = h.calls.length
        · exact hn
        · rw [List.getElem?_eq_none (by simp; omega)] at hc
          cases hc
      have htrail : h.trail n = [] := by
        rw [trail, List.filter_eq_nil_iff]
        intro o ho
        have := hS.callers o ho n
        simp only [decide_eq_true_eq]
        intro he
        have := this he
        omega
      subst hn
      rw [Nat.sub_self, List.getElem?_cons_zero, Option.some.injEq] at hc
      have hsound : c.Sound h.world [] := by
        subst hc
        refine ⟨hw, Nat.le_refl _, by simp, ?_⟩
        cases call with
        | consume => exact .inl ⟨.reading, trivial, .begun⟩
        | publish message result => exact .begun
        | heartbeat =>
          cases he : worker.settings.expiry? with
          | some expiry =>
            refine .inl ⟨.beating (toString h.world.clock) expiry, trivial, ?_⟩
            simp only [Worker.start, he]
            exact .begun
          | none =>
            refine .inr ⟨rfl, .spanTooLong, ?_⟩
            simp only [Worker.start, he]
      exact htrail ▸ hsound

/-- A call that goes on with its operation, or notices that it is cancelled. -/
theorem proceed_running {f : Flight} (hS : h.Sound) (hc : h.calls[n]? = some c)
    (hf : c.course = .running f) :
    CallRecord.Sound { c with course := .ofStep f (h.world.stepFlight f).2 }
      (h.world.stepFlight f).1 (h.trail n ++ h.asked n f) := by
  have hcs := hS.calls n c hc
  have hlead := World.leads_stepFlight h.world f
  have hfl : c.course.flight? = some f := by rw [hf]; rfl
  have htoken := hcs.follows.flight hfl
  by_cases hx : h.world.isCancelled f.token = true
  · have hasked : h.asked n f = [] := by rw [asked, if_pos hx]
    rw [hasked, List.append_nil]
    refine ⟨hcs.checked, Nat.le_trans hcs.begun_le hlead.now_le, hcs.since, ?_⟩
    rw [World.stepFlight_of_cancelled hx]
    have hgone := (World.leads_notes h.world (f.worker.cancel f.stage).notes).cancelled c.token
      (htoken ▸ hx)
    exact (hcs.follows.giveUp hfl (.inr ⟨rfl, htoken ▸ hx⟩)).mono fun _ => hgone
  · have hasked : h.asked n f = [h.occurrence (.call n) (f.worker.operation f.stage)] := by
      rw [asked, if_neg hx]
    rw [hasked]
    refine ⟨hcs.checked, Nat.le_trans hcs.begun_le hlead.now_le, fun o ho => ?_, ?_⟩
    · rcases List.mem_append.mp ho with ho | ho
      · exact hcs.since o ho
      · rw [List.mem_singleton.mp ho]
        exact hcs.begun_le
    · have hp := hcs.follows.perform (o := h.occurrence (.call n) (f.worker.operation f.stage)) hf rfl
      rw [World.ofStep_stepFlight hx]
      exact hp.mono (hlead.cancelled c.token)

theorem proceed_held {f : Flight} (hS : h.Sound) (hc : h.calls[n]? = some c)
    (hf : c.course = .held f) :
    CallRecord.Sound { c with course := .ofStep f (h.world.resume f).2 } (h.world.resume f).1
      (h.trail n) := by
  have hcs := hS.calls n c hc
  have hfl : c.course.flight? = some f := by rw [hf]; rfl
  have htoken := hcs.follows.flight hfl
  rw [World.resume_eq]
  split
  · next hx =>
    have hlead := World.leads_notes h.world (f.worker.cancel f.stage).notes
    have hgone := hlead.cancelled c.token (htoken ▸ hx)
    refine ⟨hcs.checked, Nat.le_trans hcs.begun_le hlead.now_le, hcs.since, ?_⟩
    exact (hcs.follows.giveUp hfl (.inr ⟨rfl, htoken ▸ hx⟩)).mono fun _ => hgone
  · have hsame : Course.ofStep f (.inl f) = c.course := by
      rw [hf, Course.ofStep, if_pos rfl]
    rw [hsame]
    exact hcs

theorem next (hS : h.Sound) (e : Event) : (h.next e).Sound := by
  have hw := h.next_leads e
  cases e with
  | hire name id settings kind => exact hS.move hw rfl (List.append_nil _).symm (by simp) (by simp)
  | start member token => exact hS.move hw rfl (List.append_nil _).symm (by simp) (by simp)
  | stop member => exact hS.move hw rfl (List.append_nil _).symm (by simp) (by simp)
  | dismiss member => exact hS.move hw rfl (List.append_nil _).symm (by simp) (by simp)
  | command r => exact hS.move hw rfl (List.append_nil _).symm (by simp) (by simp)
  | elapse nanos => exact hS.move hw rfl (List.append_nil _).symm (by simp) (by simp)
  | begin member token call =>
    rw [History.next]
    split
    · next m hm => exact hS.begin (hS.members member m hm) token call
    · exact hS
  | proceed n =>
    rw [History.next]
    split
    · next c hc =>
      rw [History.proceed]
      cases hf : c.course with
      | running f =>
        have hl := World.leads_stepFlight h.world f
        refine hS.update hl hc rfl rfl (fun o ho => ?_) (hS.proceed_running hc hf)
        rcases asked_eq_nil_or h n f with ha | ⟨op, ha⟩
        · rw [ha] at ho; cases ho
        · rw [ha] at ho
          rw [List.mem_singleton.mp ho]
          rfl
      | held f =>
        have hl := World.leads_resume h.world f
        refine hS.update hl hc rfl (List.append_nil _).symm (by simp) ?_
        rw [List.append_nil]
        exact hS.proceed_held hc hf
      | ended e => exact hS
    · exact hS
  | abandon n =>
    rw [History.next]
    split
    · next c hc =>
      have hcs := hS.calls n c hc
      have hend (f : Flight) (hf : c.course.flight? = some f) :
          History.Sound (mark { h with world := h.world.abandon f } n c (.ended .abandoned)) := by
        have hl : h.world.Leads (h.world.abandon f) := World.leads_notes h.world _
        refine hS.update hl hc rfl (List.append_nil _).symm (by simp) ?_
        rw [List.append_nil]
        exact ⟨hcs.checked, Nat.le_trans hcs.begun_le hl.now_le, hcs.since,
          (hcs.follows.giveUp hf (.inl rfl)).mono (hl.cancelled c.token)⟩
      rw [History.abandon]
      cases hf : c.course with
      | running f => exact hend f (by rw [hf]; rfl)
      | held f => exact hend f (by rw [hf]; rfl)
      | ended e => exact hS
    · exact hS
  | operation op =>
    refine hS.move hw rfl rfl (fun o ho n hn => ?_) (fun o ho id hid => ?_)
    · rw [List.mem_singleton.mp ho] at hn; cases hn
    · rw [List.mem_singleton.mp ho] at hid; cases hid
  | wake t =>
    rcases beats_eq_nil_or h t with hb | ⟨id, key, value, ttl, hb⟩
    · exact hS.move hw rfl rfl (by simp [hb]) (by simp [hb])
    · refine hS.move hw rfl rfl (fun o ho n hn => ?_) (fun o ho id hid => ?_)
      · rw [hb] at ho
        rw [List.mem_singleton.mp ho] at hn; cases hn
      · rw [hb] at ho
        rw [List.mem_singleton.mp ho]
        exact ⟨key, value, ttl, rfl⟩

end Sound

theorem sound_start (clock : Clock) : (start clock).Sound where
  members name m hm := by cases hm
  callers := by simp [start]
  loops := by simp [start]
  calls n c hc := by simp [start] at hc

theorem sound (clock : Clock) (es : List Event) : ((start clock).run es).Sound :=
  run_induction (sound_start clock) (fun _ e hS => hS.next e) es

end History

end StreamWorker
