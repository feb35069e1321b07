import StreamWorker.Proofs.History.Calls

/-! No acknowledgment without a result. As long as only publications acknowledge, every id that is
acknowledged was created before as a key, with its result, by the call that acknowledges it. Within the
time for which results are kept, the result can be got at that moment, if its expiry is on the clock. -/

namespace StreamWorker

def Operation.isAcknowledgment : Operation → Bool
  | .acknowledge .. => true
  | _ => false

/-- Only an acknowledgment that is answered by one acknowledges. -/
theorem Occurrence.op_of_acknowledges {p : Occurrence} {id : String} (h : p.acknowledges = some id) :
    ∃ stream group, p.op = .acknowledge stream group id := by
  rw [acknowledges] at h
  cases hop : p.op with
  | acknowledge stream group x =>
    rw [hop, Store.acknowledges] at h
    split at h
    · cases h
      exact ⟨stream, group, rfl⟩
    · cases h
  | _ => rw [hop] at h; cases h

namespace History

variable {h : History} {l₁ l₂ : List Occurrence} {o p q : Occurrence} {n : Nat}

/-- A call asks for its second operation after its first. -/
theorem first_of_trail (hl : h.log = l₁ ++ p :: l₂) (hn : p.asker = .call n)
    (ht : h.trail n = [o, q]) (hne : p ≠ o) :
    p = q ∧ o.asker = .call n ∧ ∃ l₃ l₄, l₁ = l₃ ++ o :: l₄ := by
  have hfilter : l₁.filter (·.asker = .call n) ++ p :: l₂.filter (·.asker = .call n) = [o, q] := by
    rw [← ht, trail, hl, List.filter_append, List.filter_cons_of_pos (by simpa using hn)]
  have ho : o ∈ h.log.filter (·.asker = .call n) := by
    have ho' : o ∈ h.trail n := by simp [ht]
    exact ho'
  have hasker : o.asker = .call n := by simpa using (List.mem_filter.mp ho).2
  cases hx : l₁.filter (·.asker = .call n) with
  | nil =>
    rw [hx, List.nil_append, List.cons.injEq] at hfilter
    exact absurd hfilter.1 hne
  | cons x xs =>
    rw [hx, List.cons_append, List.cons.injEq] at hfilter
    obtain ⟨rfl, hrest⟩ := hfilter
    have hmem : x ∈ l₁ := (List.mem_filter.mp (hx ▸ List.mem_cons_self)).1
    cases xs with
    | nil =>
      rw [List.nil_append, List.cons.injEq] at hrest
      exact ⟨hrest.1, hasker, List.append_of_mem hmem⟩
    | cons y ys =>
      have hlen := congrArg List.length hrest
      simp only [List.cons_append, List.length_cons, List.length_append, List.length_nil] at hlen
      omega

/-- An acknowledgment of `id`, `p`, follows the creation of its result, `o`, in one and the same call;
`between` is what took place from one to the other. -/
structure Backed (h : History) (n : Nat) (c : CallRecord) (text : String) (o : Occurrence)
    (between : List Occurrence) (p : Occurrence) (id : String) : Prop where
  call : h.calls[n]? = some c
  publishes : c.call = .publish id text
  creator : o.asker = .call n
  acknowledger : p.asker = .call n
  created : o.Created id text c.worker.settings.retention
  acknowledged : p.op = .acknowledge c.worker.settings.stream c.worker.settings.group id
  written : 1 ≤ p.store.keys.writeCount id
  /-- Within the time for which it is kept, the result can be got, unless its expiry is past the end of
  the clock: then whoever asks for it breaks off. -/
  kept : p.now < o.now + c.worker.settings.retention.nanos → (∀ q ∈ between, ¬ q.Sets id) →
    (o.now + c.worker.settings.retention.nanos < h.limit →
      p.after.keys.look p.now id = .ok (some ⟨text, c.worker.settings.retention, o.now⟩) ∧
      (p.after.Open .get → (p.after.get p.now id).2 = .answer (some text))) ∧
    (h.limit ≤ o.now + c.worker.settings.retention.nanos →
      p.after.keys.look p.now id = .error .beyondClock ∧
      (p.after.Open .get → (p.after.get p.now id).2 = .broken .beyondClock))

end History

namespace History

variable {h : History} {l₁ l₂ : List Occurrence} {p : Occurrence} {id : String}

/-- Of all calls only publications acknowledge, and only after they have created the result. -/
theorem Sound.created_before {n : Nat} (hS : h.Sound) (hl : h.log = l₁ ++ p :: l₂)
    (hn : p.asker = .call n) (hp : p.acknowledges = some id) :
    ∃ c text o l₃ l₄, l₁ = l₃ ++ o :: l₄ ∧ h.calls[n]? = some c ∧ c.call = .publish id text ∧
      o.asker = .call n ∧ o.Created id text c.worker.settings.retention ∧
      p.op = .acknowledge c.worker.settings.stream c.worker.settings.group id := by
  have hmem : p ∈ h.log := by simp [hl]
  have hlt := hS.callers p hmem n hn
  obtain ⟨stream, group, hop⟩ := p.op_of_acknowledges hp
  have hc : h.calls[n]? = some h.calls[n] := List.getElem?_eq_getElem hlt
  have htrail : p ∈ h.trail n := List.mem_filter.mpr ⟨hmem, by simpa using hn⟩
  have hF := (hS.calls n _ hc).follows
  generalize h.calls[n] = c at hc hF
  unfold CallRecord.Follows at hF
  split at hF
  · next message text hcall =>
    rcases hF.shape with hnil | ⟨o, hone, ho⟩ | ⟨o, q, htwo, ho, hq⟩
    · rw [hnil] at htrail; cases htrail
    · rw [hone, List.mem_singleton] at htrail
      rw [htrail, ho] at hop
      cases hop
    · have hne : p ≠ o := by
        rintro rfl
        rw [ho.1] at hop
        cases hop
      obtain ⟨rfl, hasker, l₃, l₄, hsplit⟩ := first_of_trail hl hn htwo hne
      rw [hop] at hq
      cases hq
      exact ⟨c, text, o, l₃, l₄, hsplit, hc, hcall, hasker, ho, hop⟩
  all_goals
    rcases hF with ⟨stage, hs, ha⟩ | ⟨hnil, -⟩
    · have hop' := ha.op_eq p htrail
      rw [hop] at hop'
      cases stage <;> cases hs <;> cases hop'
    · rw [hnil] at htrail; cases htrail

/-- Where only publications acknowledge, every acknowledgment is backed. -/
theorem Sound.backed (hS : h.Sound) (hC : Chronicle h.log h.world.store h.world.now)
    (hout : ∀ o ∈ h.log, o.asker = .outsider → o.op.isAcknowledgment = false)
    (hl : h.log = l₁ ++ p :: l₂) (hp : p.acknowledges = some id) :
    ∃ n c text l₃ o l₄, l₁ = l₃ ++ o :: l₄ ∧ h.Backed n c text o l₄ p id := by
  have hmem : p ∈ h.log := by simp [hl]
  obtain ⟨stream, group, hop⟩ := p.op_of_acknowledges hp
  cases hasker : p.asker with
  | outsider =>
    have hno := hout p hmem hasker
    rw [hop] at hno
    cases hno
  | loop m =>
    obtain ⟨key, value, ttl, hset⟩ := hS.loops p hmem m hasker
    rw [hop] at hset
    cases hset
  | call n =>
    obtain ⟨c, text, o, l₃, l₄, rfl, hc, hcall, ho, hcreated, hack⟩ :=
      hS.created_before hl hasker hp
    have hbefore := (hC.before hl).1
    have hkeys : p.after.keys = p.store.keys := by
      rw [Occurrence.after, hop]
      exact Store.acknowledge_keys ..
    refine ⟨n, c, text, l₃, o, l₄, rfl, hc, hcall, ho, hasker, hcreated, hack, ?_, fun hlt hns => ?_⟩
    · exact Nat.le_trans (Occurrence.writeCount_of_created hcreated) (hbefore.writeCount_le rfl id)
    · have hr := hbefore.record_stays rfl (Occurrence.record_of_created hcreated) hns (.inl hlt)
      have hlimit : p.after.keys.limit = h.limit := by rw [hkeys, hC.limit_eq hmem, limit]
      rw [← hkeys] at hr
      rw [← hlimit]
      exact Store.get_of_stands hr (.inl hlt)

/-- A publication that was refused, that failed to publish, or that has not written acknowledges nothing. -/
theorem Sound.silent {n : Nat} {c : CallRecord} {text : String} (hS : h.Sound)
    (hc : h.calls[n]? = some c) (hcall : c.call = .publish id text)
    (hend : c.course = .ended (.finished (.error (.resultExists id))) ∨
      (∃ cause, c.course = .ended (.finished (.error (.unpublished id cause)))) ∨
      ∀ o ∈ h.trail n, ¬ o.Created id text c.worker.settings.retention)
    (hp : p ∈ h.trail n) : p.acknowledges = none := by
  have hF := (hS.calls n c hc).follows
  rw [CallRecord.Follows, hcall] at hF
  -- in all three cases the only operation of the call is its claim
  have hclaim (o : Occurrence) (ho : h.trail n = [o])
      (hop : o.op = .claim id text c.worker.settings.retention) : p.acknowledges = none := by
    rw [ho, List.mem_singleton] at hp
    rw [hp, Occurrence.acknowledges, hop]
    rfl
  rcases hend with hend | ⟨cause, hend⟩ | hend
  · rw [hend] at hF
    obtain ⟨o, ho, hcame⟩ := hF.of_resultExists
    exact hclaim o ho hcame.1
  · rw [hend] at hF
    obtain ⟨o, reason, ho, -, hcame⟩ := hF.of_unpublished
    exact hclaim o ho hcame.1
  · rcases hF.shape with hnil | ⟨o, ho, hop⟩ | ⟨o, q, htwo, hcreated, -⟩
    · rw [hnil] at hp; cases hp
    · exact hclaim o ho hop
    · exact absurd hcreated (hend o (by simp [htwo]))

/-- If only publications acknowledge, then every acknowledged id is backed by its result, and a call that
was refused, that failed to publish, or that ended before it had written acknowledges nothing. -/
theorem acknowledgments_backed (clock : Clock) (es : List Event)
    (hout : ∀ o ∈ ((start clock).run es).log, o.asker = .outsider → o.op.isAcknowledgment = false) :
    let h := (start clock).run es
    h.world.store.acknowledged = h.log.filterMap Occurrence.acknowledges ∧
    (∀ id ∈ h.world.store.acknowledged, 1 ≤ h.world.store.keys.writeCount id) ∧
    (∀ l₁ p l₂ id, h.log = l₁ ++ p :: l₂ → p.acknowledges = some id →
      ∃ n c text l₃ o l₄, l₁ = l₃ ++ o :: l₄ ∧ h.Backed n c text o l₄ p id) ∧
    (∀ n c message result, h.calls[n]? = some c → c.call = .publish message result →
      (c.course = .ended (.finished (.error (.resultExists message))) ∨
        (∃ cause, c.course = .ended (.finished (.error (.unpublished message cause)))) ∨
        ∀ o ∈ h.trail n, ¬ o.Created message result c.worker.settings.retention) →
      ∀ p ∈ h.trail n, p.acknowledges = none) := by
  have hC := chronicle clock es
  have hS := sound clock es
  refine ⟨hC.acknowledged_eq, fun id hid => ?_, fun l₁ p l₂ id hl hp => hS.backed hC hout hl hp,
    fun n c message result hc hcall hend p hp => hS.silent hc hcall hend hp⟩
  rw [hC.acknowledged_eq] at hid
  obtain ⟨p, hmem, hp⟩ := List.mem_filterMap.mp hid
  obtain ⟨l₁, l₂, hl⟩ := List.append_of_mem hmem
  obtain ⟨n, c, text, l₃, o, l₄, rfl, hb⟩ := hS.backed hC hout hl hp
  have hl' : ((start clock).run es).log = l₃ ++ o :: (l₄ ++ p :: l₂) := by simp [hl]
  exact Nat.le_trans (Occurrence.writeCount_of_created hb.created) (hC.writeCount_le hl' id)

/-- One worker takes the only message and publishes its result. -/
def solo (retention : Duration) : List Event :=
  [.hire "w" "a" { Settings.standard with retention, address := ⟨"redis://localhost"⟩ } .text,
    .operation (.createGroup Settings.defaultStream Settings.defaultGroup),
    .operation (.append Settings.defaultStream []), .begin "w" "main" .consume, .proceed 0,
    .begin "w" "main" (.publish "5-0" "done"), .proceed 1, .proceed 1]

theorem acknowledgments_backed_solo :
    ((start ⟨5, 0⟩).run (solo (.ofSeconds 60))).world.store.acknowledged = ["5-0"] ∧
      1 ≤ ((start ⟨5, 0⟩).run (solo (.ofSeconds 60))).world.store.keys.writeCount "5-0" := by
  have hids : ((start ⟨5, 0⟩).run (solo (.ofSeconds 60))).world.store.acknowledged = ["5-0"] := by
    decide +kernel
  have hall := acknowledgments_backed ⟨5, 0⟩ (solo (.ofSeconds 60)) (by decide +kernel)
  exact ⟨hids, hall.2.1 "5-0" (by rw [hids]; exact List.mem_singleton_self _)⟩

/-- A result that is kept for longer than the clock runs cannot be got when its message is acknowledged,
although nobody has set its key and no time has passed. -/
theorem acknowledged_result_unreadable :
    ∃ l o between p, ((start ⟨5, 0⟩).run (solo (.ofSeconds 18446744073709551615))).log =
        l ++ o :: between ++ [p] ∧
      o.Created "5-0" "done" (.ofSeconds 18446744073709551615) ∧ p.acknowledges = some "5-0" ∧
      p.now < o.now + (Duration.ofSeconds 18446744073709551615).nanos ∧ between = [] ∧
      (p.after.get p.now "5-0").2 = .broken .beyondClock := by
  refine ⟨((start ⟨5, 0⟩).run (solo (.ofSeconds 18446744073709551615))).log.take 3,
    ((start ⟨5, 0⟩).run (solo (.ofSeconds 18446744073709551615))).log.get ⟨3, by decide +kernel⟩, [],
    ((start ⟨5, 0⟩).run (solo (.ofSeconds 18446744073709551615))).log.get ⟨4, by decide +kernel⟩,
    ?_, ⟨by decide +kernel, by decide +kernel⟩, by decide +kernel, by decide +kernel, rfl,
    by decide +kernel⟩
  rfl

end History

end StreamWorker
