import StreamWorker.Proofs.History.Calls
import StreamWorker.Proofs.Settings.Basic

/-! The window of a claim. From the moment at which a claim writes a key until its time is up, every
other claim of that key comes to nothing and no other publication of it succeeds, in whatever order the
operations of all calls, loops and outsiders take place, as long as nobody sets the key. -/

namespace StreamWorker

namespace Chronicle

variable {l l₁ l₂ : List Occurrence} {s : Store} {t : Nat} {o p : Occurrence}
variable {key value value' : String} {ttl ttl' : Duration} {answer : Response Bool}

/-- A claim that comes after one that wrote is refused, or it fails or stalls. -/
theorem claim_refused (h : Chronicle l s t) (hl : l = l₁ ++ o :: l₂) (hp : p ∈ l₂)
    (hc : o.Created key value ttl) (hs : ∀ q ∈ l₂, ¬ q.Sets key) (hlt : p.now < o.now + ttl.nanos)
    (hx : o.now + ttl.nanos < s.keys.limit) (ha : p.CameTo (.claim key value' ttl') answer) :
    answer = .answer false ∨ answer = .stalled ∨ ∃ reason, answer = .failure (.store reason) := by
  have hr := h.record_before hl hp (Occurrence.record_of_created hc) hs (.inl hlt)
  rcases Occurrence.claim_of_stands hr (.inl hlt) ha with he | he
  · exact .inr he
  · have hp' : p ∈ l := by simp [hl, hp]
    have hx' : KeyRecord.expiry ⟨value, ttl, o.now⟩ < p.store.keys.limit := by
      rw [h.limit_eq hp']
      exact hx
    rw [if_pos hx'] at he
    exact .inl he

/-- No claim of a key can write after another one has broken on it. -/
theorem not_created_of_broken {b : Breakdown} (h : Chronicle l s t) (hl : l = l₁ ++ p :: l₂)
    (ho : o ∈ l₂) (hb : p.CameTo (.claim key value' ttl') (.broken b))
    (hs : ∀ q ∈ l₂, ¬ q.Sets key) : ¬ o.Created key value ttl := by
  intro hc
  have hbroken : p.store.keys.look p.now key = .error b := Store.claim_broken hb.2
  obtain ⟨r, hr, hlim⟩ := Keyspace.look_error hbroken
  have hns : ¬ p.Sets key := by
    rintro ⟨v, d, hset⟩
    rw [hb.1] at hset
    cases hset
  have hafter := Occurrence.record_of_stands hr (.inr hlim) hns
  have hlim' : o.store.keys.limit ≤ r.expiry := by
    rw [h.limit_eq (by simp [hl, ho]), ← h.limit_eq (o := p) (by simp [hl])]
    exact hlim
  have hbefore := h.record_before hl ho hafter hs (.inr hlim')
  have hlook := (Store.claim_true_iff.mp hc.2).2
  exact Keyspace.look_eq_none_iff.mp hlook r hbefore (.inr hlim')

end Chronicle

namespace History

variable {h : History} {key text : String} {n : Nat} {c : CallRecord}

/-- The call of a number publishes a result under a key. -/
def Publishes (h : History) (n : Nat) (c : CallRecord) (key text : String) : Prop :=
  h.calls[n]? = some c ∧ c.call = .publish key text

theorem Sound.publishing (hS : h.Sound) (hc : h.Publishes n c key text) :
    Publishing (h.world.isCancelled c.token = true) c.worker c.token key text (h.trail n) c.course := by
  have hF := (hS.calls n c hc.1).follows
  rwa [CallRecord.Follows, hc.2] at hF

theorem mem_trail {o : Occurrence} : o ∈ h.trail n ↔ o ∈ h.log ∧ o.asker = .call n := by
  rw [trail, List.mem_filter, decide_eq_true_eq]

/-- Two operations of a log, one of which comes first. -/
theorem ordered {l l₁ l₂ : List Occurrence} {o p : Occurrence} (hl : l = l₁ ++ o :: l₂) (hp : p ∈ l)
    (hne : p ≠ o) : p ∈ l₂ ∨ ∃ l₃ l₄, l = l₃ ++ p :: l₄ ∧ o ∈ l₄ := by
  rw [hl] at hp
  rcases List.mem_append.mp hp with hp | hp
  · obtain ⟨l₃, l₄, rfl⟩ := List.append_of_mem hp
    exact .inr ⟨l₃, l₄ ++ o :: l₂, by simp [hl], by simp⟩
  · rcases List.mem_cons.mp hp with hp | hp
    · exact absurd hp hne
    · exact .inl hp

/-- Two publications that both create a key do so at least the retention of the first apart. -/
theorem publications_apart {m : Nat} {d : CallRecord} {text' : String} {o p : Occurrence}
    (hC : Chronicle h.log h.world.store h.world.now) (hS : h.Sound)
    (hs : ∀ q ∈ h.log, ¬ q.Sets key) (hd : h.Publishes m d key text') (hnm : n ≠ m)
    (ho : o ∈ h.trail n) (hp : p ∈ h.trail m)
    (hoc : o.Created key text c.worker.settings.retention)
    (hpc : p.Created key text' d.worker.settings.retention) (hle : o.now ≤ p.now) :
    o.now + c.worker.settings.retention.nanos ≤ p.now := by
  rw [mem_trail] at ho hp
  have hne : p ≠ o := by
    rintro rfl
    have := ho.2.symm.trans hp.2
    cases this
    exact hnm rfl
  obtain ⟨l₁, l₂, hl⟩ := List.append_of_mem ho.1
  rcases ordered hl hp.1 hne with hafter | ⟨l₃, l₄, hl', hafter⟩
  · have hs' : ∀ q ∈ l₂, ¬ q.Sets key := fun q hq => hs q (by simp [hl, hq])
    exact hC.created_apart hl hafter hoc hpc hs'
  · -- the second one would have come first, at the same instant, and still be there
    have hs' : ∀ q ∈ l₄, ¬ q.Sets key := fun q hq => hs q (by simp [hl', hq])
    have hapart := hC.created_apart hl' hafter hpc hoc hs'
    have hpos := Settings.retention_pos (hS.calls m d hd.1).checked
    omega

/-- No other publication that began and ended within the window of a claim has succeeded, and none has
broken off. -/
theorem publication_fails {o : Occurrence} {value : String} {ttl : Duration} {e : Ending Success}
    (hC : Chronicle h.log h.world.store h.world.now) (hS : h.Sound)
    (hs : ∀ q ∈ h.log, ¬ q.Sets key) (ho : o ∈ h.log) (hoc : o.Created key value ttl)
    (hx : o.now + ttl.nanos < h.limit) (hlt : h.world.now < o.now + ttl.nanos)
    (hc : h.Publishes n c key text) (hother : o.asker ≠ .call n) (hbegun : o.now ≤ c.begun)
    (he : c.course = .ended e) : e = .abandoned ∨ ∃ f, e = .finished (.error f) := by
  have hP := hS.publishing hc
  rw [he] at hP
  have hcs := hS.calls n c hc.1
  obtain ⟨l₁, l₂, hl⟩ := List.append_of_mem ho
  have hs₂ : ∀ q ∈ l₂, ¬ q.Sets key := fun q hq => hs q (by simp [hl, hq])
  -- an operation of the call is another one, since the call began, and within the window
  have hmine (p : Occurrence) (hp : p ∈ h.trail n) :
      p.now < o.now + ttl.nanos ∧ o.now ≤ p.now ∧
        (p ∈ l₂ ∨ ∃ l₃ l₄, h.log = l₃ ++ p :: l₄ ∧ o ∈ l₄ ∧ ∀ q ∈ l₄, ¬ q.Sets key) := by
    have hp' := mem_trail.mp hp
    have hne : p ≠ o := by
      rintro rfl
      exact hother hp'.2
    refine ⟨Nat.lt_of_le_of_lt (hC.now_le hp'.1) hlt, Nat.le_trans hbegun (hcs.since p hp), ?_⟩
    rcases ordered hl hp'.1 hne with hafter | ⟨l₃, l₄, hl', hafter⟩
    · exact .inl hafter
    · exact .inr ⟨l₃, l₄, hl', hafter, fun q hq => hs q (by simp [hl', hq])⟩
  cases e with
  | abandoned => exact .inl rfl
  | finished result =>
    cases result with
    | error f => exact .inr ⟨f, rfl⟩
    | ok success =>
      obtain ⟨p, q, k, htrail, hpc, -⟩ := hP.of_ok
      obtain ⟨hnow, hsince, hafter | ⟨l₃, l₄, hl', hafter, hs'⟩⟩ := hmine p (by simp [htrail])
      · have := hC.created_apart hl hafter hoc hpc hs₂
        omega
      · have hapart := hC.created_apart hl' hafter hpc hoc hs'
        have hpos := Settings.retention_pos hcs.checked
        omega
  | broken b =>
    obtain ⟨p, htrail, hpb⟩ := hP.of_broken
    obtain ⟨hnow, hsince, hafter | ⟨l₃, l₄, hl', hafter, hs'⟩⟩ := hmine p (by simp [htrail])
    · rcases hC.claim_refused hl hafter hoc hs₂ hnow hx hpb with hr | hr | ⟨reason, hr⟩ <;> cases hr
    · exact absurd hoc (hC.not_created_of_broken hl' hafter hpb hs')

end History

end StreamWorker
