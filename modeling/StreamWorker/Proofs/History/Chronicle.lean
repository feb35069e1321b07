import StreamWorker.Proofs.History.Basic

/-! The log of a history as an account of its store. Every operation of the log was performed on what
the operations before it had left, and nothing but operations changes the contents. A record that a
claim has written therefore stays until its time is up, unless somebody sets the key, and all claims in
between come to nothing. -/

namespace StreamWorker

/-- A log that leads from the empty store of a new session to the store at an instant. -/
inductive Chronicle : List Occurrence → Store → Nat → Prop where
  | start (limit : Nat) : Chronicle [] (.new limit) 0
  /-- Between operations time passes and the contents stay as they are. -/
  | quiet {l : List Occurrence} {s s' : Store} {t t' : Nat} :
    Chronicle l s t → s.SameContents s' → t ≤ t' → Chronicle l s' t'
  | perform {l : List Occurrence} (o : Occurrence) :
    Chronicle l o.store o.now → Chronicle (l ++ [o]) o.after o.now

theorem History.chronicle_next {h : History} (hc : Chronicle h.log h.world.store h.world.now)
    (e : Event) : Chronicle (h.next e).log (h.next e).world.store (h.next e).world.now := by
  have ht := (h.next_leads e).now_le
  rcases h.next_log e with ⟨hl, hs⟩ | ⟨asker, op, hl, hs⟩
  · rw [hl]
    exact hc.quiet hs ht
  · have ho : Chronicle h.log (h.occurrence asker op).store (h.occurrence asker op).now := hc
    rw [hl, hs]
    exact (ho.perform _).quiet (.refl _) ht

/-- The log of a history accounts for its store. -/
theorem History.chronicle (clock : Clock) (es : List Event) :
    Chronicle ((start clock).run es).log ((start clock).run es).world.store
      ((start clock).run es).world.now :=
  run_induction (P := fun h => Chronicle h.log h.world.store h.world.now) (.start clock.limit)
    (fun _ e hc => chronicle_next hc e) es

/-- The first instant that is past the end of the clock. -/
def History.limit (h : History) : Nat := h.world.store.keys.limit

/-- The clock is that of the session from beginning to end. -/
theorem History.limit_run (clock : Clock) (es : List Event) :
    ((start clock).run es).limit = clock.limit := by
  refine run_induction (P := fun h => h.limit = clock.limit) rfl (fun h e hl => ?_) es
  rcases h.next_log e with ⟨-, hs⟩ | ⟨asker, op, -, hs⟩
  · rw [limit, hs.keys]
    exact hl
  · rw [limit, hs, Occurrence.after, Store.perform_limit]
    exact hl

/-- The place of one element in a list that another one was added to. -/
theorem snoc_eq_append_cons {α : Type} {l l₁ l₂ : List α} {a b : α}
    (h : l ++ [a] = l₁ ++ b :: l₂) :
    (l₂ = [] ∧ l = l₁ ∧ a = b) ∨ ∃ l₃, l₂ = l₃ ++ [a] ∧ l = l₁ ++ b :: l₃ := by
  rcases List.eq_nil_or_concat l₂ with rfl | ⟨l₃, c, rfl⟩
  · obtain ⟨hl, ha⟩ := List.append_inj' h rfl
    exact .inl ⟨rfl, hl, List.singleton_inj.mp ha⟩
  · rw [List.concat_eq_append, ← List.cons_append, ← List.append_assoc] at h
    obtain ⟨hl, ha⟩ := List.append_inj' h rfl
    rw [List.concat_eq_append, List.singleton_inj.mp ha]
    exact .inr ⟨l₃, rfl, hl⟩

namespace Chronicle

variable {l l₁ l₂ : List Occurrence} {s : Store} {t : Nat} {o : Occurrence}

/-- What had happened when an operation of the log took place. -/
theorem before (h : Chronicle l s t) (hl : l = l₁ ++ o :: l₂) :
    Chronicle l₁ o.store o.now ∧ o.now ≤ t := by
  induction h generalizing l₂ with
  | start => exact absurd hl (by simp)
  | quiet _ _ ht ih =>
    obtain ⟨hc, hn⟩ := ih hl
    exact ⟨hc, Nat.le_trans hn ht⟩
  | perform p hp ih =>
    rcases snoc_eq_append_cons hl with ⟨-, rfl, rfl⟩ | ⟨l₃, -, hl'⟩
    · exact ⟨hp, Nat.le_refl _⟩
    · exact ih hl'

/-- The end of the clock stays where it is. -/
theorem limit_eq (h : Chronicle l s t) (ho : o ∈ l) : o.store.keys.limit = s.keys.limit := by
  induction h with
  | start => cases ho
  | quiet _ hsame _ ih => rw [hsame.keys, ih ho]
  | perform p _ ih =>
    rw [show p.after.keys.limit = p.store.keys.limit from Store.perform_limit ..]
    rcases List.mem_append.mp ho with ho | ho
    · exact ih ho
    · rw [List.mem_singleton.mp ho]

theorem now_le (h : Chronicle l s t) (ho : o ∈ l) : o.now ≤ t := by
  obtain ⟨l₁, l₂, hl⟩ := List.append_of_mem ho
  exact (h.before hl).2

end Chronicle

/-! ### Keys -/

theorem KeyRecord.Stands.mono {r : KeyRecord} {limit t t' : Nat} (h : r.Stands limit t') (ht : t ≤ t') :
    r.Stands limit t :=
  h.imp_left (Nat.lt_of_le_of_lt ht)

namespace Occurrence

/-- The operation was a claim of the key, and it wrote. -/
def Created (o : Occurrence) (key value : String) (ttl : Duration) : Prop :=
  o.CameTo (.claim key value ttl) (.answer true)

/-- The operation was a write of the key that does not ask what is there. -/
def Sets (o : Occurrence) (key : String) : Prop := ∃ value ttl, o.op = .set key value ttl

variable {o : Occurrence} {key value : String} {ttl : Duration}

theorem record_of_created (h : o.Created key value ttl) :
    o.after.keys.records.get? key = some ⟨value, ttl, o.now⟩ := by
  obtain ⟨hop, hr⟩ := h
  obtain ⟨ho, hl⟩ := Store.claim_true_iff.mp hr
  rw [after, hop, Store.perform, Store.claim_of_absent ho hl]
  simp [Keyspace.get?_put]

theorem writeCount_of_created (h : o.Created key value ttl) : 1 ≤ o.after.keys.writeCount key := by
  obtain ⟨hop, hr⟩ := h
  obtain ⟨ho, hl⟩ := Store.claim_true_iff.mp hr
  rw [after, hop, Store.perform, Store.claim_of_absent ho hl]
  simp [Keyspace.writeCount_put]

/-- A record that stands is changed only by an operation that sets its key. -/
theorem record_of_stands {r : KeyRecord} (h : o.store.keys.records.get? key = some r)
    (hs : r.Stands o.store.keys.limit o.now) (hn : ¬ o.Sets key) :
    o.after.keys.records.get? key = some r := by
  by_cases hk : o.op.key? = some key
  · cases hop : o.op with
    | set k v d =>
      rw [hop, Operation.key?] at hk
      exact absurd ⟨v, d, by rw [hop, Option.some.inj hk]⟩ hn
    | claim k v d =>
      rw [hop, Operation.key?, Option.some.injEq] at hk
      subst hk
      rw [after, hop, Store.perform]
      rcases Store.claim_cases o.store o.now k v d with ⟨-, hl, -⟩ | ⟨he, -⟩
      · exact absurd hs (Keyspace.look_eq_none_iff.mp hl r h)
      · rw [he, h]
    | _ => simp [hop, Operation.key?] at hk
  · rw [after, (Store.perform_key_of_ne hk).1, h]

/-- A claim of a key whose record stands is refused, unless it fails, stalls or breaks. -/
theorem claim_of_stands {r : KeyRecord} {answer : Response Bool}
    (h : o.store.keys.records.get? key = some r) (hs : r.Stands o.store.keys.limit o.now)
    (hc : o.CameTo (.claim key value ttl) answer) :
    (answer = .stalled ∨ ∃ reason, answer = .failure (.store reason)) ∨
      answer = if r.expiry < o.store.keys.limit then .answer false else .broken .beyondClock := by
  have ha : (o.store.claim o.now key value ttl).2 = answer := hc.2
  rw [← ha]
  rcases Store.fault_cases o.store .claim with hf | ⟨reason, hn, hf⟩ | ho
  · exact .inl (.inl (by rw [Store.claim, Store.gate_of_stalled hf]))
  · exact .inl (.inr ⟨reason, by rw [Store.claim, Store.gate_of_failing hn hf]⟩)
  · right
    have hl := Keyspace.look_of_stands h hs
    split at hl
    · next hx => rw [if_pos hx, Store.claim_of_present ho hl]
    · next hx => rw [if_neg hx, Store.claim_of_broken ho hl]

end Occurrence

namespace Chronicle

variable {l l₁ l₂ : List Occurrence} {s : Store} {t : Nat} {o : Occurrence}
variable {key value : String} {ttl : Duration}

/-- A record stays until its time is up, unless somebody sets the key. -/
theorem record_stays {r : KeyRecord} (h : Chronicle l s t) (hl : l = l₁ ++ o :: l₂)
    (hr : o.after.keys.records.get? key = some r) (hs : ∀ p ∈ l₂, ¬ p.Sets key)
    (ht : r.Stands s.keys.limit t) : s.keys.records.get? key = some r := by
  induction h generalizing l₂ with
  | start => exact absurd hl (by simp)
  | quiet _ hsame hle ih =>
    rw [hsame.keys] at ht ⊢
    exact ih hl hs (ht.mono hle)
  | perform p hp ih =>
    rcases snoc_eq_append_cons hl with ⟨-, -, rfl⟩ | ⟨l₃, rfl, hl'⟩
    · exact hr
    · rw [show p.after.keys.limit = p.store.keys.limit from Store.perform_limit ..] at ht
      have hr' := ih hl' (fun q hq => hs q (List.mem_append_left _ hq)) ht
      exact Occurrence.record_of_stands hr' ht (hs p (by simp))

/-- A record that an operation left is there for a later one, as long as its time is not up. -/
theorem record_before {p : Occurrence} {r : KeyRecord} (h : Chronicle l s t) (hl : l = l₁ ++ o :: l₂)
    (hp : p ∈ l₂) (hr : o.after.keys.records.get? key = some r) (hs : ∀ q ∈ l₂, ¬ q.Sets key)
    (ht : r.Stands p.store.keys.limit p.now) : p.store.keys.records.get? key = some r := by
  obtain ⟨l₃, l₄, rfl⟩ := List.append_of_mem hp
  have hl' : l = (l₁ ++ o :: l₃) ++ p :: l₄ := by simp [hl]
  have hb := (h.before hl').1
  exact hb.record_stays rfl hr (fun q hq => hs q (List.mem_append_left _ hq)) ht

theorem writeCount_le (h : Chronicle l s t) (hl : l = l₁ ++ o :: l₂) (key : String) :
    o.after.keys.writeCount key ≤ s.keys.writeCount key := by
  induction h generalizing l₂ with
  | start => exact absurd hl (by simp)
  | quiet _ hsame _ ih => rw [hsame.keys]; exact ih hl
  | perform p hp ih =>
    rcases snoc_eq_append_cons hl with ⟨-, -, rfl⟩ | ⟨l₃, -, hl'⟩
    · exact Nat.le_refl _
    · exact Nat.le_trans (ih hl') (Store.writeCount_le_perform ..)

/-- A key that a claim wrote can be written by another one only when the time of the first is up. -/
theorem created_apart {p : Occurrence} {value' : String} {ttl' : Duration} (h : Chronicle l s t)
    (hl : l = l₁ ++ o :: l₂) (hp : p ∈ l₂) (hc : o.Created key value ttl)
    (hc' : p.Created key value' ttl') (hs : ∀ q ∈ l₂, ¬ q.Sets key) :
    o.now + ttl.nanos ≤ p.now := by
  rcases Nat.lt_or_ge p.now (o.now + ttl.nanos) with hlt | hge
  · have hr := h.record_before hl hp (Occurrence.record_of_created hc) hs (.inl hlt)
    rcases Occurrence.claim_of_stands hr (.inl hlt) hc' with (he | ⟨reason, he⟩) | he
    · cases he
    · cases he
    · split at he <;> cases he
  · exact hge

end Chronicle

/-! ### Acknowledgments -/

/-- The id that an operation added to the acknowledged ones. -/
def Occurrence.acknowledges (o : Occurrence) : Option String := o.store.acknowledges o.op

/-- The acknowledged ids are those that the log has seen, in order. -/
theorem Chronicle.acknowledged_eq {l : List Occurrence} {s : Store} {t : Nat} (h : Chronicle l s t) :
    s.acknowledged = l.filterMap Occurrence.acknowledges := by
  induction h with
  | start => rfl
  | quiet _ hsame _ ih => rw [hsame.acknowledged, ih]
  | perform o _ ih =>
    have ho : o.after.acknowledged = o.store.acknowledged ++ o.acknowledges.toList :=
      Store.perform_acknowledged ..
    rw [ho, ih, List.filterMap_append]
    cases ha : o.acknowledges <;> simp [ha]

end StreamWorker
