import StreamWorker.Proofs.History.Chronicle

/-! The writes of a log. What the store holds under a key is what the last operation that wrote the key
has left there, and the key was written as often as operations of the log have written it. A look
therefore finds something exactly as long as the time of the last write is not up. -/

namespace StreamWorker

namespace Occurrence

/-- The record that an operation left under a key, if it wrote the key. -/
def wrote? (o : Occurrence) (key : String) : Option KeyRecord :=
  match o.op with
  | .set k value ttl =>
    if k = key ∧ (o.store.set o.now k value ttl).2 = .answer () then some ⟨value, ttl, o.now⟩ else none
  | .claim k value ttl =>
    if k = key ∧ (o.store.claim o.now k value ttl).2 = .answer true then some ⟨value, ttl, o.now⟩
    else none
  | _ => none

/-- The operation has written the key. -/
def Writes (o : Occurrence) (key : String) : Prop := (o.wrote? key).isSome = true

instance (o : Occurrence) (key : String) : Decidable (o.Writes key) :=
  inferInstanceAs (Decidable (_ = true))

variable {o : Occurrence} {key : String} {r : KeyRecord}

theorem wrote?_of_key_ne (h : o.op.key? ≠ some key) : o.wrote? key = none := by
  unfold wrote?
  cases hop : o.op with
  | set k v d => exact if_neg fun hk => h (by rw [hop, Operation.key?, hk.1])
  | claim k v d => exact if_neg fun hk => h (by rw [hop, Operation.key?, hk.1])
  | _ => rfl

theorem key_of_wrote (h : o.wrote? key = some r) : o.op.key? = some key := by
  by_cases hk : o.op.key? = some key
  · exact hk
  · rw [wrote?_of_key_ne hk] at h
    cases h

/-- A key is written by setting it, or by claiming it where nothing is. -/
theorem wrote?_eq_some :
    o.wrote? key = some r ↔ r.writtenAt = o.now ∧
      (o.CameTo (.set key r.value r.ttl) (.answer ()) ∨ o.Created key r.value r.ttl) := by
  unfold wrote?
  obtain ⟨value, ttl, t⟩ := r
  constructor
  · intro h
    split at h
    · next hop =>
      split at h
      · next hk =>
        obtain ⟨rfl, hr⟩ := hk
        cases h
        exact ⟨rfl, .inl ⟨hop, hr⟩⟩
      · cases h
    · next hop =>
      split at h
      · next hk =>
        obtain ⟨rfl, hr⟩ := hk
        cases h
        exact ⟨rfl, .inr ⟨hop, hr⟩⟩
      · cases h
    · cases h
  · rintro ⟨rfl, ⟨hop, hr⟩ | ⟨hop, hr⟩⟩
    · rw [hop]
      exact if_pos ⟨rfl, hr⟩
    · rw [hop]
      exact if_pos ⟨rfl, hr⟩

/-- An operation leaves its record under the key that it wrote, and every other key as it was. -/
theorem after_key (o : Occurrence) (key : String) :
    o.after.keys.records.get? key = (o.wrote? key).or (o.store.keys.records.get? key) ∧
      o.after.keys.writeCount key = o.store.keys.writeCount key + (o.wrote? key).toList.length := by
  have hput (k value : String) (ttl : Duration) :
      (o.store.keys.put o.now k value ttl).records.get? key =
          (if k = key then some ⟨value, ttl, o.now⟩ else none : Option KeyRecord).or
            (o.store.keys.records.get? key) ∧
        (o.store.keys.put o.now k value ttl).writeCount key = o.store.keys.writeCount key +
          (if k = key then some ⟨value, ttl, o.now⟩ else none : Option KeyRecord).toList.length := by
    rw [Keyspace.get?_put, Keyspace.writeCount_put]
    split <;> exact ⟨rfl, rfl⟩
  by_cases hk : o.op.key? = some key
  · rw [wrote?, after]
    cases hop : o.op with
    | set k value ttl =>
      rw [Store.perform]
      rcases Store.set_contents o.store o.now k value ttl with ⟨hs, hn⟩ | hs
      · simp [hs, hn]
      · simpa only [hs, and_true] using hput k value ttl
    | claim k value ttl =>
      rw [Store.perform]
      rcases Store.claim_cases o.store o.now k value ttl with ⟨-, -, hs⟩ | ⟨hs, hn⟩
      · simpa only [hs, and_true] using hput k value ttl
      · simp [hs, hn]
    | _ => simp [hop, Operation.key?] at hk
  · rw [wrote?_of_key_ne hk]
    exact Store.perform_key_of_ne hk

end Occurrence

/-- The records that operations have left under a key, in order. -/
def writesOfKey (l : List Occurrence) (key : String) : List KeyRecord :=
  l.filterMap (·.wrote? key)

namespace Chronicle

variable {l l₁ l₂ : List Occurrence} {s : Store} {t : Nat} {o : Occurrence} {key : String}
variable {r : KeyRecord}

/-- What the store holds under a key is the last of the writes. -/
theorem last_write (h : Chronicle l s t) (key : String) :
    s.keys.records.get? key = (writesOfKey l key).getLast? ∧
      s.keys.writeCount key = (writesOfKey l key).length := by
  induction h with
  | start => exact ⟨rfl, rfl⟩
  | quiet _ hsame _ ih => rw [hsame.keys]; exact ih
  | perform o _ ih =>
    obtain ⟨hr, hw⟩ := o.after_key key
    rw [hr, hw, ih.1, ih.2, writesOfKey, writesOfKey, List.filterMap_append, List.filterMap_cons,
      List.filterMap_nil]
    cases o.wrote? key <;> simp

theorem record_of_last (h : Chronicle l s t) (hl : l = l₁ ++ o :: l₂) (ho : o.wrote? key = some r)
    (hlast : ∀ p ∈ l₂, p.wrote? key = none) : s.keys.records.get? key = some r := by
  rw [(h.last_write key).1, hl, writesOfKey, List.filterMap_append, List.filterMap_cons, ho,
    List.filterMap_eq_nil_iff.mpr hlast]
  simp

/-- Under a key that holds a record, somebody was the last to write. -/
theorem exists_last (h : Chronicle l s t) (hr : s.keys.records.get? key = some r) :
    ∃ l₁ o l₂, l = l₁ ++ o :: l₂ ∧ o.wrote? key = some r ∧ ∀ p ∈ l₂, p.wrote? key = none := by
  rw [(h.last_write key).1, writesOfKey, List.getLast?_eq_some_iff] at hr
  obtain ⟨rs, hr⟩ := hr
  obtain ⟨l₁, l₂, rfl, -, h₂⟩ := List.filterMap_eq_append_iff.mp hr
  obtain ⟨l₃, o, l₄, rfl, h₃, ho, h₄⟩ := List.filterMap_eq_cons_iff.mp h₂
  exact ⟨l₁ ++ l₃, o, l₄, by simp, ho, List.filterMap_eq_nil_iff.mp h₄⟩

/-- A key is absent as long as nobody has written it. -/
theorem look_of_unwritten (h : Chronicle l s t) (hn : ∀ o ∈ l, o.wrote? key = none) (now : Nat) :
    s.keys.look now key = .ok none := by
  refine Keyspace.look_of_none ?_
  rw [(h.last_write key).1, writesOfKey, List.filterMap_eq_nil_iff.mpr hn]
  rfl

end Chronicle

end StreamWorker
