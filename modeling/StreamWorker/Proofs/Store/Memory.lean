import StreamWorker.Proofs.Store.Keyspace
import StreamWorker.Store.Memory

/-! What each operation of the store in memory changes and answers. An operation is open if it is made
neither to stall nor to fail; one that is not open changes no contents. Only the two operations that
write a key touch the record under it, only an acknowledgment that is answered by one extends the list
of acknowledged ids, and a claim is answered by `true` exactly if it wrote. -/

namespace StreamWorker

/-- The key that an operation may write. -/
def Operation.key? : Operation → Option String
  | .set key .. => some key
  | .claim key .. => some key
  | _ => none

namespace Store

/-- The parts of two stores that operations work on are the same; faults, answers given in advance and
the last read may differ. -/
structure SameContents (s t : Store) : Prop where
  keys : t.keys = s.keys
  streams : t.streams = s.streams
  acknowledged : t.acknowledged = s.acknowledged

theorem SameContents.refl (s : Store) : SameContents s s := ⟨rfl, rfl, rfl⟩

theorem SameContents.trans {s t u : Store} (h : SameContents s t) (h' : SameContents t u) :
    SameContents s u :=
  ⟨h'.keys.trans h.keys, h'.streams.trans h.streams, h'.acknowledged.trans h.acknowledged⟩

/-- An operation that is made neither to stall nor to fail. -/
def Open (s : Store) (p : FaultPoint) : Prop := p ∉ s.stalled ∧ s.failing.get? p = none

instance (s : Store) (p : FaultPoint) : Decidable (s.Open p) := inferInstanceAs (Decidable (_ ∧ _))

variable {s : Store} {now clock : Nat} {key value : String} {ttl : Duration}

/-! ### The gate -/

theorem fault_cases (s : Store) (p : FaultPoint) :
    p ∈ s.stalled ∨ (∃ reason, p ∉ s.stalled ∧ s.failing.get? p = some reason) ∨ s.Open p := by
  by_cases hs : p ∈ s.stalled
  · exact .inl hs
  · cases hf : s.failing.get? p with
    | some reason => exact .inr (.inl ⟨reason, hs, rfl⟩)
    | none => exact .inr (.inr ⟨hs, hf⟩)

theorem not_open_of_failing {p : FaultPoint} {reason : String}
    (h : s.failing.get? p = some reason) : ¬ s.Open p := by
  intro ho
  have := ho.2.symm.trans h
  cases this

section Gate
variable {α : Type} {p : FaultPoint} {go : Store → Store × Response α}

theorem gate_of_open (h : s.Open p) : s.gate p go = go s := by
  rw [gate, if_neg h.1, h.2]

theorem gate_of_stalled (h : p ∈ s.stalled) : s.gate p go = (s, .stalled) := by
  rw [gate, if_pos h]

theorem gate_of_failing {reason : String} (h : p ∉ s.stalled) (hf : s.failing.get? p = some reason) :
    s.gate p go = (s, .failure (.store reason)) := by
  rw [gate, if_neg h, hf]

theorem gate_failure {f : Failure} (hgo : (go s).2 = .failure f → ∃ reason, f = .store reason)
    (h : (s.gate p go).2 = .failure f) : ∃ reason, f = .store reason := by
  rcases fault_cases s p with hs | ⟨reason, hs, hf⟩ | ho
  · rw [gate_of_stalled hs] at h; cases h
  · rw [gate_of_failing hs hf] at h
    cases h
    exact ⟨reason, rfl⟩
  · rw [gate_of_open ho] at h
    exact hgo h

end Gate

/-! ### Claims -/

theorem claim_of_absent (ho : s.Open .claim) (h : s.keys.look now key = .ok none) :
    s.claim now key value ttl =
      ({ s with keys := s.keys.put now key value ttl }, .answer true) := by
  rw [claim, gate_of_open ho, Keyspace.claim_of_look_none h]

theorem claim_of_present {r : KeyRecord} (ho : s.Open .claim)
    (h : s.keys.look now key = .ok (some r)) :
    s.claim now key value ttl = (s, .answer false) := by
  rw [claim, gate_of_open ho, Keyspace.claim_of_look_some h]

theorem claim_of_broken {b : Breakdown} (ho : s.Open .claim) (h : s.keys.look now key = .error b) :
    s.claim now key value ttl = (s, .broken b) := by
  rw [claim, gate_of_open ho, Keyspace.claim_of_look_error h]

/-- A claim is answered by `true` after writing over nothing, or it changes nothing. -/
theorem claim_cases (s : Store) (now : Nat) (key value : String) (ttl : Duration) :
    (s.Open .claim ∧ s.keys.look now key = .ok none ∧ s.claim now key value ttl =
      ({ s with keys := s.keys.put now key value ttl }, .answer true)) ∨
      ((s.claim now key value ttl).1 = s ∧ (s.claim now key value ttl).2 ≠ .answer true) := by
  rcases fault_cases s .claim with hs | ⟨reason, hs, hf⟩ | ho
  · right; rw [claim, gate_of_stalled hs]; exact ⟨rfl, by simp⟩
  · right; rw [claim, gate_of_failing hs hf]; exact ⟨rfl, by simp⟩
  · cases hl : s.keys.look now key with
    | error b => right; rw [claim_of_broken ho hl]; exact ⟨rfl, by simp⟩
    | ok o =>
      cases o with
      | none => exact .inl ⟨ho, rfl, claim_of_absent ho hl⟩
      | some r => right; rw [claim_of_present ho hl]; exact ⟨rfl, by simp⟩

theorem claim_true_iff :
    (s.claim now key value ttl).2 = .answer true ↔
      s.Open .claim ∧ s.keys.look now key = .ok none := by
  constructor
  · intro h
    rcases claim_cases s now key value ttl with ⟨ho, hl, -⟩ | ⟨-, hne⟩
    · exact ⟨ho, hl⟩
    · exact absurd h hne
  · rintro ⟨ho, hl⟩
    rw [claim_of_absent ho hl]

theorem claim_broken {b : Breakdown} (h : (s.claim now key value ttl).2 = .broken b) :
    s.keys.look now key = .error b := by
  rcases fault_cases s .claim with hs | ⟨reason, hs, hf⟩ | ho
  · rw [claim, gate_of_stalled hs] at h; cases h
  · rw [claim, gate_of_failing hs hf] at h; cases h
  · cases hl : s.keys.look now key with
    | error b' => rw [claim_of_broken ho hl] at h; cases h; rfl
    | ok o =>
      cases o with
      | none => rw [claim_of_absent ho hl] at h; cases h
      | some r => rw [claim_of_present ho hl] at h; cases h

/-- A claim is refused only where a look finds something. -/
theorem claim_refused (h : (s.claim now key value ttl).2 = .answer false) :
    ∃ r, s.keys.look now key = .ok (some r) := by
  rcases fault_cases s .claim with hs | ⟨reason, hs, hf⟩ | ho
  · rw [claim, gate_of_stalled hs] at h; cases h
  · rw [claim, gate_of_failing hs hf] at h; cases h
  · cases hl : s.keys.look now key with
    | error b => rw [claim_of_broken ho hl] at h; cases h
    | ok r =>
      cases r with
      | none => rw [claim_of_absent ho hl] at h; cases h
      | some r => exact ⟨r, rfl⟩

theorem claim_of_open (ho : s.Open .claim) :
    (s.claim now key value ttl).2 ≠ .stalled ∧ ∀ f, (s.claim now key value ttl).2 ≠ .failure f := by
  cases hl : s.keys.look now key with
  | error b => rw [claim_of_broken ho hl]; simp
  | ok r =>
    cases r with
    | none => rw [claim_of_absent ho hl]; simp
    | some r => rw [claim_of_present ho hl]; simp

/-! ### Gets -/

theorem get_of_open (ho : s.Open .get) :
    (s.get now key).2 = match s.keys.look now key with
      | .ok r => .answer (r.map (·.value))
      | .error b => .broken b := by
  rw [get, gate_of_open ho]
  cases s.keys.look now key <;> rfl

/-- Whoever gets something gets what a look finds. -/
theorem get_some (h : (s.get now key).2 = .answer (some value)) :
    ∃ r, s.keys.look now key = .ok (some r) ∧ r.value = value := by
  rcases fault_cases s .get with hs | ⟨reason, hs, hf⟩ | ho
  · rw [get, gate_of_stalled hs] at h; cases h
  · rw [get, gate_of_failing hs hf] at h; cases h
  · rw [get_of_open ho] at h
    cases hl : s.keys.look now key with
    | error b => rw [hl] at h; cases h
    | ok r =>
      rw [hl] at h
      cases r with
      | none => cases h
      | some r =>
        cases h
        exact ⟨r, rfl, rfl⟩

/-- What can be got of a record that stands. -/
theorem get_of_stands {r : KeyRecord} (h : s.keys.records.get? key = some r)
    (hs : r.Stands s.keys.limit now) :
    (r.expiry < s.keys.limit → s.keys.look now key = .ok (some r) ∧
      (s.Open .get → (s.get now key).2 = .answer (some r.value))) ∧
    (s.keys.limit ≤ r.expiry → s.keys.look now key = .error .beyondClock ∧
      (s.Open .get → (s.get now key).2 = .broken .beyondClock)) := by
  have hl := Keyspace.look_of_stands h hs
  constructor
  · intro hc
    rw [if_pos hc] at hl
    exact ⟨hl, fun ho => by rw [get_of_open ho, hl]; rfl⟩
  · intro hc
    rw [if_neg (Nat.not_lt.mpr hc)] at hl
    exact ⟨hl, fun ho => by rw [get_of_open ho, hl]⟩

theorem get_store (s : Store) (now : Nat) (key : String) : (s.get now key).1 = s := by
  rcases fault_cases s .get with hs | ⟨reason, hs, hf⟩ | ho
  · rw [get, gate_of_stalled hs]
  · rw [get, gate_of_failing hs hf]
  · rw [get, gate_of_open ho]
    cases s.keys.look now key <;> rfl

/-! ### Acknowledgments -/

variable {stream group id : String}

/-- An acknowledgment stalls or fails without changing anything, finds nothing pending, or takes the
id off the pending ones. -/
theorem acknowledge_cases (s : Store) (stream group id : String) :
    ((s.acknowledge stream group id).1 = s ∧
      ∀ n, (s.acknowledge stream group id).2 ≠ .answer n) ∨
      (s.Open .acknowledge ∧
        (s.streams.get? stream).bind (fun st => st.acknowledge? group id) = none ∧
        s.acknowledge stream group id = (s, .answer 0)) ∨
      (s.Open .acknowledge ∧ ∃ st,
        (s.streams.get? stream).bind (fun st => st.acknowledge? group id) = some st ∧
        s.acknowledge stream group id =
          ({ s with
              streams := s.streams.insert stream st
              acknowledged := s.acknowledged ++ [id] }, .answer 1)) := by
  rcases fault_cases s .acknowledge with hs | ⟨reason, hs, hf⟩ | ho
  · left; rw [acknowledge, gate_of_stalled hs]; exact ⟨rfl, by simp⟩
  · left; rw [acknowledge, gate_of_failing hs hf]; exact ⟨rfl, by simp⟩
  · right
    rw [acknowledge, gate_of_open ho]
    cases h : (s.streams.get? stream).bind (fun st => st.acknowledge? group id) with
    | none => exact .inl ⟨ho, rfl, rfl⟩
    | some st => exact .inr ⟨ho, st, rfl, rfl⟩

theorem acknowledge_keys (s : Store) (stream group id : String) :
    (s.acknowledge stream group id).1.keys = s.keys := by
  rcases acknowledge_cases s stream group id with ⟨h, -⟩ | ⟨-, -, h⟩ | ⟨-, st, -, h⟩ <;> rw [h]

theorem acknowledge_of_open (ho : s.Open .acknowledge) :
    (s.acknowledge stream group id).2 ≠ .stalled ∧
      ∀ f, (s.acknowledge stream group id).2 ≠ .failure f := by
  rw [acknowledge, gate_of_open ho]
  split <;> simp

theorem acknowledge_ne_broken (s : Store) (stream group id : String) (b : Breakdown) :
    (s.acknowledge stream group id).2 ≠ .broken b := by
  rcases fault_cases s .acknowledge with hs | ⟨reason, hs, hf⟩ | ho
  · rw [acknowledge, gate_of_stalled hs]; simp
  · rw [acknowledge, gate_of_failing hs hf]; simp
  · rw [acknowledge, gate_of_open ho]
    split <;> simp

/-! ### Any operation -/

theorem set_contents (s : Store) (now : Nat) (key value : String) (ttl : Duration) :
    ((s.set now key value ttl).1 = s ∧ (s.set now key value ttl).2 ≠ .answer ()) ∨
      s.set now key value ttl =
        ({ s with keys := s.keys.put now key value ttl }, .answer ()) := by
  rcases fault_cases s .set with hs | ⟨reason, hs, hf⟩ | ho
  · left; rw [set, gate_of_stalled hs]; exact ⟨rfl, by simp⟩
  · left; rw [set, gate_of_failing hs hf]; exact ⟨rfl, by simp⟩
  · right; rw [set, gate_of_open ho]

theorem set_limit (s : Store) (now : Nat) (key value : String) (ttl : Duration) :
    (s.set now key value ttl).1.keys.limit = s.keys.limit := by
  rcases s.set_contents now key value ttl with ⟨hs, -⟩ | hs <;> rw [hs] <;> rfl

theorem claim_limit (s : Store) (now : Nat) (key value : String) (ttl : Duration) :
    (s.claim now key value ttl).1.keys.limit = s.keys.limit := by
  rcases s.claim_cases now key value ttl with ⟨-, -, hs⟩ | ⟨hs, -⟩ <;> rw [hs] <;> rfl

/-- A delivery concerns the streams. -/
theorem deliver_eq (s : Store) (r : ReadRequest) : ∃ streams, (s.deliver r).1 = { s with streams } := by
  unfold deliver
  split
  · exact ⟨_, rfl⟩
  · split
    · exact ⟨_, rfl⟩
    · split <;> exact ⟨_, rfl⟩

/-- A read concerns the streams and the answers given in advance, and is noted. -/
theorem read_eq (s : Store) (r : ReadRequest) : ∃ streams scripted,
    (s.read r).1 = { s with streams, scripted, lastRead := some r } := by
  rcases fault_cases { s with lastRead := some r } .read with hs | ⟨reason, hs, hf⟩ | ho
  · exact ⟨_, _, by rw [read, gate_of_stalled hs]⟩
  · exact ⟨_, _, by rw [read, gate_of_failing hs hf]⟩
  · rw [read, gate_of_open ho]
    split
    · exact ⟨_, _, rfl⟩
    · obtain ⟨streams, h⟩ := deliver_eq { s with lastRead := some r } r
      exact ⟨_, _, h⟩

theorem read_keys (s : Store) (r : ReadRequest) :
    (s.read r).1.keys = s.keys ∧ (s.read r).1.acknowledged = s.acknowledged := by
  obtain ⟨streams, scripted, h⟩ := read_eq s r
  rw [h]
  exact ⟨rfl, rfl⟩

/-- An operation leaves every key alone that it does not write. -/
theorem perform_key_of_ne {op : Operation} (h : op.key? ≠ some key) :
    (s.perform now clock op).1.keys.records.get? key = s.keys.records.get? key ∧
      (s.perform now clock op).1.keys.writeCount key = s.keys.writeCount key := by
  cases op with
  | set k v ttl =>
    have hk : k ≠ key := fun e => h (congrArg some e)
    rcases set_contents s now k v ttl with ⟨hs, -⟩ | hs
    · simp [perform, hs]
    · simp [perform, hs, Keyspace.get?_put, Keyspace.writeCount_put, hk]
  | claim k v ttl =>
    have hk : k ≠ key := fun e => h (congrArg some e)
    rcases claim_cases s now k v ttl with ⟨-, -, hs⟩ | ⟨hs, -⟩
    · simp [perform, hs, Keyspace.get?_put, Keyspace.writeCount_put, hk]
    · simp [perform, hs]
  | get k => simp [perform, get_store]
  | read r => simp [perform, read_keys]
  | acknowledge stream group id => simp [perform, acknowledge_keys]
  | createGroup stream group => simp [perform, createGroup]
  | append stream fields => simp [perform, append]

/-- The end of the clock stays where it is. -/
theorem perform_limit (s : Store) (now clock : Nat) (op : Operation) :
    (s.perform now clock op).1.keys.limit = s.keys.limit := by
  cases op with
  | set key value ttl => exact s.set_limit now key value ttl
  | claim key value ttl => exact s.claim_limit now key value ttl
  | get key => rw [perform, get_store]
  | read r => rw [perform, (s.read_keys r).1]
  | acknowledge stream group id => rw [perform, acknowledge_keys]
  | createGroup stream group => rfl
  | append stream fields => rfl

/-- The number of writes of a key never goes down. -/
theorem writeCount_le_perform (s : Store) (now clock : Nat) (op : Operation) (key : String) :
    s.keys.writeCount key ≤ (s.perform now clock op).1.keys.writeCount key := by
  by_cases h : op.key? = some key
  · cases op with
    | set k v ttl =>
      rcases set_contents s now k v ttl with ⟨hs, -⟩ | hs
      · simp [perform, hs]
      · simp only [perform, hs, Keyspace.writeCount_put]; split <;> omega
    | claim k v ttl =>
      rcases claim_cases s now k v ttl with ⟨-, -, hs⟩ | ⟨hs, -⟩
      · simp only [perform, hs, Keyspace.writeCount_put]; split <;> omega
      · simp [perform, hs]
    | _ => simp [Operation.key?] at h
  · exact Nat.le_of_eq (perform_key_of_ne h).2.symm

/-- The id that an operation adds to the acknowledged ones. -/
def acknowledges (s : Store) : Operation → Option String
  | .acknowledge stream group id =>
    if (s.acknowledge stream group id).2 = .answer 1 then some id else none
  | _ => none

theorem perform_acknowledged (s : Store) (now clock : Nat) (op : Operation) :
    (s.perform now clock op).1.acknowledged = s.acknowledged ++ (s.acknowledges op).toList := by
  cases op with
  | set k v ttl =>
    rcases set_contents s now k v ttl with ⟨hs, -⟩ | hs <;> simp [perform, hs, acknowledges]
  | claim k v ttl =>
    rcases claim_cases s now k v ttl with ⟨-, -, hs⟩ | ⟨hs, -⟩ <;> simp [perform, hs, acknowledges]
  | get k => simp [perform, get_store, acknowledges]
  | read r => simp [perform, read_keys, acknowledges]
  | acknowledge stream group id =>
    rcases acknowledge_cases s stream group id with ⟨h, hn⟩ | ⟨-, -, h⟩ | ⟨-, st, -, h⟩
    · simp [perform, h, acknowledges, hn]
    · simp [perform, h, acknowledges]
    · simp [perform, h, acknowledges]
  | createGroup stream group => simp [perform, createGroup, acknowledges]
  | append stream fields => simp [perform, append, acknowledges]

/-! ### Faults -/

/-- No operation makes another one stall, or go on. -/
theorem perform_stalled (s : Store) (now clock : Nat) (op : Operation) :
    (s.perform now clock op).1.stalled = s.stalled := by
  cases op with
  | set k v ttl => rcases set_contents s now k v ttl with ⟨hs, -⟩ | hs <;> simp [perform, hs]
  | claim k v ttl => rcases claim_cases s now k v ttl with ⟨-, -, hs⟩ | ⟨hs, -⟩ <;> simp [perform, hs]
  | get k => simp [perform, get_store]
  | read r =>
    obtain ⟨streams, scripted, h⟩ := read_eq s r
    rw [perform, h]
  | acknowledge stream group id =>
    rcases acknowledge_cases s stream group id with ⟨h, -⟩ | ⟨-, -, h⟩ | ⟨-, st, -, h⟩ <;>
      simp [perform, h]
  | createGroup stream group => rfl
  | append stream fields => rfl

/-! ### Failures -/

theorem deliver_failure {r : ReadRequest} {f : Failure} (h : (s.deliver r).2 = .failure f) :
    ∃ reason, f = .store reason := by
  unfold deliver at h
  split at h
  · cases h; exact ⟨_, rfl⟩
  · split at h
    · cases h; exact ⟨_, rfl⟩
    · split at h <;> cases h

/-- An operation fails for a reason of the store's own. -/
theorem perform_failure {op : Operation} {f : Failure}
    (h : (s.perform now clock op).2 = .failure f) : ∃ reason, f = .store reason := by
  cases op with
  | set k v ttl => exact gate_failure (fun hgo => by cases hgo) h
  | claim k v ttl =>
    refine gate_failure (fun hgo => ?_) h
    split at hgo <;> cases hgo
  | get k =>
    refine gate_failure (fun hgo => ?_) h
    split at hgo <;> cases hgo
  | read r =>
    refine gate_failure (fun hgo => ?_) h
    dsimp only at hgo
    split at hgo
    · cases hgo
    · exact deliver_failure hgo
  | acknowledge stream group id =>
    refine gate_failure (fun hgo => ?_) h
    split at hgo <;> cases hgo
  | createGroup stream group => cases h
  | append stream fields => cases h

end Store

end StreamWorker
