import StreamWorker.Store.Keyspace

/-! Records that stand. A record stands at an instant if its time is not up by then, or if its expiry
is past the end of the clock, in which case it stands for ever and every look at it breaks off. A claim
leaves a record that stands as it is and never succeeds; it succeeds exactly if a look finds nothing. -/

namespace StreamWorker

/-- The first instant at which the time of a record is up, wherever the clock ends. -/
def KeyRecord.expiry (r : KeyRecord) : Nat := r.writtenAt + r.ttl.nanos

/-- The record is there at an instant of a clock that ends at `limit`. -/
def KeyRecord.Stands (r : KeyRecord) (limit now : Nat) : Prop :=
  now < r.expiry ∨ limit ≤ r.expiry

namespace KeyRecord

variable {r : KeyRecord} {limit : Nat}

theorem live_of_lt (h : r.expiry < limit) (now : Nat) :
    r.live limit now = .ok (decide (now < r.expiry)) := by
  have h' : r.writtenAt + r.ttl.nanos < limit := h
  rw [live, Instant.after?, if_pos h']
  rfl

theorem live_of_le (h : limit ≤ r.expiry) (now : Nat) : r.live limit now = .error .beyondClock := by
  have h' : ¬ r.writtenAt + r.ttl.nanos < limit := Nat.not_lt.mpr h
  rw [live, Instant.after?, if_neg h']

end KeyRecord

namespace Keyspace

variable {ks : Keyspace} {now : Nat} {key : String} {r : KeyRecord}

/-! ### Looks -/

theorem look_of_none (h : ks.records.get? key = none) : ks.look now key = .ok none := by
  rw [look, h]

theorem look_of_live (h : ks.records.get? key = some r) (hc : r.expiry < ks.limit)
    (hn : now < r.expiry) : ks.look now key = .ok (some r) := by
  simp [look, h, KeyRecord.live_of_lt hc, hn, Except.map]

theorem look_of_over (h : ks.records.get? key = some r) (hc : r.expiry < ks.limit)
    (hn : r.expiry ≤ now) : ks.look now key = .ok none := by
  simp [look, h, KeyRecord.live_of_lt hc, Nat.not_lt.mpr hn, Except.map]

theorem look_of_beyond (h : ks.records.get? key = some r) (hc : ks.limit ≤ r.expiry) :
    ks.look now key = .error .beyondClock := by
  simp [look, h, KeyRecord.live_of_le hc, Except.map]

/-- A look finds nothing exactly if no record stands. -/
theorem look_eq_none_iff :
    ks.look now key = .ok none ↔ ∀ r, ks.records.get? key = some r → ¬ r.Stands ks.limit now := by
  cases h : ks.records.get? key with
  | none => simp [look_of_none h]
  | some r =>
    simp only [Option.some.injEq, forall_eq', KeyRecord.Stands, not_or, Nat.not_lt, Nat.not_le]
    rcases Nat.lt_or_ge r.expiry ks.limit with hc | hc
    · rcases Nat.lt_or_ge now r.expiry with hn | hn
      · simp [look_of_live h hc hn, Nat.not_le.mpr hn]
      · simp [look_of_over h hc hn, hn, hc]
    · simp [look_of_beyond h hc, hc]

/-- What a look says of a record that stands. -/
theorem look_of_stands (h : ks.records.get? key = some r) (hs : r.Stands ks.limit now) :
    ks.look now key = if r.expiry < ks.limit then .ok (some r) else .error .beyondClock := by
  split
  · next hc => exact look_of_live h hc (hs.resolve_right (Nat.not_le.mpr hc))
  · next hc => exact look_of_beyond h (Nat.not_lt.mp hc)

/-- A look breaks off only at a record that stands for ever. -/
theorem look_error {b : Breakdown} (h : ks.look now key = .error b) :
    ∃ r, ks.records.get? key = some r ∧ ks.limit ≤ r.expiry := by
  cases hr : ks.records.get? key with
  | none => rw [look_of_none hr] at h; cases h
  | some r =>
    refine ⟨r, rfl, Nat.le_of_not_lt fun hc => ?_⟩
    rcases Nat.lt_or_ge now r.expiry with hn | hn
    · rw [look_of_live hr hc hn] at h; cases h
    · rw [look_of_over hr hc hn] at h; cases h

/-- What a look finds is a record whose time is not up. -/
theorem look_some (h : ks.look now key = .ok (some r)) :
    ks.records.get? key = some r ∧ now < r.expiry := by
  cases hr : ks.records.get? key with
  | none => rw [look_of_none hr] at h; cases h
  | some r' =>
    rcases Nat.lt_or_ge r'.expiry ks.limit with hc | hc
    · rcases Nat.lt_or_ge now r'.expiry with hn | hn
      · rw [look_of_live hr hc hn] at h
        cases h
        exact ⟨rfl, hn⟩
      · rw [look_of_over hr hc hn] at h; cases h
    · rw [look_of_beyond hr hc] at h; cases h

/-- Two keyspaces on one clock with the same record under a key answer alike. -/
theorem look_congr {ks' : Keyspace} (hlimit : ks.limit = ks'.limit)
    (h : ks.records.get? key = ks'.records.get? key) : ks.look now key = ks'.look now key := by
  rw [look, look, h, hlimit]

/-! ### Writes -/

variable {value : String} {ttl : Duration}

theorem get?_put (key' : String) :
    (ks.put now key value ttl).records.get? key' =
      if key = key' then some ⟨value, ttl, now⟩ else ks.records.get? key' :=
  Table.get?_insert ..

theorem writeCount_put (key' : String) :
    (ks.put now key value ttl).writeCount key' =
      if key = key' then ks.writeCount key' + 1 else ks.writeCount key' := by
  by_cases h : key = key'
  · subst h; simp [put, writeCount, Table.getD]
  · simp [put, writeCount, Table.getD, Table.get?_insert, h]

/-! ### Claims -/

theorem claim_of_look_none (h : ks.look now key = .ok none) :
    ks.claim now key value ttl = .ok (ks.put now key value ttl, true) := by
  simp [claim, h, Except.map]

theorem claim_of_look_some (h : ks.look now key = .ok (some r)) :
    ks.claim now key value ttl = .ok (ks, false) := by
  simp [claim, h, Except.map]

theorem claim_of_look_error {b : Breakdown} (h : ks.look now key = .error b) :
    ks.claim now key value ttl = .error b := by
  simp [claim, h, Except.map]

/-- A claim on a record that stands changes nothing and does not succeed. -/
theorem claim_of_stands (h : ks.records.get? key = some r) (hs : r.Stands ks.limit now) :
    ks.claim now key value ttl =
      if r.expiry < ks.limit then .ok (ks, false) else .error .beyondClock := by
  have hl := look_of_stands h hs
  split at hl
  · next hc => rw [if_pos hc, claim_of_look_some hl]
  · next hc => rw [if_neg hc, claim_of_look_error hl]

end Keyspace

end StreamWorker
