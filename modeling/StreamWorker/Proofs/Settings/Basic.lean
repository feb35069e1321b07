import StreamWorker.Settings.Basic
import StreamWorker.Time.Instant

/-! Settings that can be used. The check looks for an address, for names, and for spans that are not too
short; it sets no upper limit to any of them. In particular twice the keepalive may be longer than every
span. -/

namespace StreamWorker.Settings

variable {s : Settings} {expiry : Duration}

theorem check_eq_ok_iff : s.check = .ok () ↔ s.address.expose ≠ "" ∧ 0 < s.interval.nanos ∧
    0 < s.retention.nanos ∧ s.stream ≠ "" ∧ s.group ≠ "" := by
  have hpos (n : Nat) : 0 < n ↔ ¬ n = 0 := Nat.pos_iff_ne_zero
  rw [check, hpos, hpos]
  by_cases ha : s.address.expose = ""
  · simp [ha]
  by_cases hi : s.interval.nanos = 0
  · simp [ha, hi]
  by_cases hr : s.retention.nanos = 0
  · simp [ha, hi, hr]
  by_cases hs : s.stream = ""
  · simp [ha, hi, hr, hs]
  by_cases hg : s.group = ""
  · simp [ha, hi, hr, hg]
  · simp [ha, hi, hr, hs, hg]

theorem interval_pos (h : s.check = .ok ()) : 0 < s.interval.nanos := (check_eq_ok_iff.mp h).2.1

theorem interval_le (s : Settings) : s.interval.nanos ≤ s.keepalive.nanos := Nat.div_le_self ..

theorem retention_pos (h : s.check = .ok ()) : 0 < s.retention.nanos := (check_eq_ok_iff.mp h).2.2.1

theorem expiry_nanos (h : s.expiry? = some expiry) : expiry.nanos = 2 * s.keepalive.nanos := by
  rw [expiry?, Duration.double?, Duration.ofNanos?] at h
  split at h
  · cases h
    exact Nat.mul_comm ..
  · cases h

/-- A heartbeat has no expiry exactly if twice the keepalive is longer than every span. -/
theorem expiry?_eq_none_iff : s.expiry? = none ↔ Duration.limit ≤ 2 * s.keepalive.nanos := by
  rw [expiry?, Duration.double?, Duration.ofNanos?, Nat.mul_comm]
  split
  · next h => simpa using h
  · next h => simpa using h

/-- If a tenth of the keepalive is a whole number of milliseconds, it is the interval. -/
theorem tenth_of_dvd (h : 10 * Instant.milli ∣ s.keepalive.nanos) :
    s.keepalive.nanos = 10 * s.interval.nanos ∧ Instant.milli ∣ s.interval.nanos := by
  obtain ⟨n, hn⟩ := h
  have hi : s.interval.nanos = Instant.milli * n := by
    rw [interval, Duration.tenth]
    dsimp only
    rw [hn, Nat.mul_assoc, Nat.mul_div_cancel_left _ (by decide)]
  exact ⟨by rw [hn, hi, Nat.mul_assoc], by rw [hi]; exact Nat.dvd_mul_right ..⟩

end StreamWorker.Settings
