import StreamWorker.Proofs.History.Heartbeat
import StreamWorker.Proofs.Session.Outcome

/-! How far the clock carries settings. The check of settings asks only that spans are not too short;
what breaks off under settings that pass it are two kinds of arithmetic. Twice the keepalive may be
longer than every span, and then neither a heartbeat nor the loop of heartbeats can begin. And a key may
be kept past the end of the clock, and then every look at it breaks off, whoever looks: by asking for
the record, by getting the key or by claiming it. Nothing else breaks, apart from a read whose count leads
past all numbers of 64 bits, which has nothing to do with settings; and settings within both limits serve
for every run. -/

namespace StreamWorker

/-! ### Keys without an end -/

/-- A look that breaks off finds that what was last written is kept past the end of the clock. -/
theorem Chronicle.last_of_look_error {l : List Occurrence} {s : Store} {t now : Nat} {key : String}
    {b : Breakdown} (h : Chronicle l s t) (hb : s.keys.look now key = .error b) :
    b = .beyondClock ∧ ∃ l₁ o l₂ r, l = l₁ ++ o :: l₂ ∧ o.wrote? key = some r ∧
      (∀ p ∈ l₂, p.wrote? key = none) ∧ s.keys.limit ≤ r.expiry := by
  obtain ⟨r, hr, hlimit⟩ := Keyspace.look_error hb
  rw [Keyspace.look_of_beyond hr hlimit] at hb
  cases hb
  obtain ⟨l₁, o, l₂, hl, ho, hnone⟩ := h.exists_last hr
  exact ⟨rfl, l₁, o, l₂, r, hl, ho, hnone, hlimit⟩

/-- The operation looks at the key, to get it or to claim it. -/
def Operation.LooksAt (op : Operation) (key : String) : Prop :=
  op = .get key ∨ ∃ value ttl, op = .claim key value ttl

namespace History

variable {h : History} {key : String} {b : Breakdown} {o : Occurrence} {r : KeyRecord}

/-- What was last written under the key is kept past the end of the clock. -/
def Endless (h : History) (key : String) : Prop :=
  ∃ o r, h.LastWrote key o r ∧ h.limit ≤ r.expiry

/-- The key was never written to be kept for another time. -/
def KeptFor (h : History) (key : String) (d : Duration) : Prop :=
  ∀ o ∈ h.log, ∀ r, o.wrote? key = some r → r.ttl = d

/-- A look breaks off exactly at a key that is kept past the end of the clock. -/
theorem look_error_iff (hC : Chronicle h.log h.world.store h.world.now) :
    h.world.store.keys.look h.world.now key = .error b ↔ b = .beyondClock ∧ h.Endless key := by
  constructor
  · intro hb
    obtain ⟨hbeyond, l₁, o, l₂, r, hl, ho, hnone, hlimit⟩ := hC.last_of_look_error hb
    exact ⟨hbeyond, o, r, ⟨l₁, l₂, hl, ho, hnone⟩, hlimit⟩
  · rintro ⟨rfl, o, r, hlast, hlimit⟩
    rw [hlast.look hC, if_neg (Nat.not_lt.mpr hlimit)]

theorem KeptFor.expiry {d : Duration} (hd : h.KeptFor key d) (ho : o ∈ h.log)
    (hr : o.wrote? key = some r) : r.expiry = o.now + d.nanos := by
  rw [KeyRecord.expiry, hd o ho r hr, (Occurrence.wrote?_eq_some.mp hr).1]

/-- A key that is always kept for the same time is kept past the end of the clock from the first write on
of which this is true. -/
theorem KeptFor.endless_iff {d : Duration} (hC : Chronicle h.log h.world.store h.world.now)
    (hd : h.KeptFor key d) :
    h.Endless key ↔ ∃ o ∈ h.log, o.Writes key ∧ h.limit ≤ o.now + d.nanos := by
  constructor
  · rintro ⟨o, r, hlast, hlimit⟩
    obtain ⟨ho, hr⟩ := hlast.mem
    rw [hd.expiry ho hr] at hlimit
    exact ⟨o, ho, Option.isSome_iff_exists.mpr ⟨r, hr⟩, hlimit⟩
  · rintro ⟨o, ho, hw, hlimit⟩
    obtain ⟨p, r, hlast, hle⟩ := exists_lastWrote hC ho hw
    obtain ⟨hp, hr⟩ := hlast.mem
    refine ⟨p, r, hlast, ?_⟩
    rw [hd.expiry hp hr]
    omega

/-- As long as the time for which a key is always kept is left on the clock, no look at the key has
broken off. -/
theorem KeptFor.ne_broken {d : Duration} (hC : Chronicle h.log h.world.store h.world.now)
    (hd : h.KeptFor key d) (hleft : h.world.now + d.nanos < h.limit) (ho : o ∈ h.log)
    (hop : o.op.LooksAt key) : (o.store.perform o.now o.clock o.op).2 ≠ .broken b := by
  intro hb
  have hlook : o.store.keys.look o.now key = .error b := by
    rcases Store.perform_broken_iff.mp hb with ⟨k, hk, -, hl⟩ | ⟨k, v, t, hk, -, hl⟩ | ⟨r, hk, -⟩
    · rcases hop with hop | ⟨v', t', hop⟩ <;> cases hk.symm.trans hop
      exact hl
    · rcases hop with hop | ⟨v', t', hop⟩ <;> cases hk.symm.trans hop
      exact hl
    · rcases hop with hop | ⟨v', t', hop⟩ <;> cases hk.symm.trans hop
  obtain ⟨l₁, l₂, hl⟩ := List.append_of_mem ho
  obtain ⟨hC', hle⟩ := hC.before hl
  obtain ⟨-, l₃, p, l₄, r, rfl, hr, -, hlimit⟩ := hC'.last_of_look_error hlook
  have hp : p.now ≤ o.now := hC'.now_le (by simp)
  rw [hd.expiry (by simp [hl]) hr, hC.limit_eq ho] at hlimit
  have hleft' : h.world.now + d.nanos < h.world.store.keys.limit := hleft
  omega

/-! ### Requests -/

/-- The requests that break off, and how. -/
inductive Breaks (h : History) : Request → Breakdown → Prop
  /-- A heartbeat that would have to stand for longer than there is a span. -/
  | heartbeat {name : String} {m : Member} (token : String)
      (hm : h.world.members.get? name = some m)
      (hlong : Duration.limit ≤ 2 * m.worker.settings.keepalive.nanos) :
      Breaks h (.call name token .heartbeat) .spanTooLong
  | publish {name token message : String} {m : Member} (result : String)
      (hm : h.world.members.get? name = some m) (hx : h.world.isCancelled token = false)
      (ho : h.world.store.Open .claim) (he : h.Endless message) :
      Breaks h (.call name token (.publish message result)) .beyondClock
  | claim {key : String} (value : String) (ttl : Duration) (ho : h.world.store.Open .claim)
      (he : h.Endless key) : Breaks h (.operation (.claim key value ttl)) .beyondClock
  | get {key : String} (ho : h.world.store.Open .get) (he : h.Endless key) :
      Breaks h (.operation (.get key)) .beyondClock
  | entry {key : String} (he : h.Endless key) : Breaks h (.entry key) .beyondClock
  /-- A read whose count leads too far, by a worker or by anybody. -/
  | consume {name token : String} {m : Member} (hm : h.world.members.get? name = some m)
      (hx : h.world.isCancelled token = false) (hr : h.world.store.Overreaches m.worker.readRequest) :
      Breaks h (.call name token .consume) .beyondCount
  | read {r : ReadRequest} (hr : h.world.store.Overreaches r) :
      Breaks h (.operation (.read r)) .beyondCount

end History

namespace World

variable {w : World} {deadline : Nat} {name token key : String} {b : Breakdown}

theorem beginRequest_call_broken_iff {call : Call} :
    (w.beginRequest deadline (.call name token call)).2 = .ended (.broken b) ↔
      ∃ m, w.members.get? name = some m ∧ (w.begin m.worker token call).2 = .inr (.broken b) := by
  rw [beginRequest]
  cases w.members.get? name with
  | none => exact ⟨fun h => (by cases h), fun ⟨_, h, _⟩ => (by cases h)⟩
  | some m =>
    simp only [Option.some.injEq, exists_eq_left']
    cases w.begin m.worker token call with
    | mk v out =>
      cases out with
      | inl f =>
        refine ⟨fun h => ?_, fun h => (by cases h)⟩
        dsimp only at h
        split at h <;> cases h
      | inr e =>
        cases e with
        | broken b' => exact ⟨fun h => (by cases h; rfl), fun h => (by cases h; rfl)⟩
        | _ => exact ⟨fun h => (by cases h), fun h => (by cases h)⟩

theorem beginRequest_operation_broken_iff {op : Operation} :
    (w.beginRequest deadline (.operation op)).2 = .ended (.broken b) ↔
      (w.store.perform w.now w.clock op).2 = .broken b := by
  rw [beginRequest]
  cases w.store.perform w.now w.clock op with
  | mk s response =>
    cases response with
    | stalled =>
      refine ⟨fun h => ?_, fun h => (by cases h)⟩
      dsimp only at h
      split at h <;> cases h
    | broken b' => simp
    | _ => exact ⟨fun h => (by cases h), fun h => (by cases h)⟩

theorem beginRequest_entry :
    (w.beginRequest deadline (.entry key)).2 = .ended (match w.store.keys.look w.now key with
      | .ok r => .finished (.ok (.record? (r.map fun r => (r, (w.now - r.writtenAt) / Instant.milli))))
      | .error b => .broken b) := rfl

theorem beginRequest_entry_broken_iff :
    (w.beginRequest deadline (.entry key)).2 = .ended (.broken b) ↔
      w.store.keys.look w.now key = .error b := by
  rw [beginRequest_entry]
  cases w.store.keys.look w.now key <;> simp

/-- A question about a member is answered, if only by saying that there is no such member. -/
theorem question_ne_broken {slot : Slot} {f : Member → Reply}
    (h : slot = .ended (match w.members.get? name with
      | some m => .finished (.ok (f m))
      | none => .finished (.error (.other s!"there is no worker {name}")))) :
    slot ≠ .ended (.broken b) := by
  rw [h]
  cases w.members.get? name <;> simp

/-- A loop of heartbeats that is not running cannot begin if a heartbeat would have to stand for longer
than there is a span. -/
theorem start_broken_iff : (w.start name token).2 = .broken b ↔
    ∃ m, w.members.get? name = some m ∧ w.isRunning m = false ∧
      Duration.limit ≤ 2 * m.worker.settings.keepalive.nanos ∧ b = .spanTooLong := by
  rw [start]
  cases w.members.get? name with
  | none =>
    constructor
    · rintro ⟨⟩
    · rintro ⟨_, ⟨⟩, _⟩
  | some m =>
    simp only [Option.some.injEq, exists_eq_left', ← Settings.expiry?_eq_none_iff]
    cases w.isRunning m with
    | true => exact ⟨fun h => (by cases h), fun h => (by cases h.1)⟩
    | false =>
      cases m.worker.settings.expiry? with
      | some expiry => exact ⟨fun h => (by cases h), fun h => (by cases h.2.1)⟩
      | none => exact ⟨fun h => (by cases h; exact ⟨rfl, rfl, rfl⟩), fun h => by rw [h.2.2]; rfl⟩

end World

namespace History

variable {h : History} {key : String} {b : Breakdown} {o : Occurrence} {r : KeyRecord}

/-- These requests break off, and no others. -/
theorem breaks_iff (hC : Chronicle h.log h.world.store h.world.now) {deadline : Nat} {r : Request} :
    (h.world.beginRequest deadline r).2 = .ended (.broken b) ↔ h.Breaks r b := by
  cases r with
  | call name token call =>
    rw [World.beginRequest_call_broken_iff]
    simp only [World.begin_broken_iff, World.Unbegun, look_error_iff hC, Settings.expiry?_eq_none_iff]
    constructor
    · rintro ⟨m, hm, ⟨⟨rfl, hlong⟩, rfl⟩ | ⟨message, result, rfl, hx, ho, rfl, he⟩ | ⟨rfl, hx, rfl, hr⟩⟩
      · exact .heartbeat token hm hlong
      · exact .publish result hm hx ho he
      · exact .consume hm hx hr
    · intro hb
      cases hb with
      | heartbeat _ hm hlong => exact ⟨_, hm, .inl ⟨⟨rfl, hlong⟩, rfl⟩⟩
      | publish _ hm hx ho he => exact ⟨_, hm, .inr (.inl ⟨_, _, rfl, hx, ho, rfl, he⟩)⟩
      | consume hm hx hr => exact ⟨_, hm, .inr (.inr ⟨rfl, hx, rfl, hr⟩)⟩
  | operation op =>
    rw [World.beginRequest_operation_broken_iff, Store.perform_broken_iff]
    simp only [look_error_iff hC]
    constructor
    · rintro (⟨key, rfl, ho, rfl, he⟩ | ⟨key, value, ttl, rfl, ho, rfl, he⟩ | ⟨r, rfl, rfl, hr⟩)
      · exact .get ho he
      · exact .claim value ttl ho he
      · exact .read hr
    · intro hb
      cases hb with
      | claim value ttl ho he => exact .inr (.inl ⟨_, _, _, rfl, ho, rfl, he⟩)
      | get ho he => exact .inl ⟨_, rfl, ho, rfl, he⟩
      | read hr => exact .inr (.inr ⟨_, rfl, rfl, hr⟩)
  | entry key =>
    rw [World.beginRequest_entry_broken_iff, look_error_iff hC]
    constructor
    · rintro ⟨rfl, he⟩
      exact .entry he
    · intro hb
      cases hb with
      | entry he => exact ⟨rfl, he⟩
  | isRunning name =>
    exact ⟨fun hb => (World.question_ne_broken (f := fun m => .flag (h.world.isRunning m)) rfl hb).elim,
      fun hb => (by cases hb)⟩
  | heartbeatKey name =>
    exact ⟨fun hb => (World.question_ne_broken (f := fun m => .text m.worker.heartbeatKey) rfl hb).elim,
      fun hb => (by cases hb)⟩
  | settings name =>
    exact ⟨fun hb => (World.question_ne_broken (f := fun m => .settings m.worker.settings) rfl hb).elim,
      fun hb => (by cases hb)⟩
  | _ => exact ⟨fun hb => (by cases hb), fun hb => (by cases hb)⟩

/-- How far settings that pass the check carry, whatever has happened. There is always time between two
heartbeats. A heartbeat stands for twice the keepalive, if there is such a span; if there is not, the
loop of heartbeats does not begin, and this is all that can break it. Of all that can be asked, exactly
a heartbeat without such a span breaks off, a look at a key that is kept past the end of the clock, and a
read whose count leads past all numbers.
A result that is always kept for the time of the settings is not, as long as that time is left; until
then no look at it has broken off, and no publication of it. -/
theorem checked_settings_carry {s : Settings} (hs : s.check = .ok ()) (clock : Clock) (es : List Event) :
    let h := (start clock).run es
    0 < s.interval.nanos ∧
    (s.expiry? = none ↔ Duration.limit ≤ 2 * s.keepalive.nanos) ∧
    (∀ expiry, s.expiry? = some expiry → expiry.nanos = 2 * s.keepalive.nanos) ∧
    (∀ name m token b, h.world.members.get? name = some m → m.worker.settings = s →
      ((h.world.start name token).2 = .broken b ↔
        h.world.isRunning m = false ∧ Duration.limit ≤ 2 * s.keepalive.nanos ∧ b = .spanTooLong)) ∧
    (∀ r deadline b, (h.world.beginRequest deadline r).2 = .ended (.broken b) ↔ h.Breaks r b) ∧
    ∀ key, h.KeptFor key s.retention →
      (h.Endless key ↔ ∃ o ∈ h.log, o.Writes key ∧ clock.limit ≤ o.now + s.retention.nanos) ∧
      (h.world.now + s.retention.nanos < clock.limit → ¬ h.Endless key ∧
        (∀ o ∈ h.log, o.op.LooksAt key → ∀ b, (o.store.perform o.now o.clock o.op).2 ≠ .broken b) ∧
        ∀ n c text b, h.Publishes n c key text → c.course ≠ .ended (.broken b)) := by
  intro h
  have hC := chronicle clock es
  rw [← limit_run clock es]
  refine ⟨Settings.interval_pos hs, Settings.expiry?_eq_none_iff, fun expiry => Settings.expiry_nanos,
    fun name m token b hm hsettings => ?_, fun r deadline b => breaks_iff hC, fun key hkept =>
      ⟨hkept.endless_iff hC, fun hleft => ⟨fun hendless => ?_, fun o ho hop b =>
        hkept.ne_broken hC hleft ho hop, fun n c text b hc hb => ?_⟩⟩⟩
  · rw [World.start_broken_iff, hm]
    simp only [Option.some.injEq, exists_eq_left', hsettings]
  · obtain ⟨o, ho, -, hlimit⟩ := (hkept.endless_iff hC).mp hendless
    have hle : o.now ≤ h.world.now := hC.now_le ho
    omega
  · have hP := (sound clock es).publishing hc
    rw [hb] at hP
    obtain ⟨o, htrail, hop, hbroken⟩ := hP.of_broken
    have ho : o ∈ h.log := (mem_trail.mp (htrail ▸ List.mem_singleton_self o)).1
    refine hkept.ne_broken hC hleft ho (.inr ⟨_, _, hop⟩) (b := b) ?_
    rw [hop]
    exact hbroken

/-- A worker publishes a result. -/
def published (s : Settings) : List Event :=
  [.hire "w" "a" s .text, .begin "w" "main" (.publish "m" "done"), .proceed 0]

theorem checked_settings_carry_hasty :
    let h := (start ⟨5, 0⟩).run (published hasty)
    (∃ o ∈ h.log, o.Writes "m") ∧
      (∀ token b, (h.world.start "w" token).2 ≠ .broken b) ∧
      ∀ deadline b, (h.world.beginRequest deadline (.entry "m")).2 ≠ .ended (.broken b) := by
  intro h
  obtain ⟨-, -, -, hstart, hbreaks, hkeys⟩ :=
    checked_settings_carry (s := hasty) rfl ⟨5, 0⟩ (published hasty)
  have hmember : h.world.members.get? "w" = some ⟨⟨"a", hasty, .text⟩, none⟩ := by decide +kernel
  have hkept : ∀ o ∈ h.log, (o.wrote? "m").all (·.ttl = hasty.retention) = true := by decide +kernel
  refine ⟨by decide +kernel, fun token b hb => ?_, fun deadline b hb => ?_⟩
  · obtain ⟨-, hlong, -⟩ := (hstart _ _ token b hmember rfl).mp hb
    exact absurd hlong (by decide)
  · cases (hbreaks _ deadline b).mp hb with
    | entry he =>
      have hkeptFor : h.KeptFor "m" hasty.retention := fun o ho r hr => by
        simpa [hr] using hkept o ho
      exact ((hkeys "m" hkeptFor).2 (by decide +kernel)).1 he

/-- Settings with the longest spans of whole seconds. -/
def eternal : Settings where
  retention := .ofSeconds 18446744073709551615
  keepalive := .ofSeconds 18446744073709551615
  address := ⟨"redis://localhost"⟩
  stream := Settings.defaultStream
  group := Settings.defaultGroup

/-- The check lets such settings pass, yet a worker can neither start with them nor show once that it is
alive, and whoever looks at a result that it has published breaks off. -/
theorem checked_settings_break :
    let h := (start ⟨5, 0⟩).run (published eternal)
    eternal.check = .ok () ∧ eternal.expiry? = none ∧
      (h.world.start "w" "main").2 = .broken .spanTooLong ∧
      (h.world.beginRequest 0 (.call "w" "main" .heartbeat)).2 = .ended (.broken .spanTooLong) ∧
      (∃ o ∈ h.log, o.wrote? "m" = some ⟨"done", eternal.retention, h.world.now⟩) ∧
      (h.world.beginRequest 0 (.operation (.get "m"))).2 = .ended (.broken .beyondClock) ∧
      (h.world.beginRequest 0 (.entry "m")).2 = .ended (.broken .beyondClock) ∧
      (h.world.beginRequest 0 (.call "w" "main" (.publish "m" "again"))).2 =
        .ended (.broken .beyondClock) := by
  exact ⟨rfl, rfl, rfl, rfl, by decide +kernel, rfl, rfl, rfl⟩

end History

end StreamWorker
