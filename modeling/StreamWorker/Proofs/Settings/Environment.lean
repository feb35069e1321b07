import StreamWorker.Failure
import StreamWorker.Proofs.Settings.Basic
import StreamWorker.Proofs.Text.Numeral
import StreamWorker.Proofs.Text.Utf8
import StreamWorker.Settings.Environment
import StreamWorker.Worker.Basic

/-! Settings from variables. Five variables matter; `Runnable` says which of their values a worker can
run with, and `Given` which settings they give. Where all of them are texts, the settings are read
exactly if the variables are runnable. A count fits 64 bits, and a number of milliseconds that fits is
far below half of the longest span, so that no keepalive read from a variable is too long to be
doubled. -/

namespace StreamWorker

/-! ### Variables -/

namespace Environment

variable {env : Environment} {name value : String}

/-- The variable is set to the text. -/
def Holds (env : Environment) (name value : String) : Prop :=
  env.get? name = some (Utf8.encode value)

instance : Decidable (env.Holds name value) := inferInstanceAs (Decidable (_ = _))

/-- The variable is set to a text with the property, or it is unset and the alternative holds. -/
def Says (env : Environment) (name : String) (p : String → Prop) (q : Prop) : Prop :=
  (∃ value, env.Holds name value ∧ p value) ∨ (env.get? name = none ∧ q)

theorem text?_eq_some_iff : env.text? name = some value ↔ env.Holds name value := by
  rw [text?, Holds]
  cases env.get? name with
  | none => simp
  | some bytes =>
    rw [Option.bind_some, Option.some_inj, ← Utf8.decode_eq_ok_iff.trans eq_comm, Utf8.decode?]
    cases Utf8.decode bytes <;> simp [Except.toOption]

theorem text?_of_unset (h : env.get? name = none) : env.text? name = none := by
  rw [text?, h, Option.bind_none]

/-- A variable with a default says the text that it holds, or the default. -/
theorem says_eq_iff {p : String → Prop} {q : Prop} {d : String} (h : env.Says name p q) :
    env.Says name (· = value) (value = d) ↔ value = (env.text? name).getD d := by
  constructor
  · rintro (⟨v, hv, rfl⟩ | ⟨hnone, rfl⟩)
    · rw [text?_eq_some_iff.mpr hv, Option.getD_some]
    · rw [text?_of_unset hnone, Option.getD_none]
  · rintro rfl
    rcases h with ⟨v, hv, -⟩ | ⟨hnone, -⟩
    · exact .inl ⟨v, hv, by rw [text?_eq_some_iff.mpr hv, Option.getD_some]⟩
    · exact .inr ⟨hnone, by rw [text?_of_unset hnone, Option.getD_none]⟩

/-- A name may be given exactly if there is a name that the variable says. -/
theorem says_ne_iff {d : String} (hd : d ≠ "") : env.Says name (· ≠ "") True ↔
    ∃ v, env.Says name (· = v) (v = d) ∧ v ≠ "" := by
  constructor
  · rintro (⟨v, hv, hne⟩ | ⟨hnone, -⟩)
    · exact ⟨v, .inl ⟨v, hv, rfl⟩, hne⟩
    · exact ⟨d, .inr ⟨hnone, rfl⟩, hd⟩
  · rintro ⟨v, ⟨_, hv, rfl⟩ | ⟨hnone, -⟩, hne⟩
    · exact .inl ⟨_, hv, hne⟩
    · exact .inr ⟨hnone, trivial⟩

end Environment

namespace Settings

open Environment

variable {env : Environment} {s : Settings} {name raw : String} {unit : UInt64 → Duration}

/-! ### Spans -/

theorem span?_of_unset (h : env.get? name = none) : span? env name unit = .ok none := by
  rw [span?, text?_of_unset h]

theorem span?_of_denotes {n : UInt64} (h : env.Holds name raw) (hn : Numeral.Denotes raw n.toNat) :
    span? env name unit = .ok (some (unit n)) := by
  rw [span?, text?_eq_some_iff.mpr h]
  dsimp only
  rw [Numeral.read_trim_eq_ok_iff.mpr hn]

/-- A text that is read as a span denotes the number of its units. -/
theorem denotes_of_span? {o : Option Duration} (h : env.Holds name raw)
    (ho : span? env name unit = .ok o) :
    ∃ n : UInt64, Numeral.Denotes raw n.toNat ∧ o = some (unit n) := by
  rw [span?, text?_eq_some_iff.mpr h] at ho
  dsimp only at ho
  split at ho
  · next n hn =>
    cases ho
    exact ⟨n, Numeral.read_trim_eq_ok_iff.mp hn, rfl⟩
  · cases ho

/-- The span that a variable says: so many units, or the default. -/
def SaysSpan (env : Environment) (name : String) (unit : UInt64 → Duration) (d standard : Duration) :
    Prop :=
  env.Says name (fun raw => ∃ n : UInt64, Numeral.Denotes raw n.toNat ∧ d = unit n) (d = standard)

/-- Reading a variable that is text, if it succeeds, gives the span that the variable says. -/
theorem exists_span?_iff {p : String → Prop} {q : Prop} {d standard : Duration}
    (h : env.Says name p q) :
    (∃ o, span? env name unit = .ok o ∧ d = o.getD standard) ↔ SaysSpan env name unit d standard := by
  constructor
  · rintro ⟨o, ho, rfl⟩
    rcases h with ⟨raw, hraw, -⟩ | ⟨hnone, -⟩
    · obtain ⟨n, hn, rfl⟩ := denotes_of_span? hraw ho
      exact .inl ⟨raw, hraw, n, hn, rfl⟩
    · cases (span?_of_unset hnone).symm.trans ho
      exact .inr ⟨hnone, rfl⟩
  · rintro (⟨raw, hraw, n, hn, rfl⟩ | ⟨hnone, rfl⟩)
    · exact ⟨_, span?_of_denotes hraw hn, rfl⟩
    · exact ⟨_, span?_of_unset hnone, rfl⟩

/-! ### Settings -/

/-- Each variable is unset, or set to a text. -/
structure Readable (env : Environment) : Prop where
  retention : env.Says "RESPONSE_ENTRY_TIMEOUT_SECS" (fun _ => True) True
  keepalive : env.Says "KEEPALIVE_TIMEOUT_MS" (fun _ => True) True
  address : env.Says "REDIS_URL" (fun _ => True) True
  stream : env.Says "REDIS_STREAM" (fun _ => True) True
  group : env.Says "REDIS_GROUP" (fun _ => True) True

/-- The text of a count that is not zero and fits 64 bits. -/
def Counts (raw : String) : Prop := ∃ n, 1 ≤ n ∧ n < UInt64.size ∧ Numeral.Denotes raw n

/-- There is an address, spans are not zero, and nothing is without a name. -/
structure Runnable (env : Environment) : Prop where
  retention : env.Says "RESPONSE_ENTRY_TIMEOUT_SECS" Counts True
  keepalive : env.Says "KEEPALIVE_TIMEOUT_MS" Counts True
  address : ∃ url, env.Holds "REDIS_URL" url ∧ url ≠ ""
  stream : env.Says "REDIS_STREAM" (· ≠ "") True
  group : env.Says "REDIS_GROUP" (· ≠ "") True

/-- Each field has the value that its variable gives, or its default. Only the address has none. -/
structure Given (env : Environment) (s : Settings) : Prop where
  retention : SaysSpan env "RESPONSE_ENTRY_TIMEOUT_SECS" .ofSeconds s.retention standard.retention
  keepalive : SaysSpan env "KEEPALIVE_TIMEOUT_MS" .ofMillis s.keepalive standard.keepalive
  address : env.Holds "REDIS_URL" s.address.expose
  stream : env.Says "REDIS_STREAM" (· = s.stream) (s.stream = standard.stream)
  group : env.Says "REDIS_GROUP" (· = s.group) (s.group = standard.group)

/-- How settings are read from variables, step by step. -/
theorem ofEnvironment_eq_ok_iff : ofEnvironment env = .ok s ↔
    (∃ o, span? env "RESPONSE_ENTRY_TIMEOUT_SECS" .ofSeconds = .ok o ∧
      s.retention = o.getD standard.retention) ∧
    (∃ o, span? env "KEEPALIVE_TIMEOUT_MS" .ofMillis = .ok o ∧
      s.keepalive = o.getD standard.keepalive) ∧
    env.text? "REDIS_URL" = some s.address.expose ∧
    s.stream = (env.text? "REDIS_STREAM").getD defaultStream ∧
    s.group = (env.text? "REDIS_GROUP").getD defaultGroup ∧ s.check = .ok () := by
  constructor
  · intro h
    unfold ofEnvironment at h
    simp only [bind, Except.bind] at h
    split at h
    · cases h
    next r hr =>
    split at h
    · cases h
    next k hk =>
    split at h
    · next url hurl =>
      split at h
      · cases h
      · next hcheck =>
        cases h
        exact ⟨⟨r, hr, rfl⟩, ⟨k, hk, rfl⟩, hurl, rfl, rfl, hcheck⟩
    · cases h
  · rintro ⟨⟨r, hr, hretention⟩, ⟨k, hk, hkeepalive⟩, hurl, hstream, hgroup, hcheck⟩
    obtain ⟨_, _, ⟨_⟩, _, _⟩ := s
    dsimp only at hretention hkeepalive hurl hstream hgroup
    subst hretention hkeepalive hstream hgroup
    simp only [ofEnvironment, bind, Except.bind, hr, hk, hurl, hcheck]
    rfl

theorem check_of_ofEnvironment (h : ofEnvironment env = .ok s) : s.check = .ok () :=
  (ofEnvironment_eq_ok_iff.mp h).2.2.2.2.2

theorem ofEnvironment_iff_given (h : Readable env) :
    ofEnvironment env = .ok s ↔ Given env s ∧ s.check = .ok () := by
  rw [ofEnvironment_eq_ok_iff, exists_span?_iff h.retention, exists_span?_iff h.keepalive,
    text?_eq_some_iff, ← says_eq_iff h.stream, ← says_eq_iff h.group]
  constructor
  · rintro ⟨hretention, hkeepalive, haddress, hstream, hgroup, hcheck⟩
    exact ⟨⟨hretention, hkeepalive, haddress, hstream, hgroup⟩, hcheck⟩
  · rintro ⟨hg, hcheck⟩
    exact ⟨hg.retention, hg.keepalive, hg.address, hg.stream, hg.group, hcheck⟩

/-- A span may be given exactly if there is a usable span that the variable says, where the default is
usable and a number of units unless it is zero. -/
theorem says_counts_iff {p : Duration → Prop} {standard : Duration} (hstandard : p standard)
    (hunit : ∀ n, p (unit n) ↔ n ≠ 0) :
    env.Says name Counts True ↔ ∃ d, SaysSpan env name unit d standard ∧ p d := by
  constructor
  · rintro (⟨raw, hraw, n, hpos, hlt, hn⟩ | ⟨hnone, -⟩)
    · have hof : (UInt64.ofNat n).toNat = n := UInt64.toNat_ofNat_of_lt' hlt
      refine ⟨unit (.ofNat n), .inl ⟨raw, hraw, _, by rwa [hof], rfl⟩, (hunit _).mpr fun hzero => ?_⟩
      rw [hzero] at hof
      exact absurd hof (Nat.ne_of_lt hpos)
    · exact ⟨standard, .inr ⟨hnone, rfl⟩, hstandard⟩
  · rintro ⟨d, ⟨raw, hraw, n, hn, rfl⟩ | ⟨hnone, -⟩, hd⟩
    · have hne : n.toNat ≠ 0 := fun hzero => (hunit n).mp hd (UInt64.toNat_inj.mp hzero)
      exact .inl ⟨raw, hraw, n.toNat, Nat.pos_of_ne_zero hne, n.toNat_lt, hn⟩
    · exact .inr ⟨hnone, trivial⟩

theorem ofSeconds_pos (n : UInt64) : 0 < (Duration.ofSeconds n).nanos ↔ n ≠ 0 := by
  rw [ne_eq, ← UInt64.toNat_inj, Duration.ofSeconds]
  change 0 < n.toNat * 1000000000 ↔ ¬ n.toNat = 0
  omega

/-- A millisecond is long enough to be divided by ten. -/
theorem ofMillis_tenth_pos (n : UInt64) : 0 < (Duration.ofMillis n).tenth.nanos ↔ n ≠ 0 := by
  rw [ne_eq, ← UInt64.toNat_inj, Duration.ofMillis, Duration.tenth]
  change 0 < n.toNat * 1000000 / 10 ↔ ¬ n.toNat = 0
  omega

/-- The default spans are long enough. -/
theorem standard_usable : 0 < standard.retention.nanos ∧ 0 < standard.interval.nanos := by decide

/-- Variables can be run with exactly if the settings that they give pass the check. -/
theorem runnable_iff : Runnable env ↔ ∃ s, Given env s ∧ s.check = .ok () := by
  have hretention : env.Says "RESPONSE_ENTRY_TIMEOUT_SECS" Counts True ↔ _ :=
    says_counts_iff (p := fun d => 0 < d.nanos) standard_usable.1 ofSeconds_pos
  have hkeepalive : env.Says "KEEPALIVE_TIMEOUT_MS" Counts True ↔ _ :=
    says_counts_iff (p := fun d => 0 < d.tenth.nanos) standard_usable.2 ofMillis_tenth_pos
  constructor
  · intro h
    obtain ⟨retention, hr, hr'⟩ := hretention.mp h.retention
    obtain ⟨keepalive, hk, hk'⟩ := hkeepalive.mp h.keepalive
    obtain ⟨url, hu, hu'⟩ := h.address
    obtain ⟨stream, hs, hs'⟩ := (says_ne_iff (d := standard.stream) (by decide)).mp h.stream
    obtain ⟨group, hg, hg'⟩ := (says_ne_iff (d := standard.group) (by decide)).mp h.group
    exact ⟨⟨retention, keepalive, ⟨url⟩, stream, group⟩, ⟨hr, hk, hu, hs, hg⟩,
      check_eq_ok_iff.mpr ⟨hu', hk', hr', hs', hg'⟩⟩
  · rintro ⟨s, hg, hcheck⟩
    obtain ⟨hu, hk, hr, hs, hn⟩ := check_eq_ok_iff.mp hcheck
    exact ⟨hretention.mpr ⟨_, hg.retention, hr⟩, hkeepalive.mpr ⟨_, hg.keepalive, hk⟩,
      ⟨_, hg.address, hu⟩, (says_ne_iff (by decide)).mpr ⟨_, hg.stream, hs⟩,
      (says_ne_iff (by decide)).mpr ⟨_, hg.group, hn⟩⟩

/-- A keepalive that a variable says can be doubled. -/
theorem Given.expiry?_ne_none (h : Given env s) : s.expiry? ≠ none := by
  rw [ne_eq, expiry?_eq_none_iff, Nat.not_le, Duration.limit, UInt64.size]
  rcases h.keepalive with ⟨_, -, n, -, hn⟩ | ⟨-, hstandard⟩
  · have hlt := n.toNat_lt
    rw [hn, Duration.ofMillis]
    dsimp only
    omega
  · rw [hstandard]
    decide

theorem exists_ofEnvironment_iff (h : Readable env) :
    (∃ s, ofEnvironment env = .ok s) ↔ Runnable env := by
  rw [runnable_iff]
  exact exists_congr fun s => ofEnvironment_iff_given h

/-- Settings written into variables in decimal come back. -/
theorem ofEnvironment_of_decimal (h : Readable env) {n m : UInt64} {url stream group : String}
    (hn : n ≠ 0) (hm : m ≠ 0) (hu : url ≠ "") (hs : stream ≠ "") (hg : group ≠ "")
    (hn' : env.Holds "RESPONSE_ENTRY_TIMEOUT_SECS" (toString n.toNat))
    (hm' : env.Holds "KEEPALIVE_TIMEOUT_MS" (toString m.toNat)) (hu' : env.Holds "REDIS_URL" url)
    (hs' : env.Holds "REDIS_STREAM" stream) (hg' : env.Holds "REDIS_GROUP" group) :
    ofEnvironment env = .ok ⟨.ofSeconds n, .ofMillis m, ⟨url⟩, stream, group⟩ := by
  have hgiven : Given env ⟨.ofSeconds n, .ofMillis m, ⟨url⟩, stream, group⟩ :=
    ⟨.inl ⟨_, hn', n, Numeral.denotes_toString _, rfl⟩,
      .inl ⟨_, hm', m, Numeral.denotes_toString _, rfl⟩, hu', .inl ⟨_, hs', rfl⟩, .inl ⟨_, hg', rfl⟩⟩
  exact (ofEnvironment_iff_given h).mpr ⟨hgiven, check_eq_ok_iff.mpr
    ⟨hu, (ofMillis_tenth_pos m).mpr hm, (ofSeconds_pos n).mpr hn, hs, hg⟩⟩

/-- Variables that hold texts give settings exactly if they are runnable, and the reason why they give
none is a failure of the settings. What they give is what they say, with defaults for what they do not
say; it passes the check, so that there is a worker with it, and its spans work out: there is time
between two heartbeats, a heartbeat stands for twice the keepalive, and that is time for twenty
heartbeats. Settings written into variables in decimal come back. -/
theorem ofEnvironment_accepts (h : Readable env) :
    ((∃ s, ofEnvironment env = .ok s) ↔ Runnable env) ∧
    (¬ Runnable env → ∃ fault reason, ofEnvironment env = .error fault ∧
      Failure.ofSettings fault = .settings reason) ∧
    (∀ s, ofEnvironment env = .ok s →
      Given env s ∧ s.check = .ok () ∧ (∀ id kind, Worker.create id s kind = .ok ⟨id, s, kind⟩) ∧
      0 < s.interval.nanos ∧
      ∃ expiry, s.expiry? = some expiry ∧ expiry.nanos = 2 * s.keepalive.nanos ∧
        20 * s.interval.nanos ≤ expiry.nanos) ∧
    (∀ (n m : UInt64) (url stream group : String),
      n ≠ 0 → m ≠ 0 → url ≠ "" → stream ≠ "" → group ≠ "" →
      env.Holds "RESPONSE_ENTRY_TIMEOUT_SECS" (toString n.toNat) →
      env.Holds "KEEPALIVE_TIMEOUT_MS" (toString m.toNat) →
      env.Holds "REDIS_URL" url → env.Holds "REDIS_STREAM" stream → env.Holds "REDIS_GROUP" group →
      ofEnvironment env = .ok ⟨.ofSeconds n, .ofMillis m, ⟨url⟩, stream, group⟩) := by
  refine ⟨exists_ofEnvironment_iff h, fun hnot => ?_, fun s hs => ?_,
    fun n m url stream group => ofEnvironment_of_decimal h⟩
  · cases hs : ofEnvironment env with
    | ok s => exact absurd ((exists_ofEnvironment_iff h).mp ⟨s, hs⟩) hnot
    | error fault => exact ⟨fault, fault.message, rfl, rfl⟩
  · obtain ⟨hgiven, hcheck⟩ := (ofEnvironment_iff_given h).mp hs
    obtain ⟨expiry, he⟩ := Option.ne_none_iff_exists'.mp hgiven.expiry?_ne_none
    refine ⟨hgiven, hcheck, fun id kind => ?_, interval_pos hcheck, expiry, he, expiry_nanos he, ?_⟩
    · rw [Worker.create, hcheck]
      rfl
    · rw [expiry_nanos he, interval, Duration.tenth]
      dsimp only
      omega

/-- Variables with blanks around their counts and a sign before one of them, and without names. -/
def untidy : Environment := .ofList
  [("REDIS_URL", Utf8.encode "redis://127.0.0.1/"),
    ("RESPONSE_ENTRY_TIMEOUT_SECS", Utf8.encode " +60\n"),
    ("KEEPALIVE_TIMEOUT_MS", Utf8.encode "\t1 ")]

theorem ofEnvironment_untidy : Readable untidy ∧ Runnable untidy ∧
    ∃ s, ofEnvironment untidy = .ok s ∧ s.check = .ok () ∧ 0 < s.interval.nanos := by
  have hseconds : untidy.Holds "RESPONSE_ENTRY_TIMEOUT_SECS" " +60\n" := by decide +kernel
  have hmillis : untidy.Holds "KEEPALIVE_TIMEOUT_MS" "\t1 " := by decide +kernel
  have haddress : untidy.Holds "REDIS_URL" "redis://127.0.0.1/" := by decide +kernel
  have hstream : untidy.get? "REDIS_STREAM" = none := by decide +kernel
  have hgroup : untidy.get? "REDIS_GROUP" = none := by decide +kernel
  have hreadable : Readable untidy := ⟨.inl ⟨_, hseconds, trivial⟩, .inl ⟨_, hmillis, trivial⟩,
    .inl ⟨_, haddress, trivial⟩, .inr ⟨hstream, trivial⟩, .inr ⟨hgroup, trivial⟩⟩
  have hsixty : Counts " +60\n" := ⟨60, by decide, by decide,
    [' '], ['+', '6', '0'], ['\n'], by decide, List.all_eq_true.mp rfl, List.all_eq_true.mp rfl,
    ['+'], ['6', '0'], rfl, .inr rfl, by decide, List.all_eq_true.mp rfl, by decide⟩
  have hone : Counts "\t1 " := ⟨1, by decide, by decide,
    ['\t'], ['1'], [' '], by decide, List.all_eq_true.mp rfl, List.all_eq_true.mp rfl,
    [], ['1'], rfl, .inl rfl, by decide, List.all_eq_true.mp rfl, by decide⟩
  have hrunnable : Runnable untidy := ⟨.inl ⟨_, hseconds, hsixty⟩, .inl ⟨_, hmillis, hone⟩,
    ⟨_, haddress, by decide⟩, .inr ⟨hstream, trivial⟩, .inr ⟨hgroup, trivial⟩⟩
  obtain ⟨hiff, -, hgood, -⟩ := ofEnvironment_accepts hreadable
  obtain ⟨s, hs⟩ := hiff.mpr hrunnable
  obtain ⟨-, hcheck, -, hpos, -⟩ := hgood s hs
  exact ⟨hreadable, hrunnable, s, hs, hcheck, hpos⟩

end Settings

end StreamWorker
