import StreamWorker.Proofs.Server.Exchange
import StreamWorker.Proofs.Settings.Basic
import StreamWorker.Settings.Environment

/-! Spans of time on their way to a server. A command says a span in whole milliseconds, at least one,
and has 64 bits for them. As long as the milliseconds fit, a longer span is never sent as a shorter one,
and a heartbeat stands for longer than it takes until the next one. Settings may have longer spans,
which nothing rejects; of their milliseconds the upper bits are lost. -/

namespace StreamWorker

/-! ### Milliseconds -/

namespace Server

variable {d d' : Duration}

/-- The milliseconds of the span are all sent. -/
def Fits (d : Duration) : Prop := d.millis < UInt64.size

instance : Decidable (Fits d) := inferInstanceAs (Decidable (_ < _))

theorem sentMillis_pos (d : Duration) : 0 < sentMillis d := Nat.le_max_right _ 1

theorem sentMillis_of_fits (h : Fits d) : sentMillis d = max 1 d.millis := by
  rw [sentMillis, Nat.mod_eq_of_lt h, Nat.max_comm]

/-- Too many milliseconds lose their upper bits, and come out fewer. -/
theorem sentMillis_of_not_fits (h : ¬ Fits d) :
    sentMillis d = max 1 (d.millis % UInt64.size) ∧ sentMillis d < d.millis := by
  have hlarge : UInt64.size ≤ d.millis := Nat.not_lt.mp h
  have hlost : d.millis % UInt64.size < UInt64.size := Nat.mod_lt _ (by decide)
  have hone : 1 < UInt64.size := by decide
  rw [sentMillis]
  exact ⟨Nat.max_comm .., by omega⟩

theorem sentMillis_eq_iff : sentMillis d = max 1 d.millis ↔ Fits d := by
  refine ⟨fun h => Nat.lt_of_not_le fun hlarge => ?_, sentMillis_of_fits⟩
  have hless := (sentMillis_of_not_fits (Nat.not_lt.mpr hlarge)).2
  omega

theorem sentMillis_mono (h : d.nanos ≤ d'.nanos) (hfits : Fits d') : sentMillis d ≤ sentMillis d' := by
  have hmillis : d.millis ≤ d'.millis := Nat.div_le_div_right h
  rw [sentMillis_of_fits hfits, sentMillis_of_fits (Nat.lt_of_le_of_lt hmillis hfits)]
  omega

end Server

namespace Settings

variable {s : Settings} {expiry : Duration}

/-- The next heartbeat is due before the last one is over, by the server's clock as well. -/
theorem interval_le_sentMillis (h : s.expiry? = some expiry) (hfits : Server.Fits expiry) :
    s.interval.nanos ≤ Server.sentMillis expiry * Instant.milli := by
  have hexpiry := expiry_nanos h
  rw [Server.sentMillis_of_fits hfits, Duration.millis, interval, Duration.tenth, Instant.milli]
  dsimp only
  omega

end Settings

/-! ### Commands -/

namespace Worker

/-- The command with which a call begins. It says some milliseconds for a span: how long to keep a
result, how long a heartbeat stands, or how long to wait for an entry. -/
inductive Opens (w : Worker) (clock : Nat) : Call → Command → Duration → Nat → Prop
  | consume (n : Nat) :
      Opens w clock .consume
        (["XREADGROUP", "GROUP", w.settings.group, w.id, "BLOCK", toString n,
          "COUNT", "1", "STREAMS", w.settings.stream, ">"].map Utf8.encode) readBlock n
  | publish (message result : String) (n : Nat) :
      Opens w clock (.publish message result)
        (["SET", message, result, "NX", "PX", toString n].map Utf8.encode) w.settings.retention n
  | heartbeat {expiry : Duration} (h : w.settings.expiry? = some expiry) (n : Nat) :
      Opens w clock .heartbeat
        (["PSETEX", w.heartbeatKey, toString n, toString clock].map Utf8.encode) expiry n

variable {w : Worker} {clock : Nat} {c : Call} {stage : Stage}

theorem opens_of_start (h : w.start clock c = .ok stage) :
    ∃ d, w.Opens clock c (Server.command (w.operation stage)) d (Server.sentMillis d) := by
  cases c with
  | consume =>
    cases h
    have hblock : toString (Server.sentMillis readBlock) = "1" := by decide
    have hopens : w.Opens clock .consume _ readBlock (Server.sentMillis readBlock) := .consume _
    rw [hblock] at hopens
    rw [command_reading]
    exact ⟨readBlock, hopens⟩
  | publish message result =>
    cases h
    exact ⟨_, .publish message result _⟩
  | heartbeat =>
    rw [start] at h
    split at h
    · next expiry he =>
      cases h
      exact ⟨expiry, .heartbeat he _⟩
    · cases h

/-- A call breaks off before it sends anything only if a heartbeat would have to stand for longer than
there is a span. -/
theorem exists_start_iff (w : Worker) (clock : Nat) (c : Call) :
    (∃ stage, w.start clock c = .ok stage) ↔ ¬ (c = .heartbeat ∧ w.settings.expiry? = none) := by
  cases c with
  | consume => simp [start]
  | publish message result => simp [start]
  | heartbeat => cases he : w.settings.expiry? <;> simp [start, he]

/-- Whatever a call sends after its first command acknowledges a message. -/
theorem sent_converse (w : Worker) (stage : Stage) (replies : List Server.Reply) : ∃ rest,
    (w.converse stage replies).sent = Server.command (w.operation stage) :: rest ∧
      ∀ command ∈ rest, ∃ message, command = w.acknowledgeCommand message := by
  induction replies generalizing stage with
  | nil => exact ⟨[], rfl, List.forall_mem_nil _⟩
  | cons r replies ih =>
    cases h : (w.react stage (Server.answer (w.operation stage) r)).next with
    | inr result =>
      rw [converse_of_ended h]
      exact ⟨[], rfl, List.forall_mem_nil _⟩
    | inl next =>
      rw [converse_of_next h]
      obtain ⟨message, result, -, rfl⟩ := react_next_stage h
      obtain ⟨rest, hsent, hrest⟩ := ih (.acknowledging message)
      refine ⟨_, rfl, ?_⟩
      rw [hsent, List.forall_mem_cons]
      exact ⟨⟨message, w.command_acknowledging message⟩, hrest⟩

/-- What a worker's calls tell a server about time. A call that is not given up says one span, that of
its first command, in milliseconds; there is always at least one of them. They are the whole
milliseconds of the span, or one, exactly if they fit 64 bits; otherwise they are fewer. Up to there a
longer span is never sent as a shorter one, and a heartbeat stands until the next one is due. -/
theorem spans_sent (w : Worker) :
    (∀ clock c replies,
      ((∃ e, w.call clock false c replies = .ok e) ↔
        ¬ (c = .heartbeat ∧ w.settings.expiry? = none)) ∧
      ∀ e, w.call clock false c replies = .ok e → ∃ first rest d, e.sent = first :: rest ∧
        w.Opens clock c first d (Server.sentMillis d) ∧
        ∀ command ∈ rest, ∃ message, command = w.acknowledgeCommand message) ∧
    (∀ d, 0 < Server.sentMillis d ∧ (Server.sentMillis d = max 1 d.millis ↔ Server.Fits d) ∧
      (¬ Server.Fits d → Server.sentMillis d = max 1 (d.millis % UInt64.size) ∧
        Server.sentMillis d < d.millis)) ∧
    (∀ d d' : Duration, d.nanos ≤ d'.nanos → Server.Fits d' →
      Server.sentMillis d ≤ Server.sentMillis d') ∧
    ∀ expiry, w.settings.expiry? = some expiry → Server.Fits expiry →
      w.settings.interval.nanos ≤ Server.sentMillis expiry * Instant.milli := by
  refine ⟨fun clock c replies => ?_, fun d => ⟨Server.sentMillis_pos d, Server.sentMillis_eq_iff,
    Server.sentMillis_of_not_fits⟩, fun d d' => Server.sentMillis_mono,
    fun expiry => Settings.interval_le_sentMillis⟩
  cases hs : w.start clock c with
  | error b =>
    have hcall : w.call clock false c replies = .error b := by
      rw [call, hs]
      rfl
    have hnot : ¬ ∃ stage, w.start clock c = .ok stage := by simp [hs]
    rw [← w.exists_start_iff clock, hcall]
    refine ⟨⟨?_, fun h => absurd h hnot⟩, fun e he => (by cases he)⟩
    rintro ⟨_, ⟨⟩⟩
  | ok stage =>
    obtain ⟨rest, hsent, hrest⟩ := w.sent_converse stage replies
    obtain ⟨d, hd⟩ := opens_of_start hs
    have hgiven : (Exchange.giveUp w (w.converse stage replies)).sent =
        (w.converse stage replies).sent := by
      rw [Exchange.giveUp]
      split <;> rfl
    rw [← w.exists_start_iff clock, call_of_start hs]
    refine ⟨⟨fun _ => ⟨stage, hs⟩, fun _ => ⟨_, rfl⟩⟩, fun e he => ?_⟩
    cases he
    exact ⟨_, rest, d, hgiven.trans hsent, hd, hrest⟩

theorem spans_sent_brisk :
    let w : Worker := ⟨"a", Settings.brisk, .text⟩
    (∃ e, w.call 0 false .heartbeat [] = .ok e) ∧
      Server.sentMillis w.settings.retention = max 1 w.settings.retention.millis ∧
      ∀ expiry, w.settings.expiry? = some expiry →
        w.settings.interval.nanos ≤ Server.sentMillis expiry * Instant.milli := by
  intro w
  obtain ⟨hcommands, hmillis, -, hheartbeat⟩ := spans_sent w
  have hdouble : w.settings.expiry? = some (.ofMillis 60) := by decide
  refine ⟨(hcommands 0 .heartbeat []).1.mpr (by simp [hdouble]), (hmillis _).2.1.mpr (by decide),
    fun expiry he => hheartbeat expiry he ?_⟩
  cases hdouble.symm.trans he
  decide

/-- Results are kept for the first whole number of seconds, and heartbeats stand for the first number of
milliseconds, that 64 bits have no room for. -/
def longLived : Settings :=
  { Settings.standard with
    address := ⟨"redis://127.0.0.1/"⟩
    retention := .ofSeconds 18446744073709552
    keepalive := .ofMillis 9223372036854775808 }

/-- Settings that the environment may give and nothing rejects keep results for longer than the standard
ones, but the server is told to drop them sooner; their heartbeats stand for less than their interval. -/
theorem longer_span_sent_shorter :
    let w : Worker := ⟨"a", longLived, .text⟩
    (Settings.ofEnvironment (.ofList [("REDIS_URL", Utf8.encode "redis://127.0.0.1/"),
        ("RESPONSE_ENTRY_TIMEOUT_SECS", Utf8.encode "18446744073709552"),
        ("KEEPALIVE_TIMEOUT_MS", Utf8.encode "9223372036854775808")])).toOption = some longLived ∧
      longLived.check = .ok () ∧
      (w.call 0 false (.publish "m" "x") []).toOption.map (·.sent) =
        some [["SET", "m", "x", "NX", "PX", "384"].map Utf8.encode] ∧
      (w.call 1 false .heartbeat []).toOption.map (·.sent) =
        some [["PSETEX", "consumer:a:heartbeat", "1", "1"].map Utf8.encode] ∧
      longLived.retention.millis = 18446744073709552000 ∧
      Settings.standard.retention.nanos < longLived.retention.nanos ∧
      Server.sentMillis longLived.retention < Server.sentMillis Settings.standard.retention ∧
      1 * Instant.milli < longLived.interval.nanos := by
  refine ⟨?_, rfl, ?_, ?_, ?_⟩ <;> decide +kernel

end Worker

end StreamWorker
