import StreamWorker.Proofs.Server.Exchange

/-! Publications over a server. The reply to the command that stores a result decides alone whether the
message is acknowledged: it is if the reply is a text, and it is not if the reply is nothing, which means
that there is a result already, or anything that is no text. The reply to the acknowledgment decides
only what the caller is told; any count will do. -/

namespace StreamWorker

namespace Server

/-! ### Replies that are taken -/

/-- A reply that is a text: a line, a number, or bytes that spell one. -/
inductive Reply.Textual : Reply → Prop
  | status (s : String) : Textual (.status s)
  | integer (n : Int) : Textual (.integer n)
  | bulk {b : Bytes} {s : String} (h : Utf8.decode? b = some s) : Textual (.bulk b)

/-- A reply that is a count: a number, or a text that spells one of 64 bits. -/
inductive Reply.Countable : Reply → Prop
  | integer (n : Int) : Countable (.integer n)
  | status {s : String} {n : Nat} (h : Numeral.readBelow UInt64.size s = .ok n) : Countable (.status s)
  | bulk {b : Bytes} {s : String} {n : Nat} (h : Utf8.decode? b = some s)
      (hn : Numeral.readBelow UInt64.size s = .ok n) : Countable (.bulk b)

variable {r : Reply}

theorem Reply.textual_iff : r.Textual ↔ ∃ s, r.text = .ok s := by
  constructor
  · rintro (s | n | @⟨b, s, h⟩)
    · exact ⟨s, rfl⟩
    · exact ⟨_, rfl⟩
    · exact ⟨s, by rw [text, textOr, h]⟩
  · rintro ⟨s, h⟩
    cases r with
    | status s => exact .status s
    | integer n => exact .integer n
    | bulk b =>
      cases hb : Utf8.decode? b with
      | some s => exact .bulk hb
      | none => rw [text, textOr, hb] at h; cases h
    | refusal | nil | array => cases h

theorem Reply.countable_iff : r.Countable ↔ ∃ n, r.count = .ok n := by
  constructor
  · rintro (n | @⟨s, n, h⟩ | @⟨b, s, n, h, hn⟩)
    · exact ⟨_, rfl⟩
    · exact ⟨.ofNat n, by rw [count, number, number.numeral, h]; rfl⟩
    · exact ⟨.ofNat n, by simp only [count, number, h, number.numeral, hn]; rfl⟩
  · rintro ⟨n, h⟩
    cases r with
    | integer n => exact .integer n
    | status s =>
      cases hs : Numeral.readBelow UInt64.size s with
      | ok n => exact .status hs
      | error fault => rw [count, number, number.numeral, hs] at h; cases h
    | bulk b =>
      cases hb : Utf8.decode? b with
      | none => simp only [count, number, hb] at h; cases h
      | some s =>
        cases hs : Numeral.readBelow UInt64.size s with
        | ok n => exact .bulk hb hs
        | error fault => simp only [count, number, hb, number.numeral, hs] at h; cases h
    | refusal | nil | array => cases h

theorem Reply.Textual.refusal? : r.Textual → r.refusal? = none
  | .status _ | .integer _ | .bulk _ => rfl

theorem Reply.Textual.ne_nil : r.Textual → r ≠ .nil
  | .status _ | .integer _ | .bulk _ => nofun

theorem Reply.Countable.refusal? : r.Countable → r.refusal? = none
  | .status _ | .integer _ | .bulk _ _ => rfl

/-- A reply that is not nothing is a text or is none. -/
theorem Reply.optional_text (h : r ≠ .nil) :
    (r.Textual ∧ ∃ s, r.optional text = .ok (some s)) ∨
      (¬ r.Textual ∧ ∃ fault, r.optional text = .error fault) := by
  have hoptional : r.optional text = (text r).map some := by
    rw [optional]
    exact h
  rw [hoptional, textual_iff]
  cases r.text with
  | ok s => exact .inl ⟨⟨s, rfl⟩, s, rfl⟩
  | error fault => exact .inr ⟨nofun, fault, rfl⟩

/-! ### What they answer -/

variable {op : Operation}

theorem answer_of_accepted (h : r.refusal? = none) : answer op r = meaning op r := by
  rw [answer, h]

theorem answer_of_refused {refusal : Refusal} (h : r.refusal? = some refusal)
    (hop : harmless op refusal = none) : answer op r = .error (.server refusal.message) := by
  rw [answer, h]
  simp only [hop]

/-- A command that no refusal can mean success to is answered by what its reply reads as, and fails on
the server's part if the reply is refused or cannot be read. -/
theorem answer_cases (hop : ∀ refusal, harmless op refusal = none) :
    (r.refusal? = none ∧ answer op r = meaning op r) ∨
      (r.refusal? ≠ none ∧ ∃ reason, answer op r = .error (.server reason)) := by
  cases h : r.refusal? with
  | none => exact .inl ⟨rfl, answer_of_accepted h⟩
  | some refusal => exact .inr ⟨by simp, _, answer_of_refused h (hop refusal)⟩

theorem answer_claim (key value : String) (ttl : Duration) (r : Reply) :
    (r = .nil ∧ answer (.claim key value ttl) r = .ok false) ∨
      (r.Textual ∧ answer (.claim key value ttl) r = .ok true) ∨
      (r ≠ .nil ∧ ¬ r.Textual ∧ ∃ reason, answer (.claim key value ttl) r = .error (.server reason)) := by
  by_cases hnil : r = .nil
  · subst hnil
    exact .inl ⟨rfl, rfl⟩
  have hother : ∀ refusal, harmless (.claim key value ttl) refusal = none := fun _ => rfl
  rcases answer_cases hother with ⟨-, h⟩ | ⟨hr, h⟩
  · rw [h, meaning, readAs]
    rcases Reply.optional_text hnil with ⟨ht, s, hs⟩ | ⟨ht, fault, hf⟩
    · exact .inr (.inl ⟨ht, by rw [hs]; rfl⟩)
    · exact .inr (.inr ⟨hnil, ht, fault.message, by rw [hf]; rfl⟩)
  · exact .inr (.inr ⟨hnil, fun ht => hr ht.refusal?, h⟩)

theorem answer_acknowledge (stream group id : String) (r : Reply) :
    (r.Countable ∧ ∃ n, answer (.acknowledge stream group id) r = .ok n) ∨
      (¬ r.Countable ∧ ∃ reason, answer (.acknowledge stream group id) r = .error (.server reason)) := by
  have hother : ∀ refusal, harmless (.acknowledge stream group id) refusal = none := fun _ => rfl
  rcases answer_cases hother with ⟨-, h⟩ | ⟨hr, h⟩
  · rw [h, meaning, readAs, Reply.countable_iff]
    cases r.count with
    | ok n => exact .inl ⟨⟨n, rfl⟩, n, rfl⟩
    | error fault => exact .inr ⟨nofun, fault.message, rfl⟩
  · exact .inr ⟨fun hc => hr hc.refusal?, h⟩

end Server

/-! ### The call -/

namespace Worker

/-- What a publication over a server comes to with two replies, and the commands that it sends. -/
inductive Published (w : Worker) (message result : String) (r₁ r₂ : Server.Reply) :
    List Command → Except Failure Success → Prop
  /-- There is a result already. -/
  | held (h : r₁ = .nil) :
      w.Published message result r₁ r₂ [w.storeCommand message result]
        (.error (.resultExists message))
  | unpublished (h : r₁ ≠ .nil) (ht : ¬ r₁.Textual) (reason : String) :
      w.Published message result r₁ r₂ [w.storeCommand message result]
        (.error (.unpublished message (.server reason)))
  | unacknowledged (ht : r₁.Textual) (hc : ¬ r₂.Countable) (reason : String) :
      w.Published message result r₁ r₂
        [w.storeCommand message result, w.acknowledgeCommand message]
        (.error (.unacknowledged message (.server reason)))
  | done (ht : r₁.Textual) (hc : r₂.Countable) :
      w.Published message result r₁ r₂
        [w.storeCommand message result, w.acknowledgeCommand message] (.ok .done)

/-- The acknowledgment ends the call, whatever is replied to it. -/
theorem react_acknowledging (w : Worker) (message : String) (r : Server.Reply) :
    let stage := Stage.acknowledging message
    (r.Countable ∧
        (w.react stage (Server.answer (w.operation stage) r)).next = .inr (.ok .done)) ∨
      (¬ r.Countable ∧ ∃ reason, (w.react stage (Server.answer (w.operation stage) r)).next =
        .inr (.error (.unacknowledged message (.server reason)))) := by
  intro stage
  rcases Server.answer_acknowledge w.settings.stream w.settings.group message r with
    ⟨hc, n, h⟩ | ⟨hc, reason, h⟩
  · refine .inl ⟨hc, ?_⟩
    rw [react, h]
    rfl
  · refine .inr ⟨hc, reason, ?_⟩
    rw [react, h]
    rfl

/-- The reply to the command that stores a result ends the call unless it is a text. -/
theorem react_claiming (w : Worker) (message result : String) (r : Server.Reply) :
    let stage := Stage.claiming message result
    let next := (w.react stage (Server.answer (w.operation stage) r)).next
    (r = .nil ∧ next = .inr (.error (.resultExists message))) ∨
      (r.Textual ∧ next = .inl (.acknowledging message)) ∨
      (r ≠ .nil ∧ ¬ r.Textual ∧
        ∃ reason, next = .inr (.error (.unpublished message (.server reason)))) := by
  intro stage next
  have hnext : next = (w.afterClaim message
    (Server.answer (.claim message result w.settings.retention) r)).next := rfl
  rw [hnext]
  rcases Server.answer_claim message result w.settings.retention r with
    ⟨hr, h⟩ | ⟨hr, h⟩ | ⟨hr, ht, reason, h⟩
  · exact .inl ⟨hr, by rw [h]; rfl⟩
  · exact .inr (.inl ⟨hr, by rw [h]; rfl⟩)
  · exact .inr (.inr ⟨hr, ht, reason, by rw [h]; rfl⟩)

theorem published (w : Worker) (clock : Nat) (message result : String) (r₁ r₂ : Server.Reply)
    (rest : List Server.Reply) :
    ∃ e, w.call clock false (.publish message result) (r₁ :: r₂ :: rest) = .ok e ∧
      w.Published message result r₁ r₂ e.sent e.outcome := by
  refine ⟨_, call_of_start rfl _, ?_⟩
  rcases w.react_claiming message result r₁ with ⟨hr, h⟩ | ⟨ht, h⟩ | ⟨hr, ht, reason, h⟩
  · rw [converse_of_ended h, Exchange.giveUp_of_ended rfl]
    exact .held hr
  · rw [converse_of_next h]
    rcases w.react_acknowledging message r₂ with ⟨hc, h⟩ | ⟨hc, reason, h⟩
    · rw [converse_of_ended h, Exchange.giveUp_of_ended rfl]
      exact .done ht hc
    · rw [converse_of_ended h, Exchange.giveUp_of_ended rfl]
      exact .unacknowledged ht hc reason
  · rw [converse_of_ended h, Exchange.giveUp_of_ended rfl]
    exact .unpublished hr ht reason

end Worker

/-- The replies to the two commands of a publication decide what is sent and what the caller is told: a
message is acknowledged exactly if the server took its result. -/
theorem publish_over_server (w : Worker) (clock : Nat) (message result : String)
    (r₁ r₂ : Server.Reply) (rest : List Server.Reply) :
    let set := ["SET", message, result, "NX", "PX",
      toString (Server.sentMillis w.settings.retention)].map Utf8.encode
    let xack := ["XACK", w.settings.stream, w.settings.group, message].map Utf8.encode
    (∃ e, w.call clock false (.publish message result) (r₁ :: r₂ :: rest) = .ok e ∧
      (e.sent = [set, xack] ↔ r₁.Textual) ∧
      (e.sent = [set] ↔ ¬ r₁.Textual) ∧
      (e.outcome = .error (.resultExists message) ↔ r₁ = .nil) ∧
      ((∃ reason, e.outcome = .error (.unpublished message (.server reason))) ↔
        r₁ ≠ .nil ∧ ¬ r₁.Textual) ∧
      ((∃ reason, e.outcome = .error (.unacknowledged message (.server reason))) ↔
        r₁.Textual ∧ ¬ r₂.Countable) ∧
      (e.outcome = .ok .done ↔ r₁.Textual ∧ r₂.Countable)) ∧
    -- a caller that has given up beforehand
    ∃ e, w.call clock true (.publish message result) (r₁ :: r₂ :: rest) = .ok e ∧
      e.sent = [] ∧ e.outcome = .error .cancelled := by
  intro set xack
  refine ⟨?_, _, Worker.call_of_cancelled rfl _, rfl, rfl⟩
  obtain ⟨e, he, hpublished⟩ := w.published clock message result r₁ r₂ rest
  refine ⟨e, he, ?_⟩
  clear he
  obtain ⟨sent, notes, rest, outcome⟩ := e
  have hnil : r₁.Textual → r₁ ≠ .nil := Server.Reply.Textual.ne_nil
  have hset : w.storeCommand message result = set := rfl
  have hxack : w.acknowledgeCommand message = xack := rfl
  cases hpublished with
  | held h =>
    have ht : ¬ r₁.Textual := fun ht => hnil ht h
    subst h
    simp [ht, hset]
  | unpublished h ht reason => simp [h, ht, hset]
  | unacknowledged ht hc reason => simp [hnil ht, ht, hc, hset, hxack]
  | done ht hc => simp [hnil ht, ht, hc, hset, hxack]

end StreamWorker
