import StreamWorker.CommandLine.Run
import StreamWorker.Proofs.Server.Publication
import StreamWorker.Proofs.Server.Read
import StreamWorker.Proofs.Settings.Environment

/-! The commands of a program that works on messages. After the command that makes the group it goes
round and round: it reads, and if the read brings a message that makes sense, it stores the message's
own text as its result, and if the server took that, it acknowledges the message. `Serving` lists the
rounds with the replies that lead from one command to the next. No reply ends the work, since a failure
that a server causes never looks like the caller's giving up; only an interrupt does, at whatever
command or pause it comes. -/

namespace StreamWorker

namespace CommandLine

/-! ### Rounds -/

/-- A reply to a read that the client takes for one entry of one stream, with that id, and whose payload
is a document with that text. -/
def Brings (w : Worker) (r : Server.Reply) (id text : String) : Prop :=
  ∃ stream fields bytes v,
    Server.answer (.read w.readRequest) r = .ok (some [⟨stream, [⟨id, fields⟩]⟩]) ∧
      fields.get? payloadField = some bytes ∧
      Payload.decode .document bytes = .ok (.document v) ∧ text = v.render

theorem Brings.classify {w : Worker} {r : Server.Reply} {id text : String} (h : Brings w r id text) :
    ∃ reply v, Server.answer (.read w.readRequest) r = .ok reply ∧
      classify (Payload.decode .document) reply = .ok (some (id, .document v)) ∧ text = v.render := by
  obtain ⟨stream, fields, bytes, v, hr, hb, hv, htext⟩ := h
  exact ⟨_, v, hr, classify_message hb hv, htext⟩

/-- What a read can bring is one message with one text. -/
theorem Brings.unique {w : Worker} {r : Server.Reply} {id id' text text' : String}
    (h : Brings w r id text) (h' : Brings w r id' text') : id = id' ∧ text = text' := by
  obtain ⟨reply, v, hr, hv, rfl⟩ := h.classify
  obtain ⟨reply', v', hr', hv', rfl⟩ := h'.classify
  obtain rfl : reply = reply' := Except.ok.inj (hr.symm.trans hr')
  cases hv.symm.trans hv'
  exact ⟨rfl, rfl⟩

/-- Replies, and the commands of a worker that lead to them and on from them. The last round can be cut
short at any of its commands. -/
inductive Serving (w : Worker) : List Server.Reply → List Command → Prop
  | reading : Serving w [] [w.readCommand]
  | storing {r : Server.Reply} {id text : String} (h : Brings w r id text) :
      Serving w [r] [w.readCommand, w.storeCommand id text]
  | acknowledging {r s : Server.Reply} {id text : String} (h : Brings w r id text)
      (hs : s.Textual) :
      Serving w [r, s] [w.readCommand, w.storeCommand id text, w.acknowledgeCommand id]
  /-- A read that brings nothing to work on. -/
  | idle {r : Server.Reply} {rs : List Server.Reply} {cs : List Command}
      (h : ∀ id text, ¬ Brings w r id text) (hrest : Serving w rs cs) :
      Serving w (r :: rs) (w.readCommand :: cs)
  /-- A message whose result the server did not take. -/
  | refused {r s : Server.Reply} {id text : String} {rs : List Server.Reply} {cs : List Command}
      (h : Brings w r id text) (hs : ¬ s.Textual) (hrest : Serving w rs cs) :
      Serving w (r :: s :: rs) (w.readCommand :: w.storeCommand id text :: cs)
  /-- A message whose result the server took, whatever it said to the acknowledgment. -/
  | stored {r s a : Server.Reply} {id text : String} {rs : List Server.Reply} {cs : List Command}
      (h : Brings w r id text) (hs : s.Textual) (hrest : Serving w rs cs) :
      Serving w (r :: s :: a :: rs)
        (w.readCommand :: w.storeCommand id text :: w.acknowledgeCommand id :: cs)

section Steps

variable {w : Worker} (idle : UInt64)

theorem progress_of_ended {stage : Stage} {r : Server.Reply} {result : Except Failure Success}
    (h : (w.react stage (Server.answer (w.operation stage) r)).next = .inr result) :
    ((Activity.working w idle stage).next r).progress = (afterCall w idle stage result).progress := by
  rw [Activity.next, afterReaction]
  simp only [h]

theorem progress_of_next {stage next : Stage} {r : Server.Reply}
    (h : (w.react stage (Server.answer (w.operation stage) r)).next = .inl next) :
    ((Activity.working w idle stage).next r).progress = .waits (.working w idle next) := by
  rw [Activity.next, afterReaction]
  simp only [h]

theorem progress_reading (hk : w.kind = .document) (r : Server.Reply) :
    (∃ id text, Brings w r id text ∧ ((Activity.working w idle .reading).next r).progress =
        .waits (.working w idle (.claiming id text))) ∨
      ((∀ id text, ¬ Brings w r id text) ∧ ((Activity.working w idle .reading).next r).progress =
        .pauses idle (.working w idle .reading)) := by
  have hread (a : Except Failure (Option (List Batch)))
      (ha : Server.answer (.read w.readRequest) r = a) (result : Except Failure Success)
      (h : (w.finishRead a).next = .inr result) :
      ((Activity.working w idle .reading).next r).progress = (afterRead w idle result).progress :=
    @progress_of_ended w idle .reading r result (by rw [← h, ← ha]; rfl)
  have hpause (f : Failure) (hf : f.isCancelled = false) :
      (afterRead w idle (.error f)).progress = .pauses idle (.working w idle .reading) := by
    rw [afterRead]
    simp only [hf]
    rfl
  cases ha : Server.answer (.read w.readRequest) r with
  | error f =>
    have hf : (f.within (.read w.id)).isCancelled = false := by
      rw [Failure.isCancelled_within_read]
      exact Server.answer_read_error ha
    refine .inr ⟨fun id text hbrings => ?_, (hread _ ha _ rfl).trans (hpause _ hf)⟩
    obtain ⟨reply, v, hr, -⟩ := hbrings.classify
    rw [ha] at hr
    cases hr
  | ok reply =>
    have hnext : (w.finishRead (.ok reply)).next =
        .inr ((classify (Payload.decode .document) reply).map Worker.consumed) := by
      rw [← hk]
      rfl
    have hnone (hc : ∀ id v, classify (Payload.decode .document) reply ≠ .ok (some (id, v))) :
        ∀ id text, ¬ Brings w r id text := by
      intro id text hbrings
      obtain ⟨reply', v, hr, hv, -⟩ := hbrings.classify
      obtain rfl : reply = reply' := Except.ok.inj (ha.symm.trans hr)
      exact hc _ _ hv
    rcases classify_cases (Payload.decode .document) reply with
      ⟨stream, id, fields, bytes, v, rfl, hb, hv, hc⟩ | hc | ⟨f, hf, hc⟩
    · obtain ⟨d, rfl⟩ := Payload.decode_document hv
      rw [hc] at hnext
      exact .inl ⟨id, d.render, ⟨stream, fields, bytes, d, ha, hb, hv, rfl⟩,
        (hread _ ha _ hnext).trans rfl⟩
    · rw [hc] at hnext
      exact .inr ⟨hnone (by simp [hc]), (hread _ ha _ hnext).trans rfl⟩
    · rw [hc] at hnext
      exact .inr ⟨hnone (by simp [hc]), (hread _ ha _ hnext).trans (hpause f hf)⟩

/-- The result of a message is the only thing that the program stops to look at: without it, the next
message is taken. -/
theorem progress_claiming (id text : String) (s : Server.Reply) :
    (s.Textual ∧ ((Activity.working w idle (.claiming id text)).next s).progress =
        .waits (.working w idle (.acknowledging id))) ∨
      (¬ s.Textual ∧ ((Activity.working w idle (.claiming id text)).next s).progress =
        .waits (.working w idle .reading)) := by
  rcases w.react_claiming id text s with ⟨hs, h⟩ | ⟨hs, h⟩ | ⟨hs, ht, reason, h⟩
  · subst hs
    exact .inr ⟨nofun, (progress_of_ended idle h).trans rfl⟩
  · exact .inl ⟨hs, progress_of_next idle h⟩
  · exact .inr ⟨ht, (progress_of_ended idle h).trans rfl⟩

theorem progress_acknowledging (id : String) (a : Server.Reply) :
    ((Activity.working w idle (.acknowledging id)).next a).progress =
      .waits (.working w idle .reading) := by
  rcases w.react_acknowledging id a with ⟨-, h⟩ | ⟨-, reason, h⟩
  · exact (progress_of_ended idle h).trans rfl
  · exact (progress_of_ended idle h).trans rfl

end Steps

/-! ### Runs -/

section Runs

variable {w : Worker} {idle : UInt64}

theorem runFrom_of_waits {a b : Activity} {r : Server.Reply} (h : (a.next r).progress = .waits b)
    (rs : List Server.Reply) :
    (runFrom a (r :: rs)).sent = Server.command a.operation :: (runFrom b rs).sent ∧
      (runFrom a (r :: rs)).report = (runFrom b rs).report := by
  rw [runFrom]
  simp only [h, and_self]

theorem runFrom_of_pauses {a b : Activity} {r : Server.Reply}
    (h : (a.next r).progress = .pauses idle b) (rs : List Server.Reply) :
    (runFrom a (r :: rs)).sent = Server.command a.operation :: (runFrom b rs).sent ∧
      (runFrom a (r :: rs)).report = (runFrom b rs).report := by
  rw [runFrom]
  simp only [h, and_self]

/-- An interrupt ends the work, whatever it waits for. -/
theorem interrupt_working (stage : Stage) :
    (Activity.working w idle stage).interrupt.progress = .ends { exit := 0 } := by
  rw [Activity.interrupt, afterReaction]
  simp only [Worker.cancel_next]
  cases stage <;> rfl

theorem runFrom_nil (stage : Stage) :
    (runFrom (.working w idle stage) []).sent = [Server.command (w.operation stage)] ∧
      (runFrom (.working w idle stage) []).report = some { exit := 0 } := by
  rw [runFrom, interrupt_working]
  exact ⟨rfl, rfl⟩

/-- Work that begins with a read goes round and round, and only an interrupt ends it. -/
theorem serving_runFrom (hk : w.kind = .document) (rs : List Server.Reply) :
    Serving w rs (runFrom (.working w idle .reading) rs).sent ∧
      (runFrom (.working w idle .reading) rs).report = some { exit := 0 } := by
  match rs with
  | [] =>
    obtain ⟨hsent, hreport⟩ := @runFrom_nil w idle .reading
    rw [hsent, hreport, w.command_reading]
    exact ⟨.reading, rfl⟩
  | r :: rs =>
    rcases progress_reading idle hk r with ⟨id, text, hr, hp⟩ | ⟨hr, hp⟩
    · obtain ⟨hsent, hreport⟩ := runFrom_of_waits hp rs
      rw [hsent, hreport, w.command_reading]
      match rs with
      | [] =>
        rw [(runFrom_nil _).1, (runFrom_nil _).2, w.command_claiming]
        exact ⟨.storing hr, rfl⟩
      | s :: rs =>
        rcases progress_claiming idle id text s with ⟨hs, hp⟩ | ⟨hs, hp⟩
        · obtain ⟨hsent, hreport⟩ := runFrom_of_waits hp rs
          rw [hsent, hreport, w.command_claiming]
          match rs with
          | [] =>
            rw [(runFrom_nil _).1, (runFrom_nil _).2, w.command_acknowledging]
            exact ⟨.acknowledging hr hs, rfl⟩
          | a :: rs =>
            obtain ⟨hsent, hreport⟩ := runFrom_of_waits (progress_acknowledging idle id a) rs
            obtain ⟨hserving, hend⟩ := serving_runFrom hk rs
            rw [hsent, hreport, w.command_acknowledging]
            exact ⟨.stored hr hs hserving, hend⟩
        · obtain ⟨hsent, hreport⟩ := runFrom_of_waits hp rs
          obtain ⟨hserving, hend⟩ := serving_runFrom hk rs
          rw [hsent, hreport, w.command_claiming]
          exact ⟨.refused hr hs hserving, hend⟩
    · obtain ⟨hsent, hreport⟩ := runFrom_of_pauses hp rs
      obtain ⟨hserving, hend⟩ := serving_runFrom hk rs
      rw [hsent, hreport, w.command_reading]
      exact ⟨.idle hr hserving, hend⟩

end Runs

/-! ### Interrupts -/

/-- Where the program is when it has taken the reply to its next command. -/
def Progress.reply : Progress → Server.Reply → Progress
  | .waits a, r | .pauses _ a, r => (a.next r).progress
  | .ends report, _ => .ends report

/-- Where the program is when it has taken some replies. -/
def Progress.after (p : Progress) (rs : List Server.Reply) : Progress := rs.foldl .reply p

/-- Where a program that works on messages can be: at one of its commands, or in a pause before a read. -/
inductive AtWork (w : Worker) (idle : UInt64) : Progress → Prop
  | reading : AtWork w idle (.waits (.working w idle .reading))
  | storing (id text : String) : AtWork w idle (.waits (.working w idle (.claiming id text)))
  | acknowledging (id : String) : AtWork w idle (.waits (.working w idle (.acknowledging id)))
  | pausing : AtWork w idle (.pauses idle (.working w idle .reading))

namespace AtWork

variable {w : Worker} {idle : UInt64} {p : Progress}

theorem after_reading (hk : w.kind = .document) (r : Server.Reply) :
    AtWork w idle ((Activity.working w idle .reading).next r).progress := by
  rcases progress_reading idle hk r with ⟨id, text, -, hp⟩ | ⟨-, hp⟩
  · rw [hp]; exact .storing id text
  · rw [hp]; exact .pausing

/-- No reply ends the work. -/
theorem reply (hk : w.kind = .document) (r : Server.Reply) (h : AtWork w idle p) :
    AtWork w idle (p.reply r) := by
  cases h with
  | reading => exact after_reading hk r
  | pausing => exact after_reading hk r
  | storing id text =>
    rcases progress_claiming idle id text r with ⟨-, hp⟩ | ⟨-, hp⟩
    · rw [Progress.reply, hp]; exact .acknowledging id
    · rw [Progress.reply, hp]; exact .reading
  | acknowledging id => rw [Progress.reply, progress_acknowledging]; exact .reading

theorem after (hk : w.kind = .document) (h : AtWork w idle p) (rs : List Server.Reply) :
    AtWork w idle (p.after rs) := by
  induction rs generalizing p with
  | nil => exact h
  | cons r rs ih => exact ih (h.reply hk r)

theorem interrupt (h : AtWork w idle p) : p.interrupt.progress = .ends { exit := 0 } := by
  cases h with
  | reading => exact interrupt_working _
  | storing => exact interrupt_working _
  | acknowledging => exact interrupt_working _
  | pausing => rfl

end AtWork

/-! ### Beginning -/

theorem worker_of_ofEnvironment {env : Environment} {p : ProcessSettings}
    (h : ProcessSettings.ofEnvironment env = .ok p) :
    p.exporter = env.text? "OTEL_ENDPOINT" ∧
      ∀ id, Worker.create id p.worker .document = .ok ⟨id, p.worker, .document⟩ := by
  rw [ProcessSettings.ofEnvironment] at h
  cases hs : Settings.ofEnvironment env with
  | error fault => rw [hs] at h; cases h
  | ok s =>
    rw [hs] at h
    cases h
    refine ⟨rfl, fun id => ?_⟩
    rw [Worker.create, Settings.check_of_ofEnvironment hs]
    rfl

/-- With settings that can be used and no endpoint to report to, the program connects to its server and
makes the group first. -/
theorem begin_serve {env : Environment} {id : String} {arguments : List Bytes} {idle : UInt64}
    {p : ProcessSettings} {address : Server.Address}
    (harguments : Arguments.parse arguments = .run (.serve idle))
    (hsettings : ProcessSettings.ofEnvironment env = .ok p)
    (hexporter : env.text? "OTEL_ENDPOINT" = none)
    (haddress : p.worker.storeAddress = .ok address) :
    (begin env id arguments).start =
      .connects address (.grouping p.worker (.serve id idle)) := by
  have hp : p.exporter = none := (worker_of_ofEnvironment hsettings).1.trans hexporter
  rw [begin, harguments]
  simp only [beginAction, hsettings, beginServe, hp, Telemetry.Setup.install, reach, haddress]
  rfl

/-- A reply that turns the making of the group down, other than by saying that it is there. -/
def TurnsDown (r : Server.Reply) : Prop :=
  ∃ refusal, r.refusal? = some refusal ∧ refusal.code ≠ "BUSYGROUP"

variable {s : Settings} {id : String} {idle : UInt64} {r : Server.Reply}

theorem answer_turned_down (h : TurnsDown r) (s : Settings) :
    ∃ reason, Server.answer (.createGroup s.stream s.group) r = .error (.server reason) := by
  obtain ⟨refusal, hr, hcode⟩ := h
  exact ⟨refusal.message, Server.answer_of_refused hr (if_neg hcode)⟩

theorem answer_not_turned_down (h : ¬ TurnsDown r) (s : Settings) :
    Server.answer (.createGroup s.stream s.group) r = .ok () := by
  cases hr : r.refusal? with
  | none => rw [Server.answer_of_accepted hr]; rfl
  | some refusal =>
    have hcode : refusal.code = Server.groupExists :=
      Classical.not_not.mp fun hne => h ⟨refusal, hr, hne⟩
    rw [Server.answer, hr]
    simp only [Server.harmless, if_pos hcode]

theorem grouping_turned_down (h : TurnsDown r) (purpose : Purpose) :
    ∃ f, ((Activity.grouping s purpose).next r).progress = .ends (failed f) := by
  obtain ⟨reason, hanswer⟩ := answer_turned_down h s
  refine ⟨.server reason, ?_⟩
  rw [Activity.next, hanswer]

theorem grouping_done (h : ¬ TurnsDown r) {w : Worker} (hw : Worker.create id s .document = .ok w) :
    ((Activity.grouping s (.serve id idle)).next r).progress =
      .waits (.working w idle .reading) := by
  rw [Activity.next, answer_not_turned_down h s]
  simp only [afterGrouping, beginWork, hw]

/-- The commands of a whole run, heartbeats apart, with the replies that the server gives to them. -/
theorem serve_commands {env : Environment} {id : String} {arguments : List Bytes} {idle : UInt64}
    {p : ProcessSettings} {address : Server.Address}
    (harguments : Arguments.parse arguments = .run (.serve idle))
    (hsettings : ProcessSettings.ofEnvironment env = .ok p)
    (hexporter : env.text? "OTEL_ENDPOINT" = none)
    (haddress : p.worker.storeAddress = .ok address) (r : Server.Reply) (rs : List Server.Reply) :
    let w : Worker := ⟨id, p.worker, .document⟩
    let group := ["XGROUP", "CREATE", p.worker.stream, p.worker.group, "$", "MKSTREAM"].map Utf8.encode
    let whole := run (begin env id arguments) (r :: rs)
    -- the group cannot be made
    (TurnsDown r → whole.sent = [group] ∧ ∃ report, whole.report = some report ∧ report.exit = 1) ∧
    (¬ TurnsDown r →
      -- rounds, and an interrupt when there are no more replies
      (∃ cs, whole.sent = group :: cs ∧ Serving w rs cs) ∧
      (∃ report, whole.report = some report ∧ report.exit = 0) ∧
      -- an interrupt at any other point, a pause before a read among them
      ∃ first, (begin env id arguments).start = .connects address first ∧
        let reached := (Progress.waits first).after (r :: rs)
        ((∃ a, reached = .waits a) ∨ reached = .pauses idle (.working w idle .reading)) ∧
          reached.interrupt.progress = .ends { exit := 0 }) := by
  intro w group whole
  have hbegin : (begin env id arguments).start = _ :=
    begin_serve harguments hsettings hexporter haddress
  have hrun : whole.sent = (runFrom (.grouping p.worker (.serve id idle)) (r :: rs)).sent ∧
      whole.report = (runFrom (.grouping p.worker (.serve id idle)) (r :: rs)).report.map
        (·.complaining (begin env id arguments).complaints) := by
    simp only [whole, run, hbegin, and_self]
  rw [hrun.1, hrun.2]
  refine ⟨fun h => ?_, fun h => ?_⟩
  · obtain ⟨f, hf⟩ := @grouping_turned_down p.worker r h (.serve id idle)
    rw [runFrom]
    simp only [hf]
    exact ⟨rfl, _, rfl, rfl⟩
  · have hnext := @grouping_done p.worker id idle r h w ((worker_of_ofEnvironment hsettings).2 id)
    obtain ⟨hsent, hreport⟩ := runFrom_of_waits hnext rs
    obtain ⟨hserving, hend⟩ := @serving_runFrom w idle rfl rs
    rw [hsent, hreport, hend]
    refine ⟨⟨_, rfl, hserving⟩, ⟨_, rfl, rfl⟩, _, hbegin, ?_⟩
    have hwork : AtWork w idle
        ((Progress.waits (.grouping p.worker (.serve id idle))).after (r :: rs)) := by
      rw [Progress.after, List.foldl_cons, Progress.reply, hnext]
      exact AtWork.reading.after rfl rs
    refine ⟨?_, hwork.interrupt⟩
    generalize (Progress.waits (.grouping p.worker (.serve id idle))).after (r :: rs) = reached at hwork
    cases hwork with
    | pausing => exact .inr rfl
    | _ => exact .inl ⟨_, rfl⟩

/-- One entry of the stream, with a document. -/
def oneMessage : Server.Reply :=
  let text (t : String) : Server.Reply := .bulk (Utf8.encode t)
  .array [.array [text "default", .array [.array [text "5-0", .array [text "msg", text "true"]]]]]

theorem oneMessage_brings (w : Worker) : Brings w oneMessage "5-0" "true" := by
  have hanswer : Server.answer (.read w.readRequest) oneMessage =
      .ok (some [⟨"default", [⟨"5-0", ⟨[("msg", Utf8.encode "true")]⟩⟩]⟩]) := rfl
  exact ⟨_, _, Utf8.encode "true", .bool true, hanswer, rfl, rfl, rfl⟩

/-- A program that is interrupted while it waits for its second message. -/
theorem serve_commands_one_message :
    let env : Environment := ⟨[("REDIS_URL", Utf8.encode "redis://localhost")]⟩
    let whole := run (begin env "a" [Utf8.encode "serve"])
      [.status "OK", oneMessage, .status "OK", .integer 1]
    let reading := ["XREADGROUP", "GROUP", "default_consumer_group", "a", "BLOCK", "1",
      "COUNT", "1", "STREAMS", "default", ">"].map Utf8.encode
    whole.sent =
        [["XGROUP", "CREATE", "default", "default_consumer_group", "$", "MKSTREAM"].map Utf8.encode,
          reading, ["SET", "5-0", "true", "NX", "PX", "3600000"].map Utf8.encode,
          ["XACK", "default", "default_consumer_group", "5-0"].map Utf8.encode, reading] ∧
      ∃ report, whole.report = some report ∧ report.exit = 0 := by
  intro env whole reading
  let p : ProcessSettings :=
    ⟨{ Settings.standard with address := ⟨"redis://localhost"⟩ }, none, "info"⟩
  have harguments : Arguments.parse [Utf8.encode "serve"] = .run (.serve 50) := by decide +kernel
  have hsettings : ProcessSettings.ofEnvironment
      ⟨[("REDIS_URL", Utf8.encode "redis://localhost")]⟩ = .ok p := rfl
  have hexporter : env.text? "OTEL_ENDPOINT" = none := rfl
  obtain ⟨address, hread⟩ : ∃ address, Server.Address.read "redis://localhost" = .ok address :=
    ⟨_, rfl⟩
  have haddress : p.worker.storeAddress = .ok address := by
    rw [Settings.storeAddress, hread]
  have hdown : ¬ TurnsDown (.status "OK") := by
    rintro ⟨refusal, hr, -⟩
    cases hr
  have hmillis : toString (Server.sentMillis p.worker.retention) = "3600000" := by decide +kernel
  have hbrings := oneMessage_brings ⟨"a", p.worker, .document⟩
  obtain ⟨-, hall⟩ := @serve_commands env "a" _ 50 p address harguments hsettings hexporter
    haddress (.status "OK") [oneMessage, .status "OK", .integer 1]
  obtain ⟨⟨cs, hsent, hserving⟩, hreport, -⟩ := hall hdown
  refine ⟨hsent.trans ?_, hreport⟩
  cases hserving with
  | idle h => exact absurd hbrings (h _ _)
  | refused h hs => exact absurd (.status "OK") hs
  | stored h hs hrest =>
    obtain ⟨rfl, rfl⟩ := hbrings.unique h
    cases hrest
    rw [Worker.storeCommand, hmillis]
    rfl

end CommandLine

end StreamWorker
