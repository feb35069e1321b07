import StreamWorker.Proofs.CommandLine.Echo
import StreamWorker.Proofs.History.Produced

/-! A program that appends a document. It sends nothing unless its payload is one, it appends only when
the group is there, and it shows the id that the server gave to the entry. Since the group is asked for
first, whoever reads it to the end is given the entry, however many programs append at the same time. -/

namespace StreamWorker

open Json (Value Integral)

namespace CommandLine

/-! ### Ends of runs -/

/-- The run ends badly and shows nothing. -/
def Run.Fails (whole : Run) : Prop :=
  ∃ report, whole.report = some report ∧ report.exit = 1 ∧ report.out = ""

/-- The run ends well and shows one line. -/
def Run.Shows (whole : Run) (line : String) : Prop :=
  ∃ report, whole.report = some report ∧ report.exit = 0 ∧ report.out = line ++ "\n"

section Ends

variable {whole : Run} {b : Beginning}

theorem Run.fails_of_report {f : Failure} {complaints : List String}
    (h : whole.report = some ((failed f).complaining complaints)) : whole.Fails :=
  ⟨_, h, rfl, rfl⟩

theorem Run.shows_of_report {line : String} {complaints : List String}
    (h : whole.report = some ((shown line).complaining complaints)) : whole.Shows line :=
  ⟨_, h, rfl, rfl⟩

theorem run_of_done {report : Report} (h : b.start = .done report) (rs : List Server.Reply) :
    (run b rs).sent = [] ∧ (run b rs).report = some (report.complaining b.complaints) := by
  rw [run, h]
  exact ⟨rfl, rfl⟩

theorem run_of_connects {address : Server.Address} {first : Activity}
    (h : b.start = .connects address first) (rs : List Server.Reply) :
    (run b rs).report = (runFrom first rs).report.map (·.complaining b.complaints) := by
  rw [run, h]

theorem runFrom_of_ends {a : Activity} {r : Server.Reply} {report : Report}
    (h : (a.next r).progress = .ends report) (rs : List Server.Reply) :
    (runFrom a (r :: rs)).report = some report := by
  rw [runFrom]
  simp only [h]

end Ends

/-- An addition is answered by the text of the reply, and fails if the reply is none. -/
theorem answer_append (stream : String) (fields : List (String × Bytes)) (r : Server.Reply) :
    (r.Textual ∧ ∃ text, r.text = .ok text ∧ Server.answer (.append stream fields) r = .ok text) ∨
      (¬ r.Textual ∧ ∃ f, Server.answer (.append stream fields) r = .error f) := by
  have hread (h : r.refusal? = none) :
      Server.answer (.append stream fields) r = Server.readAs Server.Reply.text r :=
    Server.answer_of_accepted h
  cases ht : r.text with
  | ok text =>
    have htextual : r.Textual := Server.Reply.textual_iff.mpr ⟨text, ht⟩
    refine .inl ⟨htextual, text, rfl, ?_⟩
    rw [hread htextual.refusal?, Server.readAs, ht]
  | error fault =>
    have hnone : ¬ r.Textual := by
      intro h
      obtain ⟨text, h⟩ := Server.Reply.textual_iff.mp h
      cases ht.symm.trans h
    refine .inr ⟨hnone, ?_⟩
    cases hr : r.refusal? with
    | some refusal => exact ⟨_, Server.answer_of_refused hr rfl⟩
    | none =>
      refine ⟨.server fault.message, ?_⟩
      rw [hread hr, Server.readAs, ht]

/-! ### Producing -/

section Producing

variable {env : Environment} {arguments : List Bytes} {settings : ProcessSettings}
variable {address : Server.Address} {p : String} (id : String)

/-- Nothing is sent for a payload that is no document. -/
theorem produce_undecodable (harguments : Arguments.parse arguments = .run (.produce p))
    (hsettings : ProcessSettings.ofEnvironment env = .ok settings)
    (hp : ¬ ∃ v, Payload.decode .document (Utf8.encode p) = .ok (.document v))
    (replies : List Server.Reply) :
    let whole := run (begin env id arguments) replies
    whole.sent = [] ∧ whole.Fails := by
  intro whole
  cases hdecode : Payload.decode .document (Utf8.encode p) with
  | ok payload =>
    obtain ⟨v, rfl⟩ := Payload.decode_document hdecode
    exact absurd ⟨v, hdecode⟩ hp
  | error reason =>
    have hstart : (begin env id arguments).start = .done (failed (.other reason)) := by
      rw [begin, harguments]
      simp only [beginAction, hsettings, beginProduce, hdecode]
    obtain ⟨hsent, hreport⟩ := run_of_done hstart replies
    exact ⟨hsent, Run.fails_of_report hreport⟩

/-- How a program ends that appends a document, with the server's replies to its two commands. -/
theorem produce_ends (harguments : Arguments.parse arguments = .run (.produce p))
    (hsettings : ProcessSettings.ofEnvironment env = .ok settings)
    (haddress : settings.worker.storeAddress = .ok address) {v : Value}
    (hv : Value.read (Utf8.encode p) = .ok v) (r₁ r₂ : Server.Reply) (rs : List Server.Reply) :
    let whole := run (begin env id arguments) (r₁ :: r₂ :: rs)
    (TurnsDown r₁ → whole.Fails) ∧
      (¬ TurnsDown r₁ →
        (∀ text, r₂.text = .ok text → whole.Shows text) ∧ (¬ r₂.Textual → whole.Fails)) := by
  intro whole
  have hreport := run_of_connects (begin_produce id harguments hsettings haddress hv) (r₁ :: r₂ :: rs)
  refine ⟨fun h => ?_, fun h => ?_⟩
  · obtain ⟨f, hf⟩ := @grouping_turned_down settings.worker r₁ h (.append (Utf8.encode v.render))
    rw [runFrom_of_ends hf] at hreport
    exact Run.fails_of_report hreport
  · have hnext : ((Activity.grouping settings.worker (.append (Utf8.encode v.render))).next r₁).progress =
        .waits (.appending settings.worker (Utf8.encode v.render)) := by
      rw [Activity.next, answer_not_turned_down h settings.worker]
      rfl
    rw [(runFrom_of_waits hnext _).2] at hreport
    have happend := answer_append settings.worker.stream [(payloadField, Utf8.encode v.render)] r₂
    rcases happend with ⟨ht, text, htext, hanswer⟩ | ⟨ht, f, hanswer⟩
    · have hends : ((Activity.appending settings.worker (Utf8.encode v.render)).next r₂).progress =
          .ends (shown text) := by
        rw [Activity.next, hanswer]
      rw [runFrom_of_ends hends] at hreport
      refine ⟨fun text' h' => ?_, fun hn => absurd ht hn⟩
      obtain rfl : text = text' := Except.ok.inj (htext.symm.trans h')
      exact Run.shows_of_report hreport
    · have hends : ((Activity.appending settings.worker (Utf8.encode v.render)).next r₂).progress =
          .ends (failed f) := by
        rw [Activity.next, hanswer]
      rw [runFrom_of_ends hends] at hreport
      exact ⟨fun text h' => absurd (Server.Reply.textual_iff.mpr ⟨text, h'⟩) ht,
        fun _ => Run.fails_of_report hreport⟩

end Producing

/-- A program asked to append a payload that is no document sends nothing and fails. Otherwise it asks
for the group first, and appends the document's own text, once, unless the server turns the group down
for another reason than that it is there. It shows the id if the reply to the addition is a text, and
fails in all other cases. In a store in memory, whatever happens, an entry that is added after its group
was asked for keeps its place and is never passed over: the group gets past it only by giving it out, in
one answer. It was given out when the store answers a read of the group by nothing. Reads that are
repeated come to this answer, unless they break off because the entries of the stream and their count add
up to `2 ^ 64` or more. -/
theorem produced_not_passed_over {env : Environment} {arguments : List Bytes}
    {settings : ProcessSettings} {address : Server.Address} {p : String} (id : String)
    (harguments : Arguments.parse arguments = .run (.produce p))
    (hsettings : ProcessSettings.ofEnvironment env = .ok settings)
    (haddress : settings.worker.storeAddress = .ok address) (clock : Clock) (es : List Event)
    (stream group : String) :
    let s := settings.worker
    let grouping := ["XGROUP", "CREATE", s.stream, s.group, "$", "MKSTREAM"].map Utf8.encode
    let h := (History.start clock).run es
    ((¬ ∃ v, Payload.decode .document (Utf8.encode p) = .ok (.document v)) →
      ∀ replies : List Server.Reply,
        let whole := run (begin env id arguments) replies
        whole.sent = [] ∧ whole.Fails) ∧
    (∀ v, Payload.decode .document (Utf8.encode p) = .ok (.document v) →
      -- the text of a document with no other numbers than integers is that document's own
      (Integral (Utf8.encode p) → v.Canonical Json.maxDepth ∧
        Payload.decode .document (Utf8.encode v.render) = .ok (.document v)) ∧
      ∀ (r₁ r₂ : Server.Reply) (rs : List Server.Reply),
        let whole := run (begin env id arguments) (r₁ :: r₂ :: rs)
        (TurnsDown r₁ → whole.sent = [grouping] ∧ whole.Fails) ∧
        (¬ TurnsDown r₁ →
          whole.sent = [grouping, ["XADD", s.stream, "*", "msg", v.render].map Utf8.encode] ∧
          (∀ text, r₂.text = .ok text → whole.Shows text) ∧ (¬ r₂.Textual → whole.Fails))) ∧
    (∀ text : String, Arguments.parse [Utf8.encode "produce", Utf8.encode "--", Utf8.encode text] =
      .run (.produce text)) ∧
    -- what is added after the group was asked for
    (∀ (l₁ : List Occurrence) (o : Occurrence) (l₂ : List Occurrence) (entry : String)
      (fields : List (String × Bytes)), h.log = l₁ ++ o :: l₂ →
      (∃ q ∈ l₁, q.op = .createGroup stream group) →
      o.CameTo (.append stream fields) (.answer entry) →
      h.Keeps stream group l₁ o l₂ ⟨entry, .ofList fields⟩) ∧
    -- answers that do not come from the stream
    (es.filterMap Event.scripted? = [] → ∀ q ∈ h.log, q.recited = none) ∧
    -- reading on
    ∀ (g : Group) (r : ReadRequest), r.stream = stream → r.group = group →
      (h.world.store.stream stream).groups.get? group = some g → h.world.store.Open .read →
      h.world.store.scripted = [] →
      ∃ n ≤ (h.entries stream).length - g.next,
        let last := ((h.run (List.replicate n (.operation (.read r)))).world.store.read r).2
        last = .answer none ∨ last = .broken .beyondCount ∧
          UInt64.size ≤ (h.entries stream).length + max r.count.toNat 1 := by
  intro s grouping h
  have hc := History.chronicle clock es
  refine ⟨produce_undecodable id harguments hsettings,
    fun v hdecode => ⟨fun hp => render_of_integral hp hdecode, fun r₁ r₂ rs => ?_⟩,
    parse_produce_dashes, fun l₁ o l₂ entry fields hl hasked ho => History.keeps hc hl hasked ho,
    fun hes q hq => ?_, ?_⟩
  · have hv := Payload.decode_document_iff.mp hdecode
    obtain ⟨hdown, hsent⟩ := produce_commands id harguments hsettings haddress hv r₁ (r₂ :: rs)
    obtain ⟨hfails, hends⟩ := produce_ends id harguments hsettings haddress hv r₁ r₂ rs
    exact ⟨fun hr => ⟨hdown hr, hfails hr⟩, fun hr => ⟨hsent hr, hends hr⟩⟩
  · have hrecited := (History.scripted_run clock es).symm.trans hes
    have hnone := (List.append_eq_nil_iff.mp hrecited).1
    exact List.filterMap_eq_nil_iff.mp hnone q hq
  · rintro g r rfl rfl hg ho hs
    exact History.reads_drain h ho hs hg (hc.next_le hg)

/-- A read of the standard group by a member. -/
def memberRead (count : UInt64) : ReadRequest :=
  ⟨"default", "default_consumer_group", "m", count, readBlock⟩

/-- Two programs add an entry each, and then the group is read. -/
def relay (counts : List UInt64) : List Event :=
  [.operation (.createGroup "default" "default_consumer_group"),
    .operation (.append "default" [(payloadField, [49])]),
    .operation (.createGroup "default" "default_consumer_group"),
    .operation (.append "default" [(payloadField, [50])])] ++
    counts.map fun count => .operation (.read (memberRead count))

/-- The entry of the second program. -/
def secondEntry : Entry := ⟨"1700000000000-1", .ofList [(payloadField, [50])]⟩

/-- The third of three reads is answered by nothing, so the second one has given the second entry. -/
theorem produced_not_passed_over_relay :
    let env : Environment := ⟨[("REDIS_URL", Utf8.encode "redis://localhost")]⟩
    let arguments := [Utf8.encode "produce", Utf8.encode "--", Utf8.encode "1"]
    let whole := run (begin env "a" arguments) [.status "OK", .bulk (Utf8.encode "5-0")]
    let h := (History.start ⟨1700000000000, 0⟩).run (relay [1, 1, 1])
    whole.sent =
        [["XGROUP", "CREATE", "default", "default_consumer_group", "$", "MKSTREAM"].map Utf8.encode,
          ["XADD", "default", "*", "msg", "1"].map Utf8.encode] ∧
      whole.Shows "5-0" ∧
      secondEntry ∈ Log.given (h.log.take 6) "default" "default_consumer_group" := by
  intro env arguments whole h
  let settings : ProcessSettings :=
    ⟨{ Settings.standard with address := ⟨"redis://localhost"⟩ }, none, "info"⟩
  have hsettings : ProcessSettings.ofEnvironment
      ⟨[("REDIS_URL", Utf8.encode "redis://localhost")]⟩ = .ok settings := rfl
  obtain ⟨address, hread⟩ : ∃ address, Server.Address.read "redis://localhost" = .ok address :=
    ⟨_, rfl⟩
  have haddress : settings.worker.storeAddress = .ok address := by
    rw [Settings.storeAddress, hread]
  have hdown : ¬ TurnsDown (.status "OK") := by
    rintro ⟨refusal, hr, -⟩
    cases hr
  obtain ⟨-, hdocument, -, hkeeps, hrecited, -⟩ :=
    produced_not_passed_over "a" (parse_produce_dashes "1") hsettings haddress ⟨1700000000000, 0⟩
      (relay [1, 1, 1]) "default" "default_consumer_group"
  obtain ⟨-, hdone⟩ := (hdocument (.number (.integer 1)) rfl).2 (.status "OK")
    (.bulk (Utf8.encode "5-0")) []
  obtain ⟨hsent, hshows, -⟩ := hdone hdown
  have htext : (Server.Reply.bulk (Utf8.encode "5-0")).text = .ok "5-0" := by
    rw [Server.Reply.text, Server.Reply.textOr, Utf8.decode?_encode]
  refine ⟨hsent, hshows _ htext, ?_⟩
  have hkept := hkeeps [_, _, _] _ [_, _, _] "1700000000000-1" [(payloadField, [50])] rfl
    ⟨_, List.mem_cons_self, rfl⟩ ⟨rfl, by decide +kernel⟩
  exact hkept.drained [_, _] _ [] (memberRead 1) rfl rfl rfl ⟨rfl, by decide +kernel⟩
    (hrecited rfl _ (List.mem_of_getElem? (i := 6) rfl))

end CommandLine

end StreamWorker
