import StreamWorker.Proofs.CommandLine.Serve
import StreamWorker.Proofs.Json.Integral
import StreamWorker.Proofs.Payload

/-! The way of a document through the program. What is appended is the text of the document, and whoever
is given that text publishes it as the result. The text is read as the same value again, so it does not
matter how often it is passed on. Only integers are kept exactly, so this is said of documents without
other numbers. An argument that begins with a dash is taken for an option, so a negative integer has to
be given behind two dashes. -/

namespace StreamWorker

open Json (Value Integral)

/-! ### Payloads -/

namespace Payload

theorem decode_document_iff {b : Bytes} {v : Value} :
    decode .document b = .ok (.document v) ↔ Value.read b = .ok v := by
  rw [decode, ofJson, Value.read]
  cases Json.document (Json.value Json.maxDepth) b <;> simp

theorem encode_document (v : Value) : (Payload.document v).encode = Utf8.encode v.render := rfl

/-- The bytes that spell a value are read as it, and it is spelled by them. -/
theorem read_encodeChars {l : List Char} {v : Value} (hv : v.Canonical Json.maxDepth) (hl : v.text = l) :
    ∃ v, Value.read (encodeChars l) = .ok v ∧ Utf8.encode v.render = encodeChars l := by
  subst hl
  exact ⟨v, Json.read_render hv, rfl⟩

theorem read_encode_job (j : Json.Job) :
    ∃ v, Value.read (Payload.job j).encode = .ok v ∧ Utf8.encode v.render = (Payload.job j).encode := by
  refine read_encodeChars (v := .object [("name", .string j.name),
    ("weight", .number (.integer j.weight.toNat))]) (.object ?_ ?_) ?_
  · have hweight : j.weight.toNat < 2 ^ 32 := j.weight.toNat_lt
    have hsize : UInt64.size = 2 ^ 64 := rfl
    rintro m hm
    rcases List.mem_cons.mp hm with rfl | hm
    · exact .string _
    · obtain rfl := List.mem_singleton.mp hm
      exact .integer ⟨by omega, by omega⟩
  · have hnames : Utf8.encode "name" < Utf8.encode "weight" := by decide
    exact List.pairwise_pair.mpr hnames
  · have hdigits : Json.integerText (j.weight.toNat : Int) = Nat.toDigits 10 j.weight.toNat := by
      rw [Json.integerText, if_neg (by omega), Int.natAbs_natCast]
    rw [jobText_eq, Value.text, Json.memberTexts_eq, Json.jobMembers]
    simp only [List.map_cons, List.map_nil, Json.memberText, Value.text, Json.Number.text, hdigits]

theorem read_encode_texts (l : List String) :
    ∃ v, Value.read (Payload.texts l).encode = .ok v ∧
      Utf8.encode v.render = (Payload.texts l).encode := by
  refine read_encodeChars (v := .array (l.map .string)) (.array fun v hv => ?_) ?_
  · obtain ⟨s, -, rfl⟩ := List.mem_map.mp hv
    exact .string s
  · rw [Value.text, Json.itemTexts_eq, List.map_map, listText]
    rfl

theorem read_encodeString (s : String) :
    ∃ v, Value.read (encodeString s) = .ok v ∧ Utf8.encode v.render = encodeString s :=
  read_encodeChars (.string s) rfl

end Payload

namespace CommandLine

/-! ### Producing -/

theorem head_encode {p : String} (h : (Utf8.encode p).head? = some Arguments.dash) :
    p.toList.head? = some '-' := by
  rw [Utf8.encode] at h
  cases hp : p.toList with
  | nil => rw [hp] at h; cases h
  | cons c l =>
    obtain ⟨lead, cont, hc, -⟩ := Utf8.sequence_encode c
    rw [hp, List.flatMap_cons, hc] at h
    by_cases hdash : c = '-'
    · rw [hdash]
      rfl
    · exact absurd (Option.some.inj h) (Json.lead_of_plain hc (by decide) hdash)

/-- A word that may be taken for an option begins with a dash. -/
theorem not_option {a : Bytes} (h : a.head? ≠ some Arguments.dash) :
    a ≠ Arguments.word "--" ∧ Arguments.isHelp a = false ∧ Arguments.isOption a = false := by
  cases a with
  | nil => exact ⟨by decide, by decide, by decide⟩
  | cons b l =>
    have hb : b ≠ Arguments.dash := fun he => h (congrArg some he)
    have hdashes : Arguments.word "--" = Arguments.dash :: Arguments.word "-" := by decide
    have hlong : Arguments.word "--help" = Arguments.dash :: Arguments.word "-help" := by decide
    have hshort : Arguments.word "-h" = Arguments.dash :: Arguments.word "h" := by decide
    refine ⟨fun he => ?_, ?_, ?_⟩
    · rw [hdashes] at he
      exact hb (List.cons.inj he).1
    · simp [Arguments.isHelp, hlong, hshort, hb, List.isPrefixOf, beq_eq_false_iff_ne.mpr (Ne.symm hb)]
    · simp [Arguments.isOption, hb]

theorem parse_produce_cons (rest : List Bytes) :
    Arguments.parse (Utf8.encode "produce" :: rest) = Arguments.textArguments .produce true none rest := by
  unfold Arguments.parse
  dsimp only
  have hproduce : Utf8.encode "produce" = Arguments.word "produce" := rfl
  rw [if_neg (by decide), if_pos hproduce]

/-- Behind two dashes every text is taken for what is to be appended. -/
theorem parse_produce_dashes (p : String) :
    Arguments.parse [Utf8.encode "produce", Utf8.encode "--", Utf8.encode p] = .run (.produce p) := by
  have hlast : Arguments.textArguments .produce false none [Utf8.encode p] = .run (.produce p) := by
    unfold Arguments.textArguments
    rw [if_neg (by simp), if_neg (by simp), if_neg (by simp), Utf8.decode?_encode]
    rfl
  rw [parse_produce_cons]
  unfold Arguments.textArguments
  rw [if_pos ⟨rfl, rfl⟩]
  exact hlast

/-- A text that does not begin with a dash needs none. -/
theorem parse_produce {p : String} (h : p.toList.head? ≠ some '-') :
    Arguments.parse [Utf8.encode "produce", Utf8.encode p] = .run (.produce p) := by
  obtain ⟨hdashes, hhelp, hoption⟩ := not_option fun he => h (head_encode he)
  rw [parse_produce_cons]
  unfold Arguments.textArguments
  rw [if_neg fun hd => hdashes hd.2, if_neg (by simp [hhelp]), if_neg (by simp [hoption]),
    Utf8.decode?_encode]
  rfl

theorem begin_produce {env : Environment} {arguments : List Bytes} {settings : ProcessSettings}
    {address : Server.Address} {p : String} {v : Value} (id : String)
    (harguments : Arguments.parse arguments = .run (.produce p))
    (hsettings : ProcessSettings.ofEnvironment env = .ok settings)
    (haddress : settings.worker.storeAddress = .ok address)
    (hv : Value.read (Utf8.encode p) = .ok v) :
    (begin env id arguments).start =
      .connects address (.grouping settings.worker (.append (Utf8.encode v.render))) := by
  rw [begin, harguments]
  simp only [beginAction, hsettings, beginProduce, Payload.decode_document_iff.mpr hv, reach, haddress,
    Payload.encode_document]

/-- Nothing is sent after the entry. -/
theorem runFrom_appending (s : Settings) (payload : Bytes) (rs : List Server.Reply) :
    (runFrom (.appending s payload) rs).sent =
      [Server.command (.append s.stream [(payloadField, payload)])] := by
  cases rs with
  | nil => rfl
  | cons r rs =>
    have hends : ∃ report, ((Activity.appending s payload).next r).progress = .ends report := by
      rw [Activity.next]
      split
      · exact ⟨_, rfl⟩
      · exact ⟨_, rfl⟩
    obtain ⟨report, hends⟩ := hends
    rw [runFrom]
    simp only [hends]

/-- The commands of a program that appends a document, whatever the server replies. -/
theorem produce_commands {env : Environment} {arguments : List Bytes} {settings : ProcessSettings}
    {address : Server.Address} {p : String} {v : Value} (id : String)
    (harguments : Arguments.parse arguments = .run (.produce p))
    (hsettings : ProcessSettings.ofEnvironment env = .ok settings)
    (haddress : settings.worker.storeAddress = .ok address)
    (hv : Value.read (Utf8.encode p) = .ok v) (r : Server.Reply) (rs : List Server.Reply) :
    let s := settings.worker
    let group := ["XGROUP", "CREATE", s.stream, s.group, "$", "MKSTREAM"].map Utf8.encode
    let sent := (run (begin env id arguments) (r :: rs)).sent
    (TurnsDown r → sent = [group]) ∧
      (¬ TurnsDown r → sent = [group, ["XADD", s.stream, "*", "msg", v.render].map Utf8.encode]) := by
  intro s group sent
  have hsent : sent = (runFrom (.grouping s (.append (Utf8.encode v.render))) (r :: rs)).sent := by
    simp only [sent, run, begin_produce id harguments hsettings haddress hv, s]
  rw [hsent]
  refine ⟨fun h => ?_, fun h => ?_⟩
  · obtain ⟨f, hf⟩ := @grouping_turned_down s r h (.append (Utf8.encode v.render))
    rw [runFrom]
    simp only [hf]
    rfl
  · have hnext : ((Activity.grouping s (.append (Utf8.encode v.render))).next r).progress =
        .waits (.appending s (Utf8.encode v.render)) := by
      rw [Activity.next, answer_not_turned_down h s]
      rfl
    obtain ⟨hfirst, -⟩ := runFrom_of_waits hnext rs
    rw [hfirst, runFrom_appending]
    rfl

/-- A document without other numbers than integers has a text of its own, which is read as the same
document. -/
theorem render_of_integral {b : Bytes} {v : Value} (hb : Integral b)
    (hdecode : Payload.decode .document b = .ok (.document v)) :
    v.Canonical Json.maxDepth ∧ Payload.decode .document (Utf8.encode v.render) = .ok (.document v) := by
  have hv : Value.read b = .ok v := Payload.decode_document_iff.mp hdecode
  exact ⟨Json.canonical_of_read hb hv,
    Payload.decode_document_iff.mpr (Json.read_render_of_read hb hv)⟩

/-! ### Passing on -/

/-- A message is followed by the publication of its text. -/
theorem progress_of_brings {w : Worker} (hk : w.kind = .document) {r : Server.Reply} {id text : String}
    (h : Brings w r id text) (idle : UInt64) :
    ((Activity.working w idle .reading).next r).progress =
      .waits (.working w idle (.claiming id text)) := by
  rcases progress_reading idle hk r with ⟨id', text', hr, hp⟩ | ⟨hr, -⟩
  · obtain ⟨rfl, rfl⟩ := h.unique hr
    exact hp
  · exact absurd h (hr id text)

/-- An entry that is appended carries the payload. -/
theorem append_payload (s : Store) (clock : Nat) (stream : String) (payload : Bytes) :
    ∃ id fields, (s.append clock stream [(payloadField, payload)]).2 = .answer id ∧
      ((s.append clock stream [(payloadField, payload)]).1.stream stream).entries =
        (s.stream stream).entries ++ [⟨id, fields⟩] ∧
      fields.get? payloadField = some payload := by
  refine ⟨_, .ofList [(payloadField, payload)], rfl, ?_, ?_⟩
  · simp only [Store.append, Store.stream, Table.getD, Table.get?_insert, if_true]
    rfl
  · rfl

/-- A document without other numbers than integers is passed on unchanged once it was appended. Its text
has the names of every object in the order of their bytes, each with the last of the values that the
document gives it, and is read as the same value. This text is what the program appends for the
document, unless the group cannot be made. Whoever is given it, with whatever entry, takes the same value
out of it and publishes the same text, which a store in memory keeps as the result. Every text can be
given to the program behind two dashes, and without them if it does not begin with one. The documents of
jobs, lists of texts and texts are their own text. -/
theorem echo_fidelity :
    (∀ (b : Bytes) (v : Value), Integral b → Payload.decode .document b = .ok (.document v) →
      let c := v.render
      v.Canonical Json.maxDepth ∧ Payload.decode .document (Utf8.encode c) = .ok (.document v) ∧
      -- what is appended
      (∀ (p : String) (env : Environment) (id : String) (arguments : List Bytes)
        (settings : ProcessSettings) (address : Server.Address) (r : Server.Reply)
        (rs : List Server.Reply), Utf8.encode p = b → Arguments.parse arguments = .run (.produce p) →
        ProcessSettings.ofEnvironment env = .ok settings → settings.worker.storeAddress = .ok address →
        let s := settings.worker
        let group := ["XGROUP", "CREATE", s.stream, s.group, "$", "MKSTREAM"].map Utf8.encode
        let sent := (run (begin env id arguments) (r :: rs)).sent
        (TurnsDown r → sent = [group]) ∧
          (¬ TurnsDown r → sent = [group, ["XADD", s.stream, "*", "msg", c].map Utf8.encode])) ∧
      -- what is published
      ∀ (w : Worker) (stream id : String) (fields : Table String Bytes), w.kind = .document →
        fields.get? payloadField = some (Utf8.encode c) →
        let reply := some [⟨stream, [⟨id, fields⟩]⟩]
        (w.react .reading (.ok reply)).next = .inr (.ok (.message id (.document v))) ∧
        (∀ (idle : UInt64) (r : Server.Reply), Server.answer (.read w.readRequest) r = .ok reply →
          ((Activity.working w idle .reading).next r).progress =
            .waits (.working w idle (.claiming id c))) ∧
        (∃ millis, Server.command (w.operation (.claiming id c)) =
          ["SET", id, c, "NX", "PX", millis].map Utf8.encode) ∧
        ∀ (s : Store) (now clock : Nat),
          (s.perform now clock (w.operation (.claiming id c))).2 = .answer true →
          (s.perform now clock (w.operation (.claiming id c))).1.keys.records.get? id =
            some ⟨c, w.settings.retention, now⟩) ∧
    -- a name that is given several values
    (∀ (depth : Nat) (s rest : Bytes) (ms : List (String × Value)),
      Json.members (Json.bindMember (Json.value depth)) s.length.succ true [] s = .ok (ms, rest) →
      ∃ kept, Json.members (Json.keepMember (Json.value depth)) s.length.succ true [] s =
          .ok (kept, rest) ∧
        ∀ name, ms.lookup name = kept.reverse.lookup name) ∧
    (∀ p : String,
      Arguments.parse [Utf8.encode "produce", Utf8.encode "--", Utf8.encode p] = .run (.produce p) ∧
      (p.toList.head? ≠ some '-' →
        Arguments.parse [Utf8.encode "produce", Utf8.encode p] = .run (.produce p))) ∧
    (∀ (s : Store) (clock : Nat) (stream : String) (payload : Bytes), ∃ id fields,
      (s.append clock stream [(payloadField, payload)]).2 = .answer id ∧
      ((s.append clock stream [(payloadField, payload)]).1.stream stream).entries =
        (s.stream stream).entries ++ [⟨id, fields⟩] ∧
      fields.get? payloadField = some payload) ∧
    (∀ j : Json.Job, ∃ v, Payload.decode .document (Payload.job j).encode = .ok (.document v) ∧
      (Payload.document v).encode = (Payload.job j).encode) ∧
    (∀ l : List String, ∃ v, Payload.decode .document (Payload.texts l).encode = .ok (.document v) ∧
      (Payload.document v).encode = (Payload.texts l).encode) ∧
    ∀ s : String, ∃ v, Payload.decode .document (Payload.encodeString s) = .ok (.document v) ∧
      (Payload.document v).encode = Payload.encodeString s := by
  have hown {x : Bytes} (h : ∃ v, Value.read x = .ok v ∧ Utf8.encode v.render = x) :
      ∃ v, Payload.decode .document x = .ok (.document v) ∧ (Payload.document v).encode = x := by
    obtain ⟨v, hv, hx⟩ := h
    exact ⟨v, Payload.decode_document_iff.mpr hv, hx⟩
  refine ⟨fun b v hb hdecode => ?_, fun depth s rest ms => Json.members_last,
    fun p => ⟨parse_produce_dashes p, parse_produce⟩, append_payload,
    fun j => hown (Payload.read_encode_job j), fun l => hown (Payload.read_encode_texts l),
    fun s => hown (Payload.read_encodeString s)⟩
  intro c
  have hv : Value.read b = .ok v := Payload.decode_document_iff.mp hdecode
  obtain ⟨hcanonical, hagain⟩ := render_of_integral hb hdecode
  refine ⟨hcanonical, hagain, ?_, ?_⟩
  · rintro p env id arguments settings address r rs rfl harguments hsettings haddress
    exact produce_commands id harguments hsettings haddress hv r rs
  · intro w stream id fields hk hfields reply
    have hclassify : classify (Payload.decode w.kind) reply = .ok (some (id, .document v)) := by
      rw [hk]
      exact classify_message hfields hagain
    refine ⟨?_, fun idle r hr => ?_, ⟨_, rfl⟩, fun s now clock hs => ?_⟩
    · have hnext : (w.react .reading (.ok reply)).next =
          .inr ((classify (Payload.decode w.kind) reply).map Worker.consumed) := rfl
      rw [hnext, hclassify]
      rfl
    · exact progress_of_brings hk ⟨stream, fields, _, v, hr, hfields, hagain, rfl⟩ idle
    · obtain ⟨ho, hl⟩ := Store.claim_true_iff.mp hs
      have hclaim : s.perform now clock (w.operation (.claiming id c)) =
          ({ s with keys := s.keys.put now id c w.settings.retention }, .answer true) :=
        Store.claim_of_absent ho hl
      rw [hclaim]
      exact (Table.get?_insert ..).trans (if_pos rfl)

/-- A document with a blank, and with a name that is bound twice, once with an escape in it. -/
def untidy : String := "\x7b\"b\" :1,\"\\u0062\":-2\x7d"

theorem integral_numeral (i : Int) (rest : Bytes) {s : Bytes}
    (hs : s = Json.bytes (Json.integerText i) ++ rest) (hi : Json.Fits i) (hr : Json.Ends rest)
    (h : Integral rest) : Integral s :=
  hs ▸ .numeral hi hr h

theorem integral_untidy : Integral (Utf8.encode untidy) := by
  -- from the last number back to the first brace
  have hlast : Integral (Utf8.encode "-2\x7d") :=
    integral_numeral (-2) (Utf8.encode "\x7d") (by decide) ⟨by decide, by decide⟩
      (fun b hb => by cases hb; decide) (.other (by decide) (by decide) (by decide) .nil)
  have hsecond : Integral (Utf8.encode "\"\\u0062\":-2\x7d") :=
    @Integral.string _ (Utf8.encode ":-2\x7d") "b" rfl
      (.other (by decide) (by decide) (by decide) hlast)
  have hfirst : Integral (Utf8.encode "1,\"\\u0062\":-2\x7d") :=
    integral_numeral 1 (Utf8.encode ",\"\\u0062\":-2\x7d") (by decide) ⟨by decide, by decide⟩
      (fun b hb => by cases hb; decide) (.other (by decide) (by decide) (by decide) hsecond)
  have hname : Integral (Utf8.encode "\"b\" :1,\"\\u0062\":-2\x7d") :=
    @Integral.string _ (Utf8.encode " :1,\"\\u0062\":-2\x7d") "b" rfl
      (.other (by decide) (by decide) (by decide) (.other (by decide) (by decide) (by decide) hfirst))
  exact .other (by decide) (by decide) (by decide) hname

/-- Tidied up, the document is appended. -/
theorem echo_fidelity_untidy :
    let env : Environment := ⟨[("REDIS_URL", Utf8.encode "redis://localhost")]⟩
    let arguments := [Utf8.encode "produce", Utf8.encode "--", Utf8.encode untidy]
    (run (begin env "a" arguments) [.status "OK", .bulk (Utf8.encode "5-0")]).sent =
      [["XGROUP", "CREATE", "default", "default_consumer_group", "$", "MKSTREAM"].map Utf8.encode,
        ["XADD", "default", "*", "msg", "\x7b\"b\":-2\x7d"].map Utf8.encode] := by
  intro env arguments
  let settings : ProcessSettings :=
    ⟨{ Settings.standard with address := ⟨"redis://localhost"⟩ }, none, "info"⟩
  have hsettings : ProcessSettings.ofEnvironment
      ⟨[("REDIS_URL", Utf8.encode "redis://localhost")]⟩ = .ok settings := rfl
  obtain ⟨address, haddress⟩ : ∃ address, Server.Address.read "redis://localhost" = .ok address :=
    ⟨_, rfl⟩
  have hstore : settings.worker.storeAddress = .ok address := by
    rw [Settings.storeAddress, haddress]
  have hdown : ¬ TurnsDown (.status "OK") := by
    rintro ⟨refusal, hr, -⟩
    cases hr
  have hrender : (Value.read (Utf8.encode untidy)).toOption.map Value.render =
      some "\x7b\"b\":-2\x7d" := by
    decide +kernel
  obtain ⟨v, hv, htext⟩ := Option.map_eq_some_iff.mp hrender
  have hread : Value.read (Utf8.encode untidy) = .ok v := by
    cases h : Value.read (Utf8.encode untidy) with
    | error fault =>
      rw [h] at hv
      cases hv
    | ok v' =>
      rw [h] at hv
      cases hv
      rfl
  obtain ⟨hdocuments, -, harguments, -⟩ := echo_fidelity
  obtain ⟨-, -, happended, -⟩ :=
    hdocuments _ _ integral_untidy (Payload.decode_document_iff.mpr hread)
  rw [← htext]
  exact (happended untidy env "a" arguments settings address (.status "OK")
    [.bulk (Utf8.encode "5-0")] rfl (harguments untidy).1 hsettings hstore).2 hdown

/-- A negative integer is a document, but without the dashes it is taken for an option, and nothing is
sent. -/
theorem produce_negative_refused :
    Integral (Utf8.encode "-5") ∧
      Payload.decode .document (Utf8.encode "-5") = .ok (.document (.number (.integer (-5)))) ∧
      ∀ (env : Environment) (id : String) (replies : List Server.Reply),
        (run (begin env id [Utf8.encode "produce", Utf8.encode "-5"]) replies).sent = [] := by
  refine ⟨?_, rfl, fun env id replies => ?_⟩
  · exact integral_numeral (-5) [] (by decide) ⟨by decide, by decide⟩ (fun b hb => by cases hb) .nil
  · have hmisuse : Arguments.parse [Utf8.encode "produce", Utf8.encode "-5"] = .misuse := by decide
    rw [run, begin, hmisuse]

end CommandLine

end StreamWorker
