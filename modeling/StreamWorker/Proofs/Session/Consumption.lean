import StreamWorker.Proofs.Session.Outcome
import StreamWorker.Proofs.Text.Quoted

/-! What a worker makes of the answer to its read. The shape of the answer decides: nothing, anything but
one entry of one stream, one entry without a payload, one whose payload does not decode, and one message.
No two of these come out alike, and none depends on how payloads are decoded except through whether this
one is. What is said of streams that were not expected tells which they were. -/

namespace StreamWorker

variable {α ρ : Type} {decode : Bytes → Except String α} {reply : Option (List Batch)}

/-! ### Answers by their shape -/

/-- A list of batches that is not one entry of one stream, and what is said about it: if there is not one
stream, how many there are and their names, in order and each in quotes, and otherwise the name of the one
and how many entries it has. -/
inductive Unexpected : List Batch → String → Prop where
  | streams {l : List Batch} : l.length ≠ 1 →
    Unexpected l (toString l.length ++ " streams returned: [" ++
      ", ".intercalate (l.map fun b => Text.quoted b.stream) ++ "]")
  | entries {b : Batch} : b.entries.length ≠ 1 →
    Unexpected [b] ("stream " ++ b.stream ++ " returned " ++ toString b.entries.length ++ " entries")

/-- What an answer means, case by case. -/
inductive Classified (decode : Bytes → Except String α) :
    Option (List Batch) → Except Failure (Option (String × α)) → Prop where
  | nothing : Classified decode none (.ok none)
  | unexpected {l : List Batch} {reason : String} : Unexpected l reason →
    Classified decode (some l) (.error (.unexpectedReply reason))
  | missing {stream : String} {e : Entry} : e.fields.get? payloadField = none →
    Classified decode (some [⟨stream, [e]⟩]) (.error (.missingPayload e.id))
  | undecodable {stream : String} {e : Entry} {bytes : Bytes} {reason : String} :
    e.fields.get? payloadField = some bytes → decode bytes = .error reason →
    Classified decode (some [⟨stream, [e]⟩]) (.error (.undecodable e.id (.other reason)))
  | message {stream : String} {e : Entry} {bytes : Bytes} {v : α} :
    e.fields.get? payloadField = some bytes → decode bytes = .ok v →
    Classified decode (some [⟨stream, [e]⟩]) (.ok (some (e.id, v)))

/-- What is said begins with the number of the streams, which is followed by the list of their names. -/
theorem toList_streams (l : List Batch) :
    (toString l.length ++ " streams returned: [" ++
      ", ".intercalate (l.map fun b => Text.quoted b.stream) ++ "]").toList =
    Nat.toDigits 10 l.length ++
      ' ' :: ("streams returned: ".toList ++ (Text.quotedList (l.map (·.stream))).toList) := by
  have hnames : (l.map (·.stream)).map Text.quoted = l.map fun b => Text.quoted b.stream :=
    List.map_map
  rw [Text.quotedList, hnames]
  simp

theorem toList_entries (b : Batch) :
    ("stream " ++ b.stream ++ " returned " ++ toString b.entries.length ++ " entries").toList =
    "stream".toList ++ ' ' :: ((b.stream.toList ++ " returned".toList ++
      ' ' :: Nat.toDigits 10 b.entries.length) ++ " entries".toList) := by
  simp

theorem blank_notMem_digits (n : Nat) : ' ' ∉ Nat.toDigits 10 n :=
  Text.notMem_toDigits (by decide) (by decide) n

theorem blank_notMem_word : ' ' ∉ "stream".toList := by decide

/-- What is said of one stream begins with a word and not with a number. -/
theorem streams_ne_entries (l : List Batch) (b : Batch) :
    toString l.length ++ " streams returned: [" ++
      ", ".intercalate (l.map fun b => Text.quoted b.stream) ++ "]" ≠
    "stream " ++ b.stream ++ " returned " ++ toString b.entries.length ++ " entries" := by
  intro h
  have hl := congrArg String.toList h
  rw [toList_streams, toList_entries] at hl
  obtain ⟨hnumber, -⟩ := Text.append_cons_inj (blank_notMem_digits _) blank_notMem_word hl
  have hletter : 's' ∉ Nat.toDigits 10 l.length := Text.notMem_toDigits (by decide) (by decide) _
  rw [hnumber] at hletter
  exact hletter (by decide)

/-- Of two lists of which the same is said, the streams have the same names, in order. If there is one
stream, they have as many entries. -/
theorem Unexpected.tells {l l' : List Batch} {reason : String} (h : Unexpected l reason)
    (h' : Unexpected l' reason) : l.map (·.stream) = l'.map (·.stream) ∧
      (l.length = 1 → l.map (·.entries.length) = l'.map (·.entries.length)) := by
  generalize hr : reason = said at h'
  cases h with
  | streams hn =>
    cases h' with
    | streams hn' =>
      have hl := congrArg String.toList hr
      rw [toList_streams, toList_streams] at hl
      obtain ⟨-, hrest⟩ :=
        Text.append_cons_inj (blank_notMem_digits _) (blank_notMem_digits _) hl
      have hlist := String.toList_inj.mp (List.append_cancel_left hrest)
      exact ⟨Text.quotedList_inj hlist, fun h => absurd h hn⟩
    | entries => exact absurd hr (streams_ne_entries _ _)
  | entries =>
    cases h' with
    | streams => exact absurd hr.symm (streams_ne_entries _ _)
    | entries =>
      have hl := congrArg String.toList hr
      rw [toList_entries, toList_entries] at hl
      obtain ⟨-, hrest⟩ := Text.append_cons_inj blank_notMem_word blank_notMem_word hl
      obtain ⟨hname, hcount⟩ := Text.append_cons_inj' (blank_notMem_digits _) (blank_notMem_digits _)
        (List.append_cancel_right hrest)
      have hstream := String.toList_inj.mp (List.append_cancel_right hname)
      exact ⟨congrArg ([·]) hstream,
        fun _ => congrArg ([·]) (Text.toDigits_inj (by decide) (by decide) hcount)⟩

theorem singleEntry_of_unexpected {l : List Batch} {reason : String} (h : Unexpected l reason) :
    singleEntry l = .error (.unexpectedReply reason) := by
  unfold singleEntry
  cases h with
  | streams hl =>
    split
    · exact absurd rfl hl
    · exact absurd rfl hl
    · have htext : s!"{l.length} streams returned: {Text.quotedList (l.map (·.stream))}" =
          toString l.length ++ " streams returned: [" ++
            ", ".intercalate (l.map fun b => Text.quoted b.stream) ++ "]" := by
        refine String.toList_inj.mp ?_
        rw [toList_streams]
        simp [ToString.toString]
      rw [htext]
  | entries hb =>
    split
    · next heq =>
      cases heq
      exact absurd rfl hb
    · next heq =>
      cases heq
      rfl
    · next h => exact absurd rfl (h _ _)

theorem unexpected_or_single (l : List Batch) :
    (∃ reason, Unexpected l reason) ∨ ∃ stream e, l = [⟨stream, [e]⟩] := by
  match l with
  | [] => exact .inl ⟨_, .streams (by simp)⟩
  | [⟨stream, []⟩] => exact .inl ⟨_, .entries (by simp)⟩
  | [⟨stream, [e]⟩] => exact .inr ⟨stream, e, rfl⟩
  | [⟨stream, _ :: _ :: _⟩] => exact .inl ⟨_, .entries (by simp)⟩
  | _ :: _ :: _ => exact .inl ⟨_, .streams (by simp)⟩

theorem Classified.eq {result : Except Failure (Option (String × α))}
    (h : Classified decode reply result) : classify decode reply = result := by
  cases h with
  | nothing => rfl
  | unexpected h => simp only [classify, singleEntry_of_unexpected h, bind, Except.bind]
  | missing h => simp only [classify, singleEntry, Entry.payload, h, bind, Except.bind]
  | undecodable h hd => simp only [classify, singleEntry, Entry.payload, h, hd, bind, Except.bind]
  | message h hd => exact classify_message h hd

theorem exists_classified (decode : Bytes → Except String α) (reply : Option (List Batch)) :
    ∃ result, Classified decode reply result := by
  cases reply with
  | none => exact ⟨_, .nothing⟩
  | some l =>
    rcases unexpected_or_single l with ⟨reason, h⟩ | ⟨stream, e, rfl⟩
    · exact ⟨_, .unexpected h⟩
    · cases hp : e.fields.get? payloadField with
      | none => exact ⟨_, .missing hp⟩
      | some bytes =>
        cases hd : decode bytes with
        | error reason => exact ⟨_, .undecodable hp hd⟩
        | ok v => exact ⟨_, .message hp hd⟩

theorem classify_eq_iff {result : Except Failure (Option (String × α))} :
    classify decode reply = result ↔ Classified decode reply result := by
  refine ⟨?_, Classified.eq⟩
  rintro rfl
  obtain ⟨result, h⟩ := exists_classified decode reply
  rw [h.eq]
  exact h

/-! ### Results by what they tell -/

/-- A result tells what the answer was. There is no message exactly if there was no answer, each failure
stands for one shape of answer, and a message is the one entry with the value that its payload decodes
to. -/
structure Tells (decode : Bytes → Except String α) (reply : Option (List Batch)) (nothing : ρ)
    (message : String → α → ρ) (result : Except Failure ρ) : Prop where
  nothing_iff : result = .ok nothing ↔ reply = none
  unexpected_iff (reason : String) : result = .error (.unexpectedReply reason) ↔
    ∃ l, reply = some l ∧ Unexpected l reason
  missing_iff (id : String) : result = .error (.missingPayload id) ↔
    ∃ stream e, reply = some [⟨stream, [e]⟩] ∧ e.id = id ∧ e.fields.get? "msg" = none
  undecodable_iff (id : String) (cause : Failure) : result = .error (.undecodable id cause) ↔
    ∃ stream e bytes reason, reply = some [⟨stream, [e]⟩] ∧ e.id = id ∧
      e.fields.get? "msg" = some bytes ∧ decode bytes = .error reason ∧ cause = .other reason
  message_iff (id : String) (v : α) : result = .ok (message id v) ↔
    ∃ stream e bytes, reply = some [⟨stream, [e]⟩] ∧ e.id = id ∧
      e.fields.get? "msg" = some bytes ∧ decode bytes = .ok v
  /-- Nothing else comes out. -/
  exhaustive : result = .ok nothing ∨ (∃ reason, result = .error (.unexpectedReply reason)) ∨
    (∃ id, result = .error (.missingPayload id)) ∨ (∃ id cause, result = .error (.undecodable id cause)) ∨
    ∃ id v, result = .ok (message id v)

/-- What an answer means tells what it was, in whatever form it is handed on that loses nothing. -/
theorem tells_classify {g : Option (String × α) → ρ} (hg : g.Injective)
    (decode : Bytes → Except String α) (reply : Option (List Batch)) :
    Tells decode reply (g none) (fun id v => g (some (id, v))) ((classify decode reply).map g) := by
  have hok (o : Option (String × α)) :
      (classify decode reply).map g = .ok (g o) ↔ Classified decode reply (.ok o) := by
    rw [← classify_eq_iff]
    cases classify decode reply <;> simp [Except.map, hg.eq_iff]
  have herror (f : Failure) :
      (classify decode reply).map g = .error f ↔ Classified decode reply (.error f) := by
    rw [← classify_eq_iff]
    cases classify decode reply <;> simp [Except.map]
  refine ⟨?_, fun reason => ?_, fun id => ?_, fun id cause => ?_, fun id v => ?_, ?_⟩
  · rw [hok]
    constructor
    · intro h
      cases h
      rfl
    · rintro rfl
      exact .nothing
  · rw [herror]
    constructor
    · intro h
      cases h with
      | unexpected h => exact ⟨_, rfl, h⟩
    · rintro ⟨l, rfl, h⟩
      exact .unexpected h
  · rw [herror]
    constructor
    · intro h
      cases h with
      | missing h => exact ⟨_, _, rfl, rfl, h⟩
    · rintro ⟨stream, e, rfl, rfl, h⟩
      exact .missing h
  · rw [herror]
    constructor
    · intro h
      cases h with
      | undecodable h hd => exact ⟨_, _, _, _, rfl, rfl, h, hd, rfl⟩
    · rintro ⟨stream, e, bytes, reason, rfl, rfl, h, hd, rfl⟩
      exact .undecodable h hd
  · rw [hok]
    constructor
    · intro h
      cases h with
      | message h hd => exact ⟨_, _, _, rfl, rfl, h, hd⟩
    · rintro ⟨stream, e, bytes, rfl, rfl, h, hd⟩
      exact .message h hd
  · obtain ⟨result, h⟩ := exists_classified decode reply
    rw [h.eq]
    cases h with
    | nothing => exact .inl rfl
    | unexpected => exact .inr (.inl ⟨_, rfl⟩)
    | missing => exact .inr (.inr (.inl ⟨_, rfl⟩))
    | undecodable => exact .inr (.inr (.inr (.inl ⟨_, _, rfl⟩)))
    | message => exact .inr (.inr (.inr (.inr ⟨_, _, rfl⟩)))

theorem Worker.consumed_injective : Worker.consumed.Injective := by
  intro o o' h
  match o, o', h with
  | none, none, _ => rfl
  | none, some _, h => cases h
  | some _, none, h => cases h
  | some (id, p), some (id', p'), h =>
    cases h
    rfl

/-! ### Calls -/

theorem Failure.within_of_ne {f : Failure} (h : f ≠ .cancelled) (wrap : Failure → Failure) :
    f.within wrap = wrap f := by
  cases f with
  | cancelled => exact absurd rfl h
  | _ => rfl

/-- How a call that takes a message comes out, by what its read comes to. -/
def World.received (worker : Worker) (token : String) :
    Response (Option (List Batch)) → Flight ⊕ Ending Success
  | .answer reply =>
    .inr (.finished ((classify (Payload.decode worker.kind) reply).map Worker.consumed))
  | .failure f => .inr (.finished (.error (f.within (.read worker.id))))
  | .stalled => .inl ⟨worker, token, .reading⟩
  | .broken b => .inr (.broken b)

namespace World

variable {w : World} {worker : Worker} {token : String}

/-- A call that takes a message is decided by its one read, which alone touches the store. -/
theorem begin_of_read (hx : ¬ w.isCancelled token = true) :
    (w.begin worker token .consume).2 =
        received worker token (w.store.read worker.readRequest).2 ∧
      (w.begin worker token .consume).1.store = (w.store.read worker.readRequest).1 := by
  have hx' : ¬ w.isCancelled (Flight.mk worker token .reading).token = true := hx
  have hbegin : w.begin worker token .consume = runFlight 2 ⟨worker, token, .reading⟩ w := rfl
  have hstore : (w.stepFlight ⟨worker, token, .reading⟩).1.store =
      (w.store.read worker.readRequest).1 := stepFlight_store hx'
  have hcourse := ofStep_stepFlight hx'
  rw [hbegin, runFlight_succ, hcourse, ← hstore]
  have hperform : w.store.perform w.now w.clock (worker.operation .reading) =
      w.store.read worker.readRequest := rfl
  rw [hperform]
  cases (w.store.read worker.readRequest).2 with
  | answer reply => exact ⟨rfl, rfl⟩
  | failure f => exact ⟨rfl, rfl⟩
  | stalled => exact ⟨rfl, rfl⟩
  | broken b => exact ⟨rfl, rfl⟩

end World

/-- A worker tells every answer to its read for what it is. For any reader of payloads, the result that
the answer is sorted into tells what the answer was; over any store a call that takes a message ends
with that result as soon as its read is answered, and with the read's failure if it fails. Over a store
in memory, which can be made to give any answer, the read is all that happens to the store, whatever
payloads the worker is made for. What is said of unexpected streams tells their names, in order, or the
name of the one and how many entries it has; a name of plain characters stands between its quotes as it
is. -/
theorem consume_tells :
    (∀ {α : Type} (decode : Bytes → Except String α) (reply : Option (List Batch)),
      Tells decode reply none (fun id v => some (id, v)) (classify decode reply)) ∧
    -- what is said of unexpected streams
    (∀ (l l' : List Batch) (reason : String), Unexpected l reason → Unexpected l' reason →
      l.map (·.stream) = l'.map (·.stream) ∧
        (l.length = 1 → l.map (·.entries.length) = l'.map (·.entries.length))) ∧
    (∀ name : String, (∀ c ∈ name.toList, Text.Plain c) → Text.quoted name = "\"" ++ name ++ "\"") ∧
    -- over any store
    (∀ (worker : Worker) (reply : Option (List Batch)), ∃ result,
      (worker.react .reading (.ok reply)).next = .inr result ∧
      Tells (Payload.decode worker.kind) reply .empty .message result) ∧
    (∀ (worker : Worker) (f : Failure), f ≠ .cancelled →
      (worker.react .reading (.error f)).next = .inr (.error (.read worker.id f))) ∧
    (∀ (request : ReadRequest) (r : Server.Reply) (f : Failure),
      Server.answer (.read request) r = .error f → f ≠ .cancelled) ∧
    -- over a store in memory
    (∀ (w : World) (worker : Worker) (token : String), ¬ w.isCancelled token = true →
      (∀ reply, (w.store.read worker.readRequest).2 = .answer reply → ∃ result,
        (w.begin worker token .consume).2 = .inr (.finished result) ∧
        Tells (Payload.decode worker.kind) reply .empty .message result) ∧
      (∀ f, (w.store.read worker.readRequest).2 = .failure f →
        (w.begin worker token .consume).2 = .inr (.finished (.error (.read worker.id f)))) ∧
      ∀ kind, (w.begin { worker with kind } token .consume).1.store =
        (w.store.read worker.readRequest).1) ∧
    ∀ (s : Store) (request : ReadRequest) (reply : Option (List Batch)) (rest : List (Option (List Batch))),
      s.Open .read → s.scripted = reply :: rest → (s.read request).2 = .answer reply := by
  have hcall (worker : Worker) (reply : Option (List Batch)) :
      Tells (Payload.decode worker.kind) reply .empty .message
        ((classify (Payload.decode worker.kind) reply).map Worker.consumed) :=
    tells_classify Worker.consumed_injective (Payload.decode worker.kind) reply
  refine ⟨fun decode reply => ?_, fun l l' reason => Unexpected.tells, fun name => Text.quoted_of_plain,
    fun worker reply => ⟨_, rfl, hcall worker reply⟩, fun worker f hf => ?_, fun request r f h => ?_,
    fun w worker token hx => ⟨fun reply hr => ?_, fun f hr => ?_, fun kind => ?_⟩,
    fun s request reply rest ho hs => ?_⟩
  · have h := tells_classify Function.injective_id decode reply
    rw [Except.map_id] at h
    exact h
  · rw [Worker.react, Worker.finishRead, Failure.within_of_ne hf]
    rfl
  · rintro rfl
    cases Server.answer_read_error h
  · refine ⟨_, ?_, hcall worker reply⟩
    rw [(World.begin_of_read hx).1, hr, World.received]
  · obtain ⟨reason, rfl⟩ := @Store.perform_failure w.store w.now w.clock (.read worker.readRequest) f hr
    rw [(World.begin_of_read hx).1, hr]
    rfl
  · exact (World.begin_of_read hx).2
  · rw [Store.read_of_scripted ho hs]

/-- A worker that is given two entries at once takes neither, and says how many there were; given two
streams, it says which. -/
theorem consume_tells_two_entries :
    let worker : Worker := ⟨"a", { Settings.standard with address := ⟨"redis://localhost"⟩ }, .text⟩
    let jobs : Batch := ⟨"jobs", [⟨"5-0", ⟨[("msg", [104])]⟩⟩, ⟨"5-1", ⟨[("msg", [105])]⟩⟩]⟩
    let given (reply : List Batch) : World := { clockShown := 5, store := { scripted := [some reply] } }
    ((given [jobs]).begin worker "main" .consume).2 =
        .inr (.finished (.error (.unexpectedReply "stream jobs returned 2 entries"))) ∧
      ((given [jobs, ⟨"mail", []⟩]).begin worker "main" .consume).2 =
        .inr (.finished (.error (.unexpectedReply "2 streams returned: [\"jobs\", \"mail\"]"))) ∧
      ((given [jobs]).begin worker "main" .consume).1.store =
        { lastRead := some worker.readRequest } := by
  intro worker jobs given
  obtain ⟨-, -, hplain, -, -, -, hmemory, hscripted⟩ := consume_tells
  have hgiven (reply : List Batch) {reason : String} (h : Unexpected reply reason) :
      ((given reply).begin worker "main" .consume).2 =
        .inr (.finished (.error (.unexpectedReply reason))) := by
    have hread : ((given reply).store.read worker.readRequest).2 = .answer (some reply) :=
      hscripted (given reply).store worker.readRequest _ [] ⟨List.not_mem_nil, rfl⟩ rfl
    obtain ⟨result, hbegin, htells⟩ := (hmemory (given reply) worker "main" Bool.false_ne_true).1 _ hread
    rw [hbegin, (htells.unexpected_iff _).mpr ⟨_, rfl, h⟩]
  have hname (name : String) (h : (name.toList.all fun c => Text.Plain c) = true) :
      Text.quoted name = "\"" ++ name ++ "\"" :=
    hplain name fun c hc => of_decide_eq_true (List.all_eq_true.mp h c hc)
  have hentries : Unexpected [jobs] "stream jobs returned 2 entries" := by
    have htext : "stream " ++ jobs.stream ++ " returned " ++ toString jobs.entries.length ++ " entries" =
        "stream jobs returned 2 entries" := by decide
    exact htext ▸ .entries (by decide)
  have hstreams : Unexpected [jobs, ⟨"mail", []⟩] "2 streams returned: [\"jobs\", \"mail\"]" := by
    have htext : toString 2 ++ " streams returned: [" ++
        ", ".intercalate [Text.quoted "jobs", Text.quoted "mail"] ++ "]" =
        "2 streams returned: [\"jobs\", \"mail\"]" := by
      rw [hname "jobs" (by decide), hname "mail" (by decide)]
      decide
    exact htext ▸ .streams (by decide)
  exact ⟨hgiven _ hentries, hgiven _ hstreams,
    (hmemory (given [jobs]) worker "main" Bool.false_ne_true).2.2 .text⟩

end StreamWorker
