import StreamWorker.Proofs.History.Delivery
import StreamWorker.Proofs.Payload
import StreamWorker.Proofs.Session.Consumption
import StreamWorker.Proofs.Store.Portions

/-! Payloads on their way from whoever adds them to the worker that is given them. An entry stays in its
place, a group gives it out when it gets there, and the bytes of a payload are read back as what was
written, whatever happens to the store in between. -/

namespace StreamWorker.History

open Payload

variable {h : History} {stream id : String} {fields : List (String × Bytes)}

/-- What is added stands behind everything that was there, under the id that the operation answers. -/
theorem entries_append
    (ha : (h.world.store.perform h.world.now h.world.clock (.append stream fields)).2 = .answer id) :
    (h.next (.operation (.append stream fields))).entries stream =
      h.entries stream ++ [⟨id, .ofList fields⟩] := by
  have hid : ((h.world.store.stream stream).append h.world.clock fields).2 = id :=
    Response.answer.inj ha
  rw [entries, ← hid]
  exact congrArg Stream.entries (Store.append_stream_self ..)

/-- A group that has got to an entry gives it to the next worker that asks. -/
theorem read_next {r : ReadRequest} {before : List Entry} {e : Entry} {g : Group}
    (hkept : before ++ [e] <+: h.entries r.stream)
    (hg : (h.world.store.stream r.stream).groups.get? r.group = some g)
    (hplace : g.next = before.length) (hcount : r.count = 1) (ho : h.world.store.Open .read)
    (hs : h.world.store.scripted = []) (hsize : before.length + 1 < UInt64.size) :
    (h.world.store.read r).2 = .answer (some [⟨r.stream, [e]⟩]) := by
  obtain ⟨after, hentries⟩ := hkept
  have hone : max r.count.toNat 1 = 1 := by
    rw [hcount]
    rfl
  have hfit : g.next + max r.count.toNat 1 < UInt64.size := by
    rw [hone, hplace]
    exact hsize
  have hleft : h.world.store.undelivered r.stream g = e :: after := by
    rw [Store.undelivered, hplace, ← entries, ← hentries, List.append_assoc, List.drop_left]
    rfl
  have hanswer := (Store.read_portion ho hs hg hfit).1
  rw [hone, hleft] at hanswer
  exact hanswer

/-- An entry with a payload, once its group has got to it, is a message for every worker that reads
payloads of its kind. -/
theorem consume_next {p : Payload} (hp : p.Exact) {w : Worker} {token : String} {before : List Entry}
    {e : Entry} {g : Group} (hkind : w.kind = p.kind)
    (hpayload : e.fields.get? payloadField = some p.encode)
    (hkept : before ++ [e] <+: h.entries w.settings.stream)
    (hg : (h.world.store.stream w.settings.stream).groups.get? w.settings.group = some g)
    (hplace : g.next = before.length) (ho : h.world.store.Open .read)
    (hs : h.world.store.scripted = []) (hx : ¬ h.world.isCancelled token = true)
    (hsize : before.length + 1 < UInt64.size) :
    (h.world.begin w token .consume).2 = .inr (.finished (.ok (.message e.id p))) := by
  have hread : (h.world.store.read w.readRequest).2 = .answer (some [⟨w.settings.stream, [e]⟩]) :=
    read_next hkept hg hplace rfl ho hs hsize
  have hdecode : decode w.kind p.encode = .ok p := by
    rw [hkind, decode_encode hp]
  have hmessage : classify (decode w.kind) (some [⟨w.settings.stream, [e]⟩]) = .ok (some (e.id, p)) :=
    classify_message hpayload hdecode
  rw [(World.begin_of_read hx).1, hread, World.received, hmessage]
  rfl

/-- Payloads come back as they were written. A job, a list of texts, a text and raw bytes are read from
their own bytes, a text from no others, and no text from bytes that are no UTF-8. So whatever has
happened, and whatever happens after a payload was added to a stream, the worker of its kind that the
entry is next for is given it, under the id that adding it was answered by. Places in a stream are counted
in 64 bits, so this is said of streams that are not longer. -/
theorem payloads_carried :
    (∀ j, decode .job (Payload.job j).encode = .ok (.job j)) ∧
    (∀ l, decode .texts (Payload.texts l).encode = .ok (.texts l)) ∧
    (∀ s, decode .text (Payload.text s).encode = .ok (.text s)) ∧
    (∀ b s, decode .text b = .ok (.text s) → (Payload.text s).encode = b) ∧
    (∀ b, ¬ b.toByteArray.IsValidUTF8 → ∃ reason, decode .text b = .error reason) ∧
    (∀ b, decode .raw b = .ok (.raw b)) ∧
    ∀ (clock : Clock) (es es' : List Event) (p : Payload) (stream : String), p.Exact →
      let h := (start clock).run es
      let append : Operation := .append stream [("msg", p.encode)]
      let h' := (h.next (.operation append)).run es'
      ∃ id, (h.world.store.perform h.world.now h.world.clock append).2 = .answer id ∧
        ∀ (w : Worker) (token : String) (g : Group), w.kind = p.kind → w.settings.stream = stream →
          (h'.world.store.stream stream).groups.get? w.settings.group = some g →
          -- everything before the entry was given out, and the entry was not
          g.next = (h.entries stream).length → (h.entries stream).length + 1 < UInt64.size →
          h'.world.store.Open .read → h'.world.store.scripted = [] →
          ¬ h'.world.isCancelled token = true →
          (h'.world.begin w token .consume).2 = .inr (.finished (.ok (.message id p))) := by
  refine ⟨fun j => decode_encode (p := .job j) trivial, fun l => decode_encode (p := .texts l) trivial,
    fun s => decode_encode (p := .text s) trivial, fun b s => decode_text_iff.mp,
    fun b => decode_text_error_iff.mpr, fun b => rfl, fun clock es es' p stream hp => ?_⟩
  intro h append h'
  refine ⟨_, rfl, fun w token g hkind hstream hg hplace hsize ho hs hx => ?_⟩
  subst hstream
  have hkept := run_entries (h.next (.operation append)) es' w.settings.stream
  rw [entries_append rfl] at hkept
  exact consume_next hp hkind rfl hkept hg hplace ho hs hx hsize

/-- A job with a name that has to be escaped and the largest weight, taken a while after it was added. -/
theorem payloads_carried_escaped_job :
    let job : Payload := .job ⟨"say \"hé\"\n", 4294967295⟩
    let worker : Worker := ⟨"a", { Settings.standard with stream := "jobs", group := "team" }, .job⟩
    let h := (start ⟨5, 0⟩).run [.operation (.createGroup "jobs" "team"),
      .operation (.append "jobs" [("msg", job.encode)]), .elapse 1000,
      .operation (.append "jobs" [])]
    (h.world.begin worker "main" .consume).2 = .inr (.finished (.ok (.message "5-0" job))) := by
  intro job worker h
  obtain ⟨-, -, -, -, -, -, hcarried⟩ := payloads_carried
  obtain ⟨id, hid, hconsume⟩ := hcarried ⟨5, 0⟩ [.operation (.createGroup "jobs" "team")]
    [.elapse 1000, .operation (.append "jobs" [])] job "jobs" trivial
  have hfive : id = "5-0" := (Response.answer.inj hid).symm.trans (by decide)
  subst hfive
  exact hconsume worker "main" { next := 0 } rfl rfl rfl rfl (by decide) (by decide) rfl (by decide)

end StreamWorker.History
