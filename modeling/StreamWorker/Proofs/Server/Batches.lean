import Mathlib.Data.List.Forall2
import StreamWorker.Proofs.Server.Exchange
import StreamWorker.Proofs.Server.Wire
import StreamWorker.Proofs.Session.Consumption

/-! A read is answered alike by a server and by a store in memory. A server answers with lists of lists,
in which the names and values of an entry's fields alternate in any order; a store in memory answers
with the entries themselves. `Spells` relates the two, part by part: what the reply reads as can differ
from what it spells in the order of fields only, which nobody who looks at a message can tell. So the
two kinds of store feed a worker alike, with messages and with failures. -/

namespace StreamWorker

/-! ### Entries that nobody can tell apart -/

/-- The same id, and the same value in every field. -/
def Entry.Alike (e e' : Entry) : Prop := e.id = e'.id ∧ ∀ name, e.fields.get? name = e'.fields.get? name

def Batch.Alike (b b' : Batch) : Prop :=
  b.stream = b'.stream ∧ List.Forall₂ Entry.Alike b.entries b'.entries

theorem Entry.Alike.payload {e e' : Entry} (h : e.Alike e') {α : Type}
    (decode : Bytes → Except String α) : e.payload decode = e'.payload decode := by
  rw [Entry.payload, Entry.payload, h.1, h.2]

theorem streams_alike {l l' : List Batch} (h : List.Forall₂ Batch.Alike l l') :
    l.map (·.stream) = l'.map (·.stream) := by
  induction h with
  | nil => rfl
  | cons hb _ ih => rw [List.map_cons, List.map_cons, hb.1, ih]

theorem singleEntry_of_several (b c : Batch) (l : List Batch) :
    singleEntry (b :: c :: l) = .error (.unexpectedReply
      s!"{l.length + 2} streams returned: {Text.quotedList ((b :: c :: l).map (·.stream))}") := by
  rw [singleEntry]
  · rfl
  · intro _ _ h
    cases h
  · intro _ _ h
    cases h

/-- The same entry is picked, up to the order of its fields, or the same complaint is made. -/
theorem singleEntry_alike {l l' : List Batch} (h : List.Forall₂ Batch.Alike l l') :
    (∃ e e', singleEntry l = .ok e ∧ singleEntry l' = .ok e' ∧ e.Alike e') ∨
      ∃ f, singleEntry l = .error f ∧ singleEntry l' = .error f := by
  cases h with
  | nil => exact .inr ⟨_, rfl, rfl⟩
  | @cons b b' l l' hb hl =>
    obtain ⟨stream, entries⟩ := b
    obtain ⟨stream', entries'⟩ := b'
    obtain ⟨rfl, he⟩ : stream = stream' ∧ List.Forall₂ Entry.Alike entries entries' := hb
    cases hl with
    | nil =>
      cases he with
      | nil => exact .inr ⟨_, rfl, rfl⟩
      | @cons e e' es es' h hes =>
        cases hes with
        | nil => exact .inl ⟨e, e', rfl, rfl, h⟩
        | cons _ hes =>
          refine .inr ⟨_, rfl, ?_⟩
          simp [singleEntry, hes.length_eq]
    | cons hc hl =>
      refine .inr ⟨_, singleEntry_of_several .., ?_⟩
      rw [singleEntry_of_several, hl.length_eq]
      simp only [List.map_cons, hc.1, streams_alike hl]

/-- Answers that differ in the order of fields only mean the same to every reader of payloads. -/
theorem classify_alike {l l' : List Batch} (h : List.Forall₂ Batch.Alike l l') {α : Type}
    (decode : Bytes → Except String α) : classify decode (some l) = classify decode (some l') := by
  rcases singleEntry_alike h with ⟨e, e', he, he', ha⟩ | ⟨f, hf, hf'⟩
  · simp only [classify, he, he', bind, Except.bind, ha.payload decode, ha.1]
  · simp only [classify, hf, hf', bind, Except.bind]

namespace Server.Reply

/-! ### Readers -/

@[simp] theorem part_encode (s : String) : (Reply.bulk (Utf8.encode s)).part = .ok s := by
  simp [part, textOr]

/-- Names that are told once each are all taken, and in their order. -/
theorem tabulate_alternating {l : List (String × Reply)} (hl : (l.map Prod.fst).Nodup)
    {t : Table String Reply} (ht : ∀ f ∈ l, t.get? f.1 = none) :
    tabulate .ok t (l.flatMap fun f => [.bulk (Utf8.encode f.1), f.2]) = .ok ⟨t.entries ++ l⟩ := by
  induction l generalizing t with
  | nil => rw [List.flatMap_nil, tabulate, List.append_nil]
  | cons f l ih =>
    obtain ⟨hf, hl⟩ := List.nodup_cons.mp hl
    have hnew : t.get? f.1 = none := ht f List.mem_cons_self
    have hrest : ∀ g ∈ l, (t.insert f.1 f.2).get? g.1 = none := by
      intro g hg
      have hne : f.1 ≠ g.1 := fun he => hf (he ▸ List.mem_map_of_mem hg)
      rw [Table.get?_insert_of_ne t hne]
      exact ht g (List.mem_cons_of_mem _ hg)
    simp only [List.flatMap_cons, List.cons_append, List.nil_append, tabulate, part_encode]
    rw [ih hl hrest, Table.entries_insert_of_none hnew, List.append_assoc, List.singleton_append]

theorem length_alternating {α β : Type} (f g : α → β) (l : List α) :
    (l.flatMap fun x => [f x, g x]).length = 2 * l.length := by
  induction l with
  | nil => rfl
  | cons x l ih => rw [List.flatMap_cons, List.length_append, ih, List.length_cons]; simp; omega

theorem table_alternating {l : List (String × Reply)} (hl : (l.map Prod.fst).Nodup) :
    table .ok (.array (l.flatMap fun f => [.bulk (Utf8.encode f.1), f.2])) = .ok ⟨l⟩ := by
  rw [table, if_pos (by rw [length_alternating]; omega), tabulate_alternating hl fun _ _ => rfl]
  rfl

theorem table_pair {α : Type} {read : Reply → Except Fault α} {r : Reply} {v : α}
    (h : read r = .ok v) (name : String) :
    table read (.array [.bulk (Utf8.encode name), r]) = .ok ⟨[(name, v)]⟩ := by
  rw [table, if_pos (by simp)]
  simp only [tabulate, part_encode, h]
  rfl

/-- Reading every element of a list, where each can be read and comes out as it should. -/
theorem mapM_of_forall₂ {α β γ ε : Type} {read : α → Except ε β} {P : β → γ → Prop} {l : List α}
    {l' : List γ} (h : List.Forall₂ (fun a c => ∃ b, read a = .ok b ∧ P b c) l l') :
    ∃ bs, l.mapM read = .ok bs ∧ List.Forall₂ P bs l' := by
  induction h with
  | nil => exact ⟨[], rfl, .nil⟩
  | cons ha _ ih =>
    obtain ⟨b, hb, hP⟩ := ha
    obtain ⟨bs, hbs, hPs⟩ := ih
    refine ⟨b :: bs, ?_, .cons hP hPs⟩
    rw [List.mapM_cons, hb, hbs]
    rfl

/-- A list of tables of one binding each, as the list of the bindings. -/
theorem list_of_forall₂ {α γ : Type} {read : Reply → Except Fault (Table String α)}
    {P : String × α → γ → Prop} {items : List Reply} {l : List γ}
    (h : List.Forall₂ (fun r c => ∃ e, read r = .ok ⟨[e]⟩ ∧ P e c) items l) :
    ∃ es, (list read (.array items)).map (·.flatMap Table.entries) = .ok es ∧ List.Forall₂ P es l := by
  have hone : List.Forall₂ (fun r c => ∃ t, read r = .ok t ∧ ∃ e, t = ⟨[e]⟩ ∧ P e c) items l :=
    h.imp fun r c ⟨e, he, hP⟩ => ⟨_, he, e, rfl, hP⟩
  obtain ⟨tables, hread, htables⟩ := mapM_of_forall₂ hone
  have hflat : List.Forall₂ P (tables.flatMap Table.entries) l := by
    clear hread h hone
    induction htables with
    | nil => exact .nil
    | cons ht _ ih =>
      obtain ⟨e, rfl, hP⟩ := ht
      exact .cons hP ih
  exact ⟨_, by rw [list, hread]; rfl, hflat⟩

/-! ### What spells an answer -/

/-- Names and values of fields that alternate, the fields in any order. -/
def SpellsFields (items : List Reply) (fields : Table String Bytes) : Prop :=
  ∃ l : List (String × Bytes), (l.map Prod.fst).Nodup ∧ l.Perm fields.entries ∧
    items = l.flatMap fun f => [.bulk (Utf8.encode f.1), .bulk f.2]

/-- The id of an entry and its fields. -/
inductive SpellsEntry : Reply → Entry → Prop
  | intro {items : List Reply} {e : Entry} (h : SpellsFields items e.fields) :
      SpellsEntry (.array [.bulk (Utf8.encode e.id), .array items]) e

/-- The name of a stream and its entries. -/
inductive SpellsBatch : Reply → Batch → Prop
  | intro {items : List Reply} {b : Batch} (h : List.Forall₂ SpellsEntry items b.entries) :
      SpellsBatch (.array [.bulk (Utf8.encode b.stream), .array items]) b

/-- Nothing, or rows of a stream and its entries each. -/
inductive Spells : Reply → Option (List Batch) → Prop
  | nothing : Spells .nil none
  | rows {items : List Reply} {batches : List Batch} (h : List.Forall₂ SpellsBatch items batches) :
      Spells (.array items) (some batches)

/-! ### Every answer is spelled -/

theorem exists_forall₂ {α β : Type} {R : α → β → Prop} {l : List β} (h : ∀ b ∈ l, ∃ a, R a b) :
    ∃ as, List.Forall₂ R as l := by
  induction l with
  | nil => exact ⟨[], .nil⟩
  | cons b l ih =>
    obtain ⟨a, ha⟩ := h b List.mem_cons_self
    obtain ⟨as, has⟩ := ih fun b hb => h b (List.mem_cons_of_mem _ hb)
    exact ⟨a :: as, .cons ha has⟩

/-- No entry of an answer has two fields of one name. -/
def Distinct (answer : Option (List Batch)) : Prop :=
  ∀ l, answer = some l → ∀ b ∈ l, ∀ e ∈ b.entries, e.fields.keys.Nodup

theorem exists_spells {answer : Option (List Batch)} (h : Distinct answer) :
    ∃ r : Reply, r.Spells answer := by
  cases answer with
  | none => exact ⟨_, .nothing⟩
  | some l =>
    have hentry : ∀ b ∈ l, ∀ e ∈ b.entries, ∃ r, SpellsEntry r e :=
      fun b hb e he => ⟨_, .intro ⟨e.fields.entries, h l rfl b hb e he, .refl _, rfl⟩⟩
    have hbatch : ∀ b ∈ l, ∃ r, SpellsBatch r b := fun b hb =>
      (exists_forall₂ (hentry b hb)).imp' _ fun _ hr => .intro hr
    obtain ⟨items, hitems⟩ := exists_forall₂ hbatch
    exact ⟨_, .rows hitems⟩

section Bytes

open Wire

theorem exists_carriesAll {α : Type} {R : Reply → α → Prop} (hR : ∀ {r a}, R r a → ∃ s, Carries s r)
    {items : List Reply} {l : List α} (h : List.Forall₂ R items l) : ∃ s, CarriesAll s items := by
  induction h with
  | nil => exact ⟨_, .nil⟩
  | cons hr _ ih =>
    obtain ⟨s, hs⟩ := hR hr
    obtain ⟨t, ht⟩ := ih
    exact ⟨_, .cons hs ht⟩

theorem exists_carries_fields (l : List (String × Bytes)) :
    ∃ s, CarriesAll s (l.flatMap fun f => [.bulk (Utf8.encode f.1), .bulk f.2]) := by
  induction l with
  | nil => exact ⟨_, .nil⟩
  | cons f l ih =>
    obtain ⟨s, hs⟩ := ih
    exact ⟨_, .cons (.text _) (.cons (.text _) hs)⟩

theorem SpellsEntry.exists_carries {r : Reply} {e : Entry} : SpellsEntry r e → ∃ s, Carries s r
  | .intro ⟨l, _, _, h⟩ => by
    obtain ⟨s, hs⟩ := exists_carries_fields l
    subst h
    exact ⟨_, .list (.cons (.text _) (.cons (.list hs) .nil))⟩

theorem SpellsBatch.exists_carries {r : Reply} {b : Batch} : SpellsBatch r b → ∃ s, Carries s r
  | .intro h => by
    obtain ⟨s, hs⟩ := exists_carriesAll SpellsEntry.exists_carries h
    exact ⟨_, .list (.cons (.text _) (.cons (.list hs) .nil))⟩

theorem Spells.exists_carries {r : Reply} {answer : Option (List Batch)} :
    r.Spells answer → ∃ s, Carries s r
  | .nothing => ⟨_, .noText⟩
  | .rows h => by
    obtain ⟨s, hs⟩ := exists_carriesAll SpellsBatch.exists_carries h
    exact ⟨_, .list hs⟩

end Bytes

/-! ### Reading what is spelled -/

/-- Nothing is refused within a list of which every element spells something. -/
theorem firstRefusal_of_forall₂ {α : Type} {R : Reply → α → Prop}
    (hR : ∀ {r a}, R r a → r.refusal? = none) {items : List Reply} {l : List α}
    (h : List.Forall₂ R items l) : firstRefusal items = none := by
  induction h with
  | nil => rfl
  | cons hr _ ih =>
    rw [firstRefusal, hR hr]
    exact ih

theorem SpellsFields.firstRefusal {items : List Reply} {fields : Table String Bytes}
    (h : SpellsFields items fields) : firstRefusal items = none := by
  obtain ⟨l, -, -, rfl⟩ := h
  induction l with
  | nil => rfl
  | cons f l ih => exact ih

theorem SpellsEntry.refusal? {r : Reply} {e : Entry} : SpellsEntry r e → r.refusal? = none
  | .intro h => by simp [Reply.refusal?, Reply.firstRefusal, h.firstRefusal]

theorem SpellsBatch.refusal? {r : Reply} {b : Batch} : SpellsBatch r b → r.refusal? = none
  | .intro h => by
    simp [Reply.refusal?, firstRefusal, firstRefusal_of_forall₂ SpellsEntry.refusal? h]

theorem Spells.refusal? {r : Reply} {answer : Option (List Batch)} : r.Spells answer → r.refusal? = none
  | .nothing => rfl
  | .rows h => by rw [Reply.refusal?, firstRefusal_of_forall₂ SpellsBatch.refusal? h]

theorem mapM_fieldBytes (id : String) (l : List (String × Bytes)) :
    (l.map fun f => (f.1, Reply.bulk f.2)).mapM (fieldBytes id) = .ok l := by
  induction l with
  | nil => rfl
  | cons f l ih =>
    rw [List.map_cons, List.mapM_cons, ih]
    rfl

/-- An entry is read as an entry that differs in the order of its fields only. -/
theorem SpellsEntry.reads {r : Reply} {e : Entry} (h : SpellsEntry r e) :
    ∃ raw, table (table .ok) r = .ok ⟨[raw]⟩ ∧ ∃ e', Server.entry raw = .ok e' ∧ e'.Alike e := by
  obtain ⟨l, hl, hperm, rfl⟩ := h
  have hnames : ((l.map fun f => (f.1, Reply.bulk f.2)).map Prod.fst).Nodup := by
    rwa [List.map_map]
  have hfields := table_alternating hnames
  rw [List.flatMap_map] at hfields
  refine ⟨_, table_pair hfields e.id, ⟨e.id, ⟨l⟩⟩, ?_, rfl, Table.get?_of_perm hl hperm⟩
  rw [Server.entry, mapM_fieldBytes]
  rfl

theorem SpellsBatch.reads {r : Reply} {b : Batch} (h : SpellsBatch r b) :
    ∃ raw, table (fun r => (list (table (table .ok)) r).map (·.flatMap Table.entries)) r = .ok ⟨[raw]⟩ ∧
      ∃ b', batch raw = .ok b' ∧ b'.Alike b := by
  obtain ⟨h⟩ := h
  obtain ⟨raws, hread, hraws⟩ := list_of_forall₂ (h.imp fun _ _ => SpellsEntry.reads)
  obtain ⟨entries, hentries, halike⟩ := mapM_of_forall₂ hraws
  refine ⟨_, table_pair hread b.stream, ⟨b.stream, entries⟩, ?_, rfl, halike⟩
  rw [batch, hentries]
  rfl

/-- What a reply to a read spells is what every reader of payloads takes it for. -/
theorem Spells.reads {r : Reply} {answer : Option (List Batch)} (h : r.Spells answer)
    (request : ReadRequest) :
    ∃ a, Server.answer (.read request) r = .ok a ∧
      ∀ {α : Type} (decode : Bytes → Except String α), classify decode a = classify decode answer := by
  have hanswer : Server.answer (.read request) r = batches r := by
    rw [Server.answer, h.refusal?]
    rfl
  rw [hanswer]
  cases h with
  | nothing => exact ⟨none, rfl, fun _ => rfl⟩
  | @rows items l h =>
    obtain ⟨raws, hread, hraws⟩ := list_of_forall₂ (h.imp fun _ _ => SpellsBatch.reads)
    obtain ⟨read, hbatches, halike⟩ := mapM_of_forall₂ hraws
    refine ⟨some read, ?_, classify_alike halike⟩
    have hraw : rawBatches (.array items) = .ok raws := hread
    have hopt : (Reply.array items).optional rawBatches = .ok (some raws) := by
      rw [optional, hraw]
      · rfl
      · intro h
        cases h
    rw [batches, hopt]
    simp only [hbatches]
    rfl

end Server.Reply

/-! ### The two kinds of store -/

namespace Worker

variable {w v : Worker}

/-- What a read ends with depends on what its answer means to a worker of that kind, and on nothing
else. -/
theorem finishRead_next (hk : w.kind = v.kind) {a b : Option (List Batch)}
    (h : ∀ {α : Type} (decode : Bytes → Except String α), classify decode a = classify decode b) :
    (w.finishRead (.ok a)).next = (v.finishRead (.ok b)).next := by
  rw [finishRead, finishRead]
  simp only [hk, h]

/-- A read over a server is one command, whatever its reply. -/
theorem call_consume {r : Server.Reply} {result : Except Failure Success}
    (h : (w.finishRead (Server.answer (.read w.readRequest) r)).next = .inr result) (clock : Nat)
    (replies : List Server.Reply) :
    ∃ e, w.call clock false .consume (r :: replies) = .ok e ∧
      e.sent = [w.readCommand] ∧ e.rest = replies ∧ e.outcome = result := by
  have hr : (w.react .reading (Server.answer (w.operation .reading) r)).next = .inr result := h
  refine ⟨_, call_of_start rfl _, ?_⟩
  rw [converse_of_ended hr, Exchange.giveUp_of_ended rfl]
  exact ⟨congrArg ([·]) w.command_reading, rfl, rfl⟩

end Worker

namespace World

/-- A read over a store in memory takes the answer that was given in advance, and only that one. -/
theorem begin_consume {world : World} {v : Worker} {token : String} {answer : Option (List Batch)}
    {rest : List (Option (List Batch))} {result : Except Failure Success}
    (hc : ¬ world.isCancelled token = true) (ho : world.store.Open .read)
    (hs : world.store.scripted = answer :: rest)
    (h : (v.finishRead (.ok answer)).next = .inr result) :
    (world.begin v token .consume).2 = .inr (.finished result) ∧
      (world.begin v token .consume).1.store =
        { world.store with lastRead := some v.readRequest, scripted := rest } := by
  obtain ⟨houtcome, hstore⟩ := @begin_of_read world v token hc
  rw [Store.read_of_scripted ho hs] at houtcome hstore
  cases h
  exact ⟨houtcome, hstore⟩

end World

/-- A worker over a server and a worker over a store in memory that are given the same answer, the one
in bytes and the other as it is, end their calls alike, each with one read. -/
theorem consume_fed_alike {w v : Worker} (hkind : w.kind = v.kind) {answer : Option (List Batch)}
    (hdistinct : Server.Reply.Distinct answer) {world : World} {token : String}
    {rest : List (Option (List Batch))} (hc : ¬ world.isCancelled token = true)
    (ho : world.store.Open .read) (hs : world.store.scripted = answer :: rest) :
    -- some bytes spell the answer
    (∃ r s, r.Spells answer ∧ Server.Wire.Carries s r) ∧
    ∀ r s, r.Spells answer → Server.Wire.Carries s r →
      -- the bytes are that reply, which means the answer to every reader of payloads
      (∀ more, Server.Wire.read (s ++ more) = .reply r more) ∧
      (∃ a, Server.answer (.read w.readRequest) r = .ok a ∧
        ∀ {α : Type} (decode : Bytes → Except String α), classify decode a = classify decode answer) ∧
      ∀ clock replies, ∃ result,
        (answer = none → result = .ok .empty) ∧
        -- over the server
        (∃ e, w.call clock false .consume (r :: replies) = .ok e ∧
          e.sent = [["XREADGROUP", "GROUP", w.settings.group, w.id, "BLOCK", "1",
            "COUNT", "1", "STREAMS", w.settings.stream, ">"].map Utf8.encode] ∧
          e.rest = replies ∧ e.outcome = result) ∧
        -- over the store in memory
        (world.begin v token .consume).2 = .inr (.finished result) ∧
        (world.begin v token .consume).1.store = { world.store with
          lastRead := some ⟨v.settings.stream, v.settings.group, v.id, 1, .ofMillis 1⟩
          scripted := rest } := by
  refine ⟨?_, fun r s hspells hcarries => ?_⟩
  · obtain ⟨r, hr⟩ := Server.Reply.exists_spells hdistinct
    obtain ⟨s, hs⟩ := hr.exists_carries
    exact ⟨r, s, hr, hs⟩
  obtain ⟨a, ha, hclassify⟩ := hspells.reads w.readRequest
  refine ⟨Server.Wire.read_of_carries hcarries, ⟨a, ha, hclassify⟩, fun clock replies => ?_⟩
  obtain ⟨result, hresult⟩ : ∃ result, (v.finishRead (.ok answer)).next = .inr result := ⟨_, rfl⟩
  have hw : (w.finishRead (Server.answer (.read w.readRequest) r)).next = .inr result := by
    rw [ha, Worker.finishRead_next hkind hclassify, hresult]
  refine ⟨result, ?_, Worker.call_consume hw clock replies, World.begin_consume hc ho hs hresult⟩
  rintro rfl
  exact (Sum.inr.inj hresult).symm

/-- A message whose fields the server tells in another order than the store in memory. -/
theorem consume_fed_alike_one_message :
    let settings : Settings := { Settings.standard with address := ⟨"redis://localhost"⟩ }
    let w : Worker := ⟨"a", settings, .text⟩
    let v : Worker := ⟨"b", settings, .text⟩
    let answer : Option (List Batch) :=
      some [⟨"jobs", [⟨"5-0", ⟨[("msg", [104, 105]), ("from", [255])]⟩⟩]⟩]
    let world : World := { clockShown := 5, store := { scripted := [answer] } }
    let text (t : String) : Server.Reply := .bulk (Utf8.encode t)
    let r : Server.Reply := .array [.array [text "jobs", .array [.array [text "5-0",
      .array [text "from", .bulk [255], text "msg", .bulk [104, 105]]]]]]
    (world.begin v "main" .consume).2 = .inr (.finished (.ok (.message "5-0" (.text "hi")))) ∧
      ∃ e, w.call 0 false .consume [r] = .ok e ∧ e.outcome = .ok (.message "5-0" (.text "hi")) := by
  intro settings w v answer world text r
  have hdistinct : Server.Reply.Distinct answer := by
    intro l hl b hb e he
    obtain rfl := Option.some.inj hl
    obtain rfl := List.mem_singleton.mp hb
    obtain rfl := List.mem_singleton.mp he
    decide
  have hfields : Server.Reply.SpellsFields [text "from", .bulk [255], text "msg", .bulk [104, 105]]
      ⟨[("msg", [104, 105]), ("from", [255])]⟩ :=
    ⟨[("from", [255]), ("msg", [104, 105])], by decide, .swap .., rfl⟩
  have hentry := Server.Reply.SpellsEntry.intro
    (e := ⟨"5-0", ⟨[("msg", [104, 105]), ("from", [255])]⟩⟩) hfields
  have hbatch := Server.Reply.SpellsBatch.intro (b := ⟨"jobs", [_]⟩) (.cons hentry .nil)
  have hr : r.Spells answer := .rows (.cons hbatch .nil)
  obtain ⟨s, hs⟩ := hr.exists_carries
  obtain ⟨-, hall⟩ := @consume_fed_alike w v rfl answer hdistinct world "main" []
    (by decide) (by decide) rfl
  obtain ⟨-, -, hcall⟩ := hall r s hr hs
  obtain ⟨result, -, ⟨e, he, -, -, houtcome⟩, hfinished, -⟩ := hcall 0 []
  have hmemory : (world.begin v "main" .consume).2 =
      .inr (.finished (.ok (.message "5-0" (.text "hi")))) := rfl
  have hresult : result = .ok (.message "5-0" (.text "hi")) := by
    rw [hmemory] at hfinished
    exact (Ending.finished.inj (Sum.inr.inj hfinished)).symm
  exact ⟨hmemory, e, he, houtcome.trans hresult⟩

end StreamWorker
