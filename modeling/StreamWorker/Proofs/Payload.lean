import StreamWorker.Payload
import StreamWorker.Proofs.Json.Shape

/-! Payloads are read back from the bytes that they are written as. Jobs, numbers, lists of texts, texts
and raw bytes always are; a document is if its own text spells it. A text is read from no other bytes
than its own, and reading fails exactly where the bytes are no UTF-8. -/

namespace StreamWorker.Payload

/-- The kind of the workers that a payload is for. -/
def kind : Payload → Kind
  | .document _ => .document
  | .job _ => .job
  | .word _ => .word
  | .texts _ => .texts
  | .text _ => .text
  | .raw _ => .raw

/-- A payload that loses nothing when it is written. A document may: it can have rounded numbers. -/
def Exact : Payload → Prop
  | .document v => v.Canonical Json.maxDepth
  | _ => True

/-! ### Documents -/

theorem document_of_reads {α : Type} {reader : Bytes → Json.Reading α} {l : List Char} {v : α}
    (h : reader (Json.bytes l ++ []) = .ok (v, [])) : Json.document reader (encodeChars l) = .ok v := by
  rw [List.append_nil] at h
  rw [encodeChars, Json.encode_ofList, Json.document, h]
  rfl

theorem ofJson_of_reads {α : Type} (make : α → Payload) {reader : Bytes → Json.Reading α} {l : List Char}
    {v : α} (h : reader (Json.bytes l ++ []) = .ok (v, [])) :
    ofJson make reader (encodeChars l) = .ok (make v) := by
  rw [ofJson, document_of_reads h]

/-- The text of a job is that of an object with its two fields. -/
theorem jobText_eq (j : Json.Job) :
    jobText j = '\x7b' :: Json.commaSeparated (Json.jobMembers j) ++ ['\x7d'] := by
  have hname : Json.stringText "name" = "\"name\"".toList := by decide
  have hweight : Json.stringText "weight" = "\"weight\"".toList := by decide
  have hopen : "\x7b\"name\":".toList = '\x7b' :: "\"name\"".toList ++ [':'] := by decide
  have hnext : ",\"weight\":".toList = ',' :: "\"weight\"".toList ++ [':'] := by decide
  have hjob : jobText j = "\x7b\"name\":".toList ++ Json.stringText j.name ++ ",\"weight\":".toList ++
      Nat.toDigits 10 j.weight.toNat ++ ['\x7d'] := rfl
  rw [hjob, hopen, hnext]
  simp only [Json.jobMembers, hname, hweight, Json.commaSeparated, List.cons_append, List.append_assoc,
    List.nil_append]

/-! ### Every kind -/

/-- What is written is read back. -/
theorem decode_encode {p : Payload} (h : p.Exact) : decode p.kind p.encode = .ok p := by
  have hends : Json.Ends [] := fun b hb => by cases hb
  cases p with
  | document v =>
    have hv : v.Canonical Json.maxDepth := h
    rw [kind, encode, decode, ofJson_of_reads _ (Json.value_text hv hends)]
  | job j => rw [kind, encode, jobText_eq, decode, ofJson_of_reads _ (Json.jobShape_text j [])]
  | word n => rw [kind, encode, decode, ofJson_of_reads _ (Json.wordShape_text n hends)]
  | texts l => rw [kind, encode, listText, decode, ofJson_of_reads _ (Json.listShape_texts l [])]
  | text s => rw [kind, encode, decode, Utf8.decode_encode]
  | raw b => rfl

/-- A text is read from its own bytes and from no others. -/
theorem decode_text_iff {b : Bytes} {s : String} :
    decode .text b = .ok (.text s) ↔ (Payload.text s).encode = b := by
  rw [encode, ← Utf8.decode_eq_ok_iff, decode]
  cases Utf8.decode b <;> simp

theorem decode_text_error_iff {b : Bytes} :
    (∃ reason, decode .text b = .error reason) ↔ ¬ b.toByteArray.IsValidUTF8 := by
  rw [← Utf8.decode_error_iff, decode]
  cases Utf8.decode b <;> simp

end StreamWorker.Payload
