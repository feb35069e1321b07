import StreamWorker.Proofs.Server.Publication

/-! What a read can come to. It brings a message only if the answer is one entry of one stream whose
payload makes sense. Anything else is no message or a failure, and a failure that a server or a message
is to blame for never looks as if the caller had given up. -/

namespace StreamWorker

/-! ### Answers as messages -/

theorem Payload.decode_document {b : Bytes} {p : Payload} (h : Payload.decode .document b = .ok p) :
    ∃ v, p = .document v := by
  rw [Payload.decode, Payload.ofJson] at h
  split at h
  · next v _ => exact ⟨v, (Except.ok.inj h).symm⟩
  · cases h

theorem singleEntry_cases (l : List Batch) :
    (∃ stream e, l = [⟨stream, [e]⟩] ∧ singleEntry l = .ok e) ∨
      ∃ reason, singleEntry l = .error (.unexpectedReply reason) := by
  unfold singleEntry
  split
  · next stream e => exact .inl ⟨stream, e, rfl, rfl⟩
  · exact .inr ⟨_, rfl⟩
  · exact .inr ⟨_, rfl⟩

theorem Entry.payload_cases {α : Type} (decode : Bytes → Except String α) (e : Entry) :
    (∃ bytes v, e.fields.get? payloadField = some bytes ∧ decode bytes = .ok v ∧
        e.payload decode = .ok v) ∨
      ∃ f, f.isCancelled = false ∧ e.payload decode = .error f := by
  unfold Entry.payload
  cases e.fields.get? payloadField with
  | none => exact .inr ⟨_, rfl, rfl⟩
  | some bytes =>
    cases hv : decode bytes with
    | ok v => exact .inl ⟨bytes, v, rfl, hv, by simp only [hv]⟩
    | error reason => exact .inr ⟨.undecodable e.id (.other reason), rfl, by simp only [hv]⟩

/-- An answer makes a message only if it is one entry of one stream with a payload that makes sense. It
never looks as if somebody had given up. -/
theorem classify_cases {α : Type} (decode : Bytes → Except String α) (reply : Option (List Batch)) :
    (∃ stream id fields bytes v, reply = some [⟨stream, [⟨id, fields⟩]⟩] ∧
        fields.get? payloadField = some bytes ∧ decode bytes = .ok v ∧
        classify decode reply = .ok (some (id, v))) ∨
      classify decode reply = .ok none ∨
      ∃ f, f.isCancelled = false ∧ classify decode reply = .error f := by
  cases reply with
  | none => exact .inr (.inl rfl)
  | some l =>
    rcases singleEntry_cases l with ⟨stream, e, hl, he⟩ | ⟨reason, he⟩
    · rcases e.payload_cases decode with ⟨bytes, v, hb, hv, hp⟩ | ⟨f, hf, hp⟩
      · refine .inl ⟨stream, e.id, e.fields, bytes, v, congrArg some hl, hb, hv, ?_⟩
        simp only [classify, he, hp, bind, Except.bind, pure, Except.pure]
      · refine .inr (.inr ⟨f, hf, ?_⟩)
        simp only [classify, he, hp, bind, Except.bind]
    · refine .inr (.inr ⟨.unexpectedReply reason, rfl, ?_⟩)
      simp only [classify, he, bind, Except.bind]

theorem classify_message {α : Type} {decode : Bytes → Except String α} {stream id : String}
    {fields : Table String Bytes} {bytes : Bytes} {v : α}
    (hb : fields.get? payloadField = some bytes) (hv : decode bytes = .ok v) :
    classify decode (some [⟨stream, [⟨id, fields⟩]⟩]) = .ok (some (id, v)) := by
  simp only [classify, singleEntry, Entry.payload, hb, hv, bind, Except.bind, pure, Except.pure]

/-! ### Failures of a server -/

theorem Failure.isCancelled_within_read (f : Failure) (member : String) :
    (f.within (.read member)).isCancelled = f.isCancelled := by
  cases f <;> rfl

namespace Server

theorem error_of_map {α β ε : Type} {x : Except ε α} {g : α → β} {f : ε}
    (h : x.map g = .error f) : x = .error f := by
  cases x with
  | error e => exact congrArg _ (Except.error.inj h)
  | ok v => cases h

theorem mapM_error {α β ε : Type} {g : α → Except ε β} {P : ε → Prop}
    (hg : ∀ a f, g a = .error f → P f) {l : List α} {f : ε} (h : l.mapM g = .error f) : P f := by
  induction l with
  | nil => cases h
  | cons a l ih =>
    rw [List.mapM_cons] at h
    cases ha : g a with
    | error e =>
      rw [ha] at h
      exact hg a f (ha.trans (by cases h; rfl))
    | ok b =>
      rw [ha] at h
      cases hl : l.mapM g with
      | error e => rw [hl] at h; cases h; exact ih hl
      | ok bs => rw [hl] at h; cases h

theorem fieldBytes_error (id : String) (field : String × Reply) (f : Failure)
    (h : fieldBytes id field = .error f) : f.isCancelled = false := by
  unfold fieldBytes at h
  split at h
  · cases h
  · cases h
    rfl

theorem entry_error (raw : RawEntry) (f : Failure) (h : entry raw = .error f) :
    f.isCancelled = false :=
  mapM_error (fieldBytes_error raw.1) (error_of_map h)

theorem batch_error (raw : String × List RawEntry) (f : Failure) (h : batch raw = .error f) :
    f.isCancelled = false :=
  mapM_error entry_error (error_of_map h)

theorem batches_error {r : Reply} {f : Failure} (h : batches r = .error f) :
    f.isCancelled = false := by
  unfold batches at h
  split at h
  · cases h
    rfl
  · cases h
  · exact mapM_error batch_error (error_of_map h)

/-- A read over a server never fails as if it had been cancelled. -/
theorem answer_read_error {request : ReadRequest} {r : Reply} {f : Failure}
    (h : answer (.read request) r = .error f) :
    f.isCancelled = false := by
  have hother : ∀ refusal, harmless (.read request) refusal = none := fun _ => rfl
  rcases answer_cases hother (r := r) with ⟨-, hr⟩ | ⟨-, reason, hr⟩
  · rw [hr, meaning] at h
    exact batches_error h
  · rw [hr] at h
    cases h
    rfl

end Server

end StreamWorker
