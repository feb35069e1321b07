import Mathlib.Data.List.Forall2
import StreamWorker.Proofs.History.Results

/-! Ids of a stream over a whole history. The clock may jump as it likes: a stream remembers the last id
that it gave, and the next one takes the time of the clock only if that is later, and otherwise counts
on. So the ids of a stream are decided by what the clock showed at its own additions, one after another,
and each is greater than all before it. -/

namespace StreamWorker

namespace Stream

/-! ### Times -/

/-- The times and numbers that follow `p` when the clock shows these, one after another. -/
def times (p : Nat × Nat) : List Nat → List (Nat × Nat)
  | [] => []
  | clock :: clocks => after p clock :: times (after p clock) clocks

variable {p q : Nat × Nat} {clock : Nat} {clocks : List Nat}

theorem clock_le_after (p : Nat × Nat) (clock : Nat) : clock ≤ (after p clock).1 := by
  unfold after
  split
  · exact Nat.le_refl _
  · next h => exact Nat.le_of_not_lt h

theorem times_append (p : Nat × Nat) (clocks more : List Nat) :
    times p (clocks ++ more) = times p clocks ++ times (clocks.foldl after p) more := by
  induction clocks generalizing p with
  | nil => rfl
  | cons clock clocks ih => rw [List.cons_append, times, times, ih, List.cons_append, List.foldl_cons]

theorem earlier_of_mem_times (h : q ∈ times p clocks) : Earlier p q := by
  induction clocks generalizing p with
  | nil => cases h
  | cons clock clocks ih =>
    rcases List.mem_cons.mp h with rfl | h
    · exact earlier_after p clock
    · exact (earlier_after p clock).trans (ih h)

theorem pairwise_times (p : Nat × Nat) (clocks : List Nat) : (times p clocks).Pairwise Earlier := by
  induction clocks generalizing p with
  | nil => exact .nil
  | cons clock clocks ih => exact .cons (fun q hq => earlier_of_mem_times hq) (ih _)

theorem clocks_le_times (p : Nat × Nat) (clocks : List Nat) :
    List.Forall₂ (fun clock q => clock ≤ q.1) clocks (times p clocks) := by
  induction clocks generalizing p with
  | nil => exact .nil
  | cons clock clocks ih => exact .cons (clock_le_after p clock) (ih _)

/-- A time is that of a clock, or the one that the stream began with, and a number counts additions. -/
theorem bounds_of_mem_times (h : q ∈ times p clocks) :
    (q.1 = p.1 ∨ q.1 ∈ clocks) ∧ q.2 ≤ p.2 + clocks.length := by
  induction clocks generalizing p with
  | nil => cases h
  | cons clock clocks ih =>
    have hafter : ((after p clock).1 = p.1 ∨ (after p clock).1 = clock) ∧ (after p clock).2 ≤ p.2 + 1 := by
      unfold after
      split
      · exact ⟨.inr rfl, Nat.zero_le _⟩
      · exact ⟨.inl rfl, Nat.le_refl _⟩
    rw [List.length_cons]
    rcases List.mem_cons.mp h with rfl | h
    · refine ⟨hafter.1.imp_right fun e => ?_, by omega⟩
      rw [e]
      exact List.mem_cons_self
    · obtain ⟨hms, hnumber⟩ := ih h
      refine ⟨?_, by omega⟩
      rcases hms with hms | hms
      · rw [hms]
        refine hafter.1.imp_right fun e => ?_
        rw [e]
        exact List.mem_cons_self
      · exact .inr (List.mem_cons_of_mem _ hms)

/-! ### Ids as texts -/

/-- The time and the number that an id spells: two decimal numbers with a dash between them. -/
def readId (id : String) : Nat × Nat :=
  (Nat.ofDigitChars 10 (id.toList.takeWhile (· ≠ '-')) 0,
    Nat.ofDigitChars 10 (id.toList.dropWhile (· ≠ '-')).tail 0)

theorem readId_idText (m n : Nat) : readId (idText m n) = (m, n) := by
  have hdigits : ∀ c ∈ Nat.toDigits 10 m, decide (c ≠ '-') = true := fun c hc =>
    decide_eq_true fun e => dash_not_mem_toDigits m (e ▸ hc)
  rw [readId, toList_idText, List.takeWhile_append_of_pos hdigits, List.dropWhile_append_of_pos hdigits]
  simp [Nat.ofDigitChars_ten_toDigits]

end Stream

/-! ### What a log says of ids -/

/-- What the clock showed at an addition to a stream, and the id that it was answered by. -/
structure Addition where
  clock : Nat
  id : String
  deriving DecidableEq

/-- The addition to a stream that an operation was. -/
def Occurrence.addition? (o : Occurrence) (stream : String) : Option Addition :=
  match o.op with
  | .append x fields =>
    match (o.store.append o.clock x fields).2 with
    | .answer id => if x = stream then some ⟨o.clock, id⟩ else none
    | _ => none
  | _ => none

namespace Occurrence

variable {o : Occurrence} {stream : String}

theorem addition?_of_append {fields : List (String × Bytes)} (h : o.op = .append stream fields) :
    o.addition? stream = some ⟨o.clock, ((o.store.stream stream).append o.clock fields).2⟩ := by
  rw [addition?, h]
  dsimp only [Store.append]
  rw [if_pos rfl]

theorem addition?_eq_none (h : ∀ fields, o.op ≠ .append stream fields) : o.addition? stream = none := by
  unfold addition?
  split
  · next x fields hop =>
    have hx : x ≠ stream := fun e => h fields (e ▸ hop)
    dsimp only [Store.append]
    rw [if_neg hx]
  · rfl

end Occurrence

/-- The additions to a stream, in order. -/
def Log.additions (l : List Occurrence) (stream : String) : List Addition :=
  l.filterMap fun o => o.addition? stream

theorem Log.additions_snoc (l : List Occurrence) (o : Occurrence) (stream : String) :
    additions (l ++ [o]) stream = additions l stream ++ (o.addition? stream).toList := by
  rw [additions, additions, List.filterMap_append]
  cases h : o.addition? stream <;> simp [h]

/-- The ids of a stream are decided by what the clock showed at its own additions. -/
structure Stream.Numbered (s : Stream) (l : List Addition) : Prop where
  last : (s.lastMillis, s.number) = (l.map (·.clock)).foldl after (0, 0)
  ids : l.map (·.id) = (times (0, 0) (l.map (·.clock))).map fun p => idText p.1 p.2
  entries : s.entries.map (·.id) = l.map (·.id)

theorem Stream.Numbered.append {s : Stream} {l : List Addition} (h : s.Numbered l) (clock : Nat)
    (fields : List (String × Bytes)) :
    (s.append clock fields).1.Numbered (l ++ [⟨clock, (s.append clock fields).2⟩]) := by
  have hid : (s.append clock fields).2 = idText (s.nextId clock).1 (s.nextId clock).2 := rfl
  have hafter : ((s.append clock fields).1.lastMillis, (s.append clock fields).1.number) =
      s.nextId clock := rfl
  have hentries : (s.append clock fields).1.entries.map (·.id) =
      s.entries.map (·.id) ++ [(s.append clock fields).2] := List.map_append
  refine ⟨?_, ?_, ?_⟩
  · rw [hafter, nextId_eq, h.last, List.map_append, List.foldl_append]
    rfl
  · rw [List.map_append, List.map_append, times_append, List.map_append, ← h.ids, ← h.last, hid, nextId_eq]
    rfl
  · rw [hentries, h.entries, List.map_append]
    rfl

theorem Chronicle.numbered {l : List Occurrence} {s : Store} {t : Nat} (h : Chronicle l s t)
    (stream : String) : (s.stream stream).Numbered (Log.additions l stream) := by
  induction h with
  | start => exact ⟨rfl, rfl, rfl⟩
  | quiet _ hsame _ ih => rw [Store.stream_congr hsame.streams]; exact ih
  | perform o _ ih =>
    rw [Log.additions_snoc]
    by_cases hop : ∃ fields, o.op = .append stream fields
    · obtain ⟨fields, hop⟩ := hop
      rw [Occurrence.addition?_of_append hop, Occurrence.after, hop, Store.perform,
        Store.append_stream_self]
      exact ih.append o.clock fields
    · have hnone : o.addition? stream = none :=
        Occurrence.addition?_eq_none fun fields h => hop ⟨fields, h⟩
      rcases Store.perform_stream o.store o.now o.clock o.op stream with ⟨groups, hs⟩ | ⟨fields, h, -⟩
      · rw [hnone, Occurrence.after, hs, Option.toList_none, List.append_nil]
        exact ⟨ih.last, ih.ids, ih.entries⟩
      · exact absurd ⟨fields, h⟩ hop

namespace Stream.Numbered

variable {s s' : Stream} {l l' : List Addition} {a : Addition}

/-- The ids of two streams are the same if the clock showed the same at their additions. -/
theorem eq_of_clocks (h : s.Numbered l) (h' : s'.Numbered l')
    (hc : l'.map (·.clock) = l.map (·.clock)) : l' = l := by
  have hids : l'.map (·.id) = l.map (·.id) := by rw [h'.ids, h.ids, hc]
  have hzip (k : List Addition) : List.zipWith Addition.mk (k.map (·.clock)) (k.map (·.id)) = k := by
    rw [List.zipWith_map, List.zipWith_self, List.map_id']
  rw [← hzip l', ← hzip l, hc, hids]

/-- An id spells the time and the number that it was made of. -/
theorem readIds (h : s.Numbered l) :
    l.map (fun a => readId a.id) = times (0, 0) (l.map (·.clock)) := by
  have hread := congrArg (List.map readId) h.ids
  rw [List.map_map, List.map_map] at hread
  refine hread.trans (List.map_id'' (fun p => ?_) _)
  exact readId_idText p.1 p.2

theorem pairwise (h : s.Numbered l) : l.Pairwise fun a b => Earlier (readId a.id) (readId b.id) := by
  have hp := pairwise_times (0, 0) (l.map (·.clock))
  rw [← h.readIds, List.pairwise_map] at hp
  exact hp

theorem clock_le (h : s.Numbered l) (ha : a ∈ l) : a.clock ≤ (readId a.id).1 := by
  have hc := clocks_le_times (0, 0) (l.map (·.clock))
  rw [← h.readIds, List.forall₂_map_left_iff, List.forall₂_map_right_iff, List.forall₂_same] at hc
  exact hc a ha

theorem mem_times (h : s.Numbered l) (ha : a ∈ l) : readId a.id ∈ times (0, 0) (l.map (·.clock)) := by
  rw [← h.readIds]
  exact List.mem_map_of_mem ha

theorem id_eq (h : s.Numbered l) (ha : a ∈ l) : a.id = idText (readId a.id).1 (readId a.id).2 := by
  have hid : a.id ∈ l.map (·.id) := List.mem_map_of_mem ha
  rw [h.ids] at hid
  obtain ⟨p, -, hp⟩ := List.mem_map.mp hid
  rw [← hp, readId_idText]

theorem nodup (h : s.Numbered l) : (l.map (·.id)).Nodup := by
  rw [List.Nodup, List.pairwise_map]
  refine h.pairwise.imp fun {a b} hlt heq => ?_
  rw [heq] at hlt
  exact hlt.ne rfl

end Stream.Numbered

namespace History

/-- Whatever the clock does, the ids that additions to a stream are answered by, read as a time and a
number, only grow. None of them is earlier than its clock, zero, the same text as another one or
anybody's heartbeat key, and none depends on what happens to other streams. -/
theorem ids_grow (clock : Clock) (es : List Event) (stream : String) :
    let h := (start clock).run es
    let additions := Log.additions h.log stream
    -- every addition has an answer, which is the id of its entry
    (∀ o ∈ h.log, ∀ fields, o.op = .append stream fields →
      ∃ id, o.CameTo (.append stream fields) (.answer id) ∧ o.addition? stream = some ⟨o.clock, id⟩) ∧
    (h.entries stream).map (·.id) = additions.map (·.id) ∧
    additions.Pairwise (fun a b => Stream.Earlier (Stream.readId a.id) (Stream.readId b.id)) ∧
    (additions.map (·.id)).Nodup ∧
    (∀ a ∈ additions, ∃ m n, a.id = Stream.idText m n ∧ Stream.readId a.id = (m, n) ∧
      a.clock ≤ m ∧ (m, n) ≠ (0, 0) ∧ (∀ x, a.id ≠ heartbeatKey x) ∧
      -- so both fit wherever the clock and the number of additions do
      (m = 0 ∨ m ∈ additions.map (·.clock)) ∧ n ≤ additions.length) ∧
    ∀ clock' es', let additions' := Log.additions ((start clock').run es').log stream
      additions'.map (·.clock) = additions.map (·.clock) → additions' = additions := by
  intro h additions
  have hn : (h.world.store.stream stream).Numbered additions := (chronicle clock es).numbered stream
  refine ⟨fun o ho fields hop => ⟨_, ⟨hop, rfl⟩, Occurrence.addition?_of_append hop⟩, hn.entries,
    hn.pairwise, hn.nodup, fun a ha => ⟨_, _, hn.id_eq ha, rfl, hn.clock_le ha, ?_, fun x => ?_, ?_⟩,
    fun clock' es' hc => hn.eq_of_clocks ((chronicle clock' es').numbered stream) hc⟩
  · exact (Stream.earlier_of_mem_times (hn.mem_times ha)).ne
  · rw [hn.id_eq ha]
    exact idText_ne_heartbeatKey _ _ x
  · have hbounds := Stream.bounds_of_mem_times (hn.mem_times ha)
    rw [List.length_map, Nat.zero_add] at hbounds
    exact hbounds

/-- A clock that goes back and forth while two streams are added to. -/
theorem ids_grow_clock_back :
    let h := (start ⟨5, 0⟩).run [.operation (.append "jobs" []), .command (.setClock 3),
      .operation (.append "jobs" []), .operation (.append "more" []), .command (.setClock 9),
      .operation (.append "jobs" [])]
    Log.additions h.log "jobs" = [⟨5, "5-0"⟩, ⟨3, "5-1"⟩, ⟨9, "9-0"⟩] ∧
      Log.additions h.log "more" = [⟨3, "3-0"⟩] ∧
      (Log.additions h.log "jobs").Pairwise
        (fun a b => Stream.Earlier (Stream.readId a.id) (Stream.readId b.id)) := by
  refine ⟨by decide, by decide, ?_⟩
  exact (ids_grow ⟨5, 0⟩ _ "jobs").2.2.1

end History

end StreamWorker
