import StreamWorker.Proofs.History.Chronicle
import StreamWorker.Proofs.Store.Stream

/-! What a group was given over a whole history. The entries that reads took for a group are those of
its stream from where the group was made up to its place, each of them once and in order, and the ids
that are pending are those that were given out and not taken off since. -/

namespace StreamWorker

namespace Occurrence

def gives (o : Occurrence) (stream group : String) : List Entry := o.store.gives stream group o.op

def settles (o : Occurrence) (stream group : String) : Option String :=
  o.store.settles stream group o.op

/-- An operation that could change a group: an acknowledgment of one of its ids, or a read that takes
its answer from the stream, made neither to stall nor to fail. -/
def Touches (o : Occurrence) (stream group : String) : Prop :=
  (o.store.Open .acknowledge ∧ ∃ id, o.op = .acknowledge stream group id) ∨
    o.store.Open .read ∧ o.store.scripted = [] ∧
      ∃ r : ReadRequest, o.op = .read r ∧ r.stream = stream ∧ r.group = group

end Occurrence

theorem Occurrence.share_step (o : Occurrence) (stream group : String) :
    Share.Step (o.store.share stream group) (o.op = .createGroup stream group)
      (o.gives stream group) (o.settles stream group) (o.after.share stream group) :=
  Store.perform_share o.store o.now o.clock o.op stream group

namespace Log

/-- The number of entries that the stream had when the group was first asked for. -/
def foundedAt (l : List Occurrence) (stream group : String) : Option Nat :=
  (l.find? fun o => o.op = .createGroup stream group).map
    fun o => (o.store.share stream group).entries.length

/-- The entries that were given out for a group, in order. -/
def given (l : List Occurrence) (stream group : String) : List Entry :=
  l.flatMap fun o => o.gives stream group

/-- The ids whose acknowledgment to a group was answered by one, in order. -/
def settled (l : List Occurrence) (stream group : String) : List String :=
  l.filterMap fun o => o.settles stream group

variable (l : List Occurrence) (o : Occurrence) (stream group : String)

theorem foundedAt_snoc : foundedAt (l ++ [o]) stream group =
    (foundedAt l stream group).or
      (if o.op = .createGroup stream group then some (o.store.share stream group).entries.length
        else none) := by
  rw [foundedAt, foundedAt, List.find?_append]
  cases l.find? fun o => o.op = .createGroup stream group with
  | some p => rfl
  | none => by_cases h : o.op = .createGroup stream group <;> simp [h]

theorem given_snoc : given (l ++ [o]) stream group = given l stream group ++ o.gives stream group := by
  simp [given]

theorem settled_snoc :
    settled (l ++ [o]) stream group = settled l stream group ++ (o.settles stream group).toList := by
  rw [settled, settled, List.filterMap_append]
  cases h : o.settles stream group <;> simp [h]

end Log

/-! ### Accounts -/

/-- A group that was made when its stream had `first` entries was given `given`, and `settled` were
taken off its pending ids. -/
structure Served (es : List Entry) (g : Group) (first : Nat) (given : List Entry)
    (settled : List String) : Prop where
  first_le : first ≤ g.next
  next_le : g.next ≤ es.length
  given_eq : given = (es.take g.next).drop first
  pending_iff : ∀ id, g.pending.contains id = true ↔ id ∈ given.map (·.id) ∧ id ∉ settled
  settled_given : ∀ id ∈ settled, id ∈ given.map (·.id)
  nodup : settled.Nodup

theorem take_drop_append {α : Type} (l : List α) {a b c : Nat} (hab : a ≤ b) (hbc : b ≤ c) :
    (l.take b).drop a ++ (l.take c).drop b = (l.take c).drop a := by
  have hb : l.take b = (l.take c).take b := by rw [List.take_take, Nat.min_eq_left hbc]
  have ha : (l.take c).drop b = ((l.take c).drop a).drop (b - a) := by
    rw [List.drop_drop, Nat.add_sub_cancel' hab]
  have ht : ((l.take c).take b).drop a = ((l.take c).drop a).take (b - a) := List.drop_take
  rw [hb, ha, ht, List.take_append_drop]

namespace Served

variable {es : List Entry} {g : Group} {first : Nat} {given : List Entry} {settled : List String}

theorem append (h : Served es g first given settled) (e : Entry) :
    Served (es ++ [e]) g first given settled :=
  { h with
    next_le := by
      have := h.next_le
      rw [List.length_append]
      omega
    given_eq := by rw [h.given_eq, List.take_append_of_le_length h.next_le] }

/-- The ids that are given out are new: no two entries share one. -/
theorem give (h : Served es g first given settled) {stop : Nat} (member : String)
    (hlt : g.next < stop) (hle : stop ≤ es.length) (hu : (es.map (·.id)).Nodup) :
    Served es ⟨stop, Stream.markPending g.pending member ((es.take stop).drop g.next)⟩ first
      (given ++ (es.take stop).drop g.next) settled := by
  have hall : given ++ (es.take stop).drop g.next = (es.take stop).drop first := by
    rw [h.given_eq, take_drop_append es h.first_le (Nat.le_of_lt hlt)]
  have hsub : ((es.take stop).drop first).Sublist es :=
    (List.drop_sublist ..).trans (List.take_sublist ..)
  have hnd : ((given ++ (es.take stop).drop g.next).map (·.id)).Nodup := by
    rw [hall]
    exact hu.sublist (hsub.map _)
  rw [List.map_append, List.nodup_append] at hnd
  refine ⟨Nat.le_trans h.first_le (Nat.le_of_lt hlt), hle, hall, fun id => ?_, fun id hid => ?_, h.nodup⟩
  · rw [Stream.contains_markPending, h.pending_iff, List.map_append, List.mem_append]
    constructor
    · rintro (hn | ⟨hg, hs⟩)
      · have hns : id ∉ settled := fun hs => hnd.2.2 id (h.settled_given id hs) id hn rfl
        exact ⟨.inr hn, hns⟩
      · exact ⟨.inl hg, hs⟩
    · rintro ⟨hg | hn, hs⟩
      · exact .inr ⟨hg, hs⟩
      · exact .inl hn
  · rw [List.map_append]
    exact List.mem_append_left _ (h.settled_given id hid)

theorem settle (h : Served es g first given settled) {id : String}
    (hp : g.pending.contains id = true) :
    Served es { g with pending := g.pending.erase id } first given (settled ++ [id]) := by
  obtain ⟨hg, hs⟩ := (h.pending_iff id).mp hp
  refine ⟨h.first_le, h.next_le, h.given_eq, fun id' => ?_, fun id' hid => ?_, ?_⟩
  · rw [Table.contains_erase, h.pending_iff, List.mem_append, List.mem_singleton, not_or]
    constructor
    · rintro ⟨hne, hg', hs'⟩
      exact ⟨hg', hs', fun e => hne e.symm⟩
    · rintro ⟨hg', hs', hne⟩
      exact ⟨fun e => hne e.symm, hg', hs'⟩
  · rcases List.mem_append.mp hid with hid | hid
    · exact h.settled_given id' hid
    · rw [List.mem_singleton.mp hid]
      exact hg
  · rw [List.nodup_append]
    refine ⟨h.nodup, List.pairwise_singleton .., fun a ha b hb e => ?_⟩
    rw [e, List.mem_singleton.mp hb] at ha
    exact hs ha

end Served

/-- What a log says of a group is so: a group that nobody asked for was given nothing, and any other was
served from where it was made. -/
def Share.Accounts (v : Share) (first : Option Nat) (given : List Entry) (settled : List String) :
    Prop :=
  match first with
  | none => v.group = none ∧ given = [] ∧ settled = []
  | some n => ∃ g, v.group = some g ∧ Served v.entries g n given settled

theorem Share.Accounts.step {v v' : Share} {first : Option Nat} {given new : List Entry}
    {settled : List String} {asked : Bool} {id : Option String}
    (h : v.Accounts first given settled) (hs : Share.Step v asked new id v')
    (hu : (v.entries.map (·.id)).Nodup) :
    v'.Accounts (first.or (if asked then some v.entries.length else none)) (given ++ new)
      (settled ++ id.toList) := by
  cases first with
  | none =>
    obtain ⟨hg, rfl, rfl⟩ := h
    cases hs with
    | idle ha =>
      cases asked with
      | false => exact ⟨hg, rfl, rfl⟩
      | true => simp [hg] at ha
    | append v e => exact ⟨hg, rfl, rfl⟩
    | found es =>
      refine ⟨_, rfl, Nat.le_refl _, Nat.le_refl _, ?_, fun id => ?_, ?_, List.nodup_nil⟩
      · rw [List.nil_append, List.take_length, List.drop_length]
      · simp [Table.contains]
      · simp
    | give => cases hg
    | settle => cases hg
  | some n =>
    obtain ⟨g, hg, hv⟩ := h
    rw [Option.some_or]
    cases hs with
    | idle ha => exact ⟨g, hg, by simpa using hv⟩
    | append v e => exact ⟨g, hg, by simpa using hv.append e⟩
    | found es => cases hg
    | give member hlt hle =>
      cases hg
      exact ⟨_, rfl, by simpa using hv.give member hlt hle hu⟩
    | settle hp =>
      cases hg
      exact ⟨_, rfl, by simpa using hv.settle hp⟩

namespace Chronicle

variable {l : List Occurrence} {s : Store} {t : Nat}

theorem ascending (h : Chronicle l s t) (name : String) : (s.stream name).Ascending := by
  induction h with
  | start => exact Stream.ascending_empty
  | quiet _ hsame _ ih => rw [Store.stream_congr hsame.streams]; exact ih
  | perform o _ ih => exact Store.perform_ascending ih

/-- The log accounts for every group of every stream. -/
theorem accounts (h : Chronicle l s t) (stream group : String) :
    (s.share stream group).Accounts (Log.foundedAt l stream group) (Log.given l stream group)
      (Log.settled l stream group) := by
  induction h with
  | start => exact ⟨rfl, rfl, rfl⟩
  | quiet _ hsame _ ih => rw [Store.share_congr hsame.streams]; exact ih
  | perform o hp ih =>
    have hs := o.share_step stream group
    have hu := (hp.ascending stream).nodup
    rw [Log.foundedAt_snoc, Log.given_snoc, Log.settled_snoc]
    simpa using ih.step hs hu

/-- Whatever a group was given is in its stream. -/
theorem mem_of_given {stream group : String} {e : Entry} (h : Chronicle l s t)
    (he : e ∈ Log.given l stream group) : e ∈ (s.stream stream).entries := by
  have hacc := h.accounts stream group
  unfold Share.Accounts at hacc
  split at hacc
  · rw [hacc.2.1] at he
    cases he
  · obtain ⟨g, -, hv⟩ := hacc
    rw [hv.given_eq] at he
    exact List.mem_of_mem_take (List.mem_of_mem_drop he)

/-- No id is given out twice. -/
theorem nodup_given (h : Chronicle l s t) (stream group : String) :
    ((Log.given l stream group).map (·.id)).Nodup := by
  have hacc := h.accounts stream group
  unfold Share.Accounts at hacc
  split at hacc
  · rw [hacc.2.1]
    exact List.nodup_nil
  · obtain ⟨g, -, hv⟩ := hacc
    have hsub : (Log.given l stream group).Sublist (s.stream stream).entries := by
      rw [hv.given_eq]
      exact (List.drop_sublist ..).trans (List.take_sublist ..)
    exact (h.ascending stream).nodup.sublist (hsub.map _)

/-- The pending ids are those of the entries that were given out and not taken off since. -/
theorem pending_iff (h : Chronicle l s t) {stream group id : String} :
    id ∈ s.pending stream group ↔
      id ∈ (Log.given l stream group).map (·.id) ∧ id ∉ Log.settled l stream group := by
  have hacc := h.accounts stream group
  rw [Store.mem_pending]
  unfold Share.Accounts at hacc
  split at hacc
  · obtain ⟨hg, hgiven, -⟩ := hacc
    rw [hgiven]
    constructor
    · rintro ⟨g, hg', -⟩
      cases hg.symm.trans hg'
    · rintro ⟨hm, -⟩
      cases hm
  · obtain ⟨g, hg, hv⟩ := hacc
    rw [← hv.pending_iff id]
    constructor
    · rintro ⟨g', hg', hp⟩
      rwa [← Option.some.inj (hg.symm.trans hg')] at hp
    · exact fun hp => ⟨g, hg, hp⟩

end Chronicle

/-! ### Entries and groups from one state to the next -/

theorem Occurrence.group_of_untouched {o : Occurrence} {stream group : String}
    (h : ¬ o.Touches stream group) (hg : (o.store.share stream group).group.isSome) :
    (o.after.share stream group).group = (o.store.share stream group).group := by
  have hgives : o.gives stream group = [] :=
    (Store.gives_eq_nil_or o.store stream group o.op).resolve_right fun hr => h (.inr hr)
  have hsettles : o.settles stream group = none :=
    (Store.settles_eq_none_or o.store stream group o.op).resolve_right fun hr => h (.inl hr)
  exact (o.share_step stream group).group_eq hgives hsettles hg

/-- An entry that was given out came in one answer only. -/
theorem Log.given_once {l : List Occurrence} {stream group : String} {e : Entry}
    (hu : (given l stream group).Nodup) (he : e ∈ given l stream group) :
    ∃ l₁ o l₂, l = l₁ ++ o :: l₂ ∧ e ∈ o.gives stream group ∧
      ∀ p ∈ l₁ ++ l₂, e ∉ p.gives stream group := by
  obtain ⟨o, ho, heo⟩ := List.mem_flatMap.mp he
  obtain ⟨l₁, l₂, rfl⟩ := List.append_of_mem ho
  have hsplit : given (l₁ ++ o :: l₂) stream group =
      given l₁ stream group ++ (o.gives stream group ++ given l₂ stream group) := by
    simp [given]
  rw [hsplit, List.nodup_append, List.nodup_append] at hu
  obtain ⟨-, ⟨-, -, hafter⟩, hbefore⟩ := hu
  refine ⟨l₁, o, l₂, rfl, heo, fun p hp hep => ?_⟩
  rcases List.mem_append.mp hp with hp | hp
  · have hp' : e ∈ given l₁ stream group := List.mem_flatMap.mpr ⟨p, hp, hep⟩
    exact hbefore e hp' e (List.mem_append_left _ heo) rfl
  · have hp' : e ∈ given l₂ stream group := List.mem_flatMap.mpr ⟨p, hp, hep⟩
    exact hafter e heo e hp' rfl

namespace History

/-- The entries of a stream. -/
def entries (h : History) (stream : String) : List Entry := (h.world.store.stream stream).entries

theorem next_entries (h : History) (e : Event) (stream : String) :
    h.entries stream <+: (h.next e).entries stream := by
  rcases h.next_log e with ⟨-, hs⟩ | ⟨asker, op, -, hs⟩
  · have he : (h.next e).entries stream = h.entries stream :=
      congrArg Stream.entries (Store.stream_congr hs.streams)
    exact he ▸ List.prefix_refl _
  · rw [entries, entries, hs]
    exact ((h.occurrence asker op).share_step stream "").entries_kept

/-- Entries stay what they are and where they are. -/
theorem run_entries (h : History) (es : List Event) (stream : String) :
    h.entries stream <+: (h.run es).entries stream :=
  run_induction (P := fun h' => h.entries stream <+: h'.entries stream) (List.prefix_refl _)
    (fun h' e hp => hp.trans (next_entries h' e stream)) es

theorem next_group {h : History} {e : Event} {stream group : String}
    (hn : ∀ o, (h.next e).log = h.log ++ [o] → ¬ o.Touches stream group)
    (hg : (h.world.store.share stream group).group.isSome) :
    ((h.next e).world.store.share stream group).group =
      (h.world.store.share stream group).group := by
  rcases h.next_log e with ⟨-, hs⟩ | ⟨asker, op, hl, hs⟩
  · rw [Store.share_congr hs.streams]
  · rw [hs]
    exact Occurrence.group_of_untouched (hn _ hl) hg

/-! ### Delivery -/

/-- How a group `g` stands that was made when its stream had `first` entries. -/
structure Delivers (h : History) (stream group : String) (first : Nat) (g : Group) : Prop where
  here : (h.world.store.stream stream).groups.get? group = some g
  first_le : first ≤ g.next
  next_le : g.next ≤ (h.entries stream).length
  /-- What was given out so far is a part of the stream, in its order. -/
  given : Log.given h.log stream group = ((h.entries stream).take g.next).drop first
  /-- Each entry was given to one member, in one answer. -/
  once : ∀ e ∈ Log.given h.log stream group, ∃ l₁ o l₂, h.log = l₁ ++ o :: l₂ ∧
    e ∈ o.gives stream group ∧ ∀ p ∈ l₁ ++ l₂, e ∉ p.gives stream group
  nodup : ((Log.given h.log stream group).map (·.id)).Nodup
  pending : ∀ id, id ∈ h.world.store.pending stream group ↔
    id ∈ (Log.given h.log stream group).map (·.id) ∧ id ∉ Log.settled h.log stream group
  /-- No id was taken off twice. -/
  settled : (Log.settled h.log stream group).Nodup
  /-- No entry is ever changed, removed or moved. -/
  kept : ∀ es, h.entries stream <+: (h.run es).entries stream
  /-- The group stays as it is unless it is read or acknowledged to. -/
  untouched : ∀ e, (∀ o, (h.next e).log = h.log ++ [o] → ¬ o.Touches stream group) →
    ((h.next e).world.store.stream stream).groups.get? group = some g
  /-- A read gives out the next entries, as many as it asks for, and says so if there are none. If its
  count leads so far that it has no sum with the place of the group in 64 bits, it breaks off. -/
  read : ∀ r : ReadRequest, r.stream = stream → r.group = group →
    h.world.store.Open .read → h.world.store.scripted = [] →
    let last := g.next + max r.count.toNat 1
    let stop := min (h.entries stream).length last
    (UInt64.size ≤ last → h.world.store.read r =
      ({ h.world.store with lastRead := some r }, .broken .beyondCount)) ∧
    (last < UInt64.size → stop ≤ g.next → h.world.store.read r =
      ({ h.world.store with lastRead := some r }, .answer none)) ∧
    (last < UInt64.size → g.next < stop →
      (h.world.store.read r).2 =
        .answer (some [⟨stream, ((h.entries stream).take stop).drop g.next⟩]) ∧
      (h.world.store.read r).1.share stream group = ⟨h.entries stream,
        some ⟨stop, Stream.markPending g.pending r.member
          (((h.entries stream).take stop).drop g.next)⟩⟩)

/-- Whatever happens, a group is given every entry that is added after it was made, in order, each to
one member in one answer, and its pending ids are those that were given out and not taken off. A read that
breaks off gives nothing out, and the group stays where it is. -/
theorem group_delivers (clock : Clock) (es : List Event) (stream group : String) (first : Nat)
    (hf : Log.foundedAt ((start clock).run es).log stream group = some first) :
    ∃ g, ((start clock).run es).Delivers stream group first g := by
  have hc := chronicle clock es
  have hacc := hc.accounts stream group
  have hids := (hc.ascending stream).nodup
  generalize (start clock).run es = h at *
  rw [hf] at hacc
  obtain ⟨g, hg, hv⟩ := hacc
  have hsub : (Log.given h.log stream group).Sublist (h.entries stream) := by
    rw [hv.given_eq]
    exact (List.drop_sublist ..).trans (List.take_sublist ..)
  have hnodup : ((Log.given h.log stream group).map (·.id)).Nodup := hids.sublist (hsub.map _)
  have hsome : (h.world.store.share stream group).group.isSome := by rw [hg]; rfl
  refine ⟨g, hg, hv.first_le, hv.next_le, hv.given_eq, fun e he => ?_, hnodup, fun id => ?_, hv.nodup,
    fun es => run_entries h es stream, fun e hn => ?_, fun r hrs hrg ho hsc => ?_⟩
  · have hne (a b : Entry) (hab : a.id ≠ b.id) : a ≠ b := fun hab' => hab (congrArg Entry.id hab')
    exact Log.given_once (List.Pairwise.of_map _ hne hnodup) he
  · rw [← hv.pending_iff id, Store.pending, Stream.mem_pendingIds]
    constructor
    · rintro ⟨g', hg', hp⟩
      rw [← Option.some.inj (hg.symm.trans hg')] at hp
      exact hp
    · intro hp
      exact ⟨g, hg, hp⟩
  · have hnext := next_group hn hsome
    rw [hg] at hnext
    exact hnext
  · subst hrs hrg
    exact ⟨Store.read_beyond ho hsc hg, fun hfit => (Store.read_exact ho hsc hg hfit).1,
      fun hfit => (Store.read_exact ho hsc hg hfit).2⟩

/-- A group that is made after one entry, asked for again, read and acknowledged to. -/
theorem group_delivers_made_after_one :
    ∃ g, ((start ⟨5, 0⟩).run [.operation (.append "jobs" []), .operation (.createGroup "jobs" "team"),
      .operation (.append "jobs" []), .operation (.append "jobs" []),
      .operation (.createGroup "jobs" "team"),
      .operation (.read ⟨"jobs", "team", "a", 1, readBlock⟩),
      .operation (.acknowledge "jobs" "team" "5-1")]).Delivers "jobs" "team" 1 g :=
  group_delivers ⟨5, 0⟩ _ "jobs" "team" 1 (by decide)

end History

end StreamWorker
