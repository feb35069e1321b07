import StreamWorker.Proofs.Store.Memory
import StreamWorker.Proofs.Text.Digits

/-! What operations do to the entries of a stream and to one of its groups. Ids only grow, so no two
entries of a stream have the same one. A group sees entries added at the end, is made once, is given the
next entries, and has ids taken off its pending ones; whatever else happens leaves it as it is. -/

namespace StreamWorker

namespace Stream

/-! ### Ids -/

theorem toList_idText (m n : Nat) :
    (idText m n).toList = Nat.toDigits 10 m ++ '-' :: Nat.toDigits 10 n := by
  have h : toString "-" = "-" := rfl
  simp [idText, h]

theorem dash_not_mem_toDigits (n : Nat) : '-' ∉ Nat.toDigits 10 n :=
  Text.notMem_toDigits (by decide) (by decide) n

theorem idText_inj {m n m' n' : Nat} (h : idText m n = idText m' n') : m = m' ∧ n = n' := by
  have hl := congrArg String.toList h
  rw [toList_idText, toList_idText] at hl
  obtain ⟨hm, hn⟩ := Text.append_cons_inj (dash_not_mem_toDigits m) (dash_not_mem_toDigits m') hl
  exact ⟨Text.toDigits_inj (by decide) (by decide) hm, Text.toDigits_inj (by decide) (by decide) hn⟩

/-- The order in which ids are given. -/
def Earlier (p q : Nat × Nat) : Prop := p.1 < q.1 ∨ p.1 = q.1 ∧ p.2 < q.2

theorem Earlier.trans {p q r : Nat × Nat} (h : Earlier p q) (h' : Earlier q r) : Earlier p r := by
  unfold Earlier at *
  omega

theorem Earlier.ne {p q : Nat × Nat} (h : Earlier p q) : q ≠ p := by
  rintro rfl
  unfold Earlier at h
  omega

/-- The time and the number that follow `p` when the clock shows `clock` milliseconds. -/
def after (p : Nat × Nat) (clock : Nat) : Nat × Nat :=
  if p.1 < clock then (clock, 0) else (p.1, p.2 + 1)

theorem nextId_eq (s : Stream) (clock : Nat) : s.nextId clock = after (s.lastMillis, s.number) clock := rfl

theorem earlier_after (p : Nat × Nat) (clock : Nat) : Earlier p (after p clock) := by
  unfold after Earlier
  split
  · next h => exact .inl h
  · exact .inr ⟨rfl, Nat.lt_succ_self _⟩

/-- Ids were given in increasing order, up to the one that is remembered. -/
def Ascending (s : Stream) : Prop :=
  ∃ ps : List (Nat × Nat), s.entries.map (·.id) = ps.map (fun p => idText p.1 p.2) ∧
    ps.Pairwise Earlier ∧ ∀ p ∈ ps, p = (s.lastMillis, s.number) ∨ Earlier p (s.lastMillis, s.number)

theorem ascending_empty : Ascending {} := ⟨[], rfl, .nil, by simp⟩

theorem Ascending.append {s : Stream} (h : s.Ascending) (clock : Nat)
    (fields : List (String × Bytes)) : (s.append clock fields).1.Ascending := by
  obtain ⟨ps, hids, hp, hlast⟩ := h
  have hnew : Earlier (s.lastMillis, s.number) (s.nextId clock) := earlier_after _ clock
  have hall (p : Nat × Nat) (hm : p ∈ ps) : Earlier p (s.nextId clock) := by
    rcases hlast p hm with rfl | hp
    · exact hnew
    · exact hp.trans hnew
  refine ⟨ps ++ [s.nextId clock], ?_, ?_, ?_⟩
  · simp [Stream.append, hids]
  · rw [List.pairwise_append]
    refine ⟨hp, List.pairwise_singleton .., fun p hm q hq => ?_⟩
    rw [List.mem_singleton.mp hq]
    exact hall p hm
  · intro p hm
    rcases List.mem_append.mp hm with hm | hm
    · exact .inr (hall p hm)
    · exact .inl (List.mem_singleton.mp hm)

/-- No two entries have the same id. -/
theorem Ascending.nodup {s : Stream} (h : s.Ascending) : (s.entries.map (·.id)).Nodup := by
  obtain ⟨ps, hids, hp, -⟩ := h
  rw [hids, List.Nodup, List.pairwise_map]
  refine hp.imp fun {p q} he hid => ?_
  obtain ⟨h1, h2⟩ := idText_inj hid
  rcases he with he | ⟨-, he⟩ <;> omega

theorem Ascending.id_eq {s : Stream} {e : Entry} (h : s.Ascending) (he : e ∈ s.entries) :
    ∃ m n, e.id = idText m n := by
  obtain ⟨ps, hids, -, -⟩ := h
  have hid : e.id ∈ s.entries.map (·.id) := List.mem_map_of_mem he
  rw [hids] at hid
  obtain ⟨p, -, hp⟩ := List.mem_map.mp hid
  exact ⟨p.1, p.2, hp.symm⟩

/-- An id names one entry of its stream. -/
theorem Ascending.eq_of_id {s : Stream} {e e' : Entry} (h : s.Ascending) (he : e ∈ s.entries)
    (he' : e' ∈ s.entries) (hid : e.id = e'.id) : e = e' := by
  obtain ⟨i, hi, rfl⟩ := List.getElem_of_mem he
  obtain ⟨j, hj, rfl⟩ := List.getElem_of_mem he'
  have hi' : i < (s.entries.map (·.id)).length := by rwa [List.length_map]
  have hj' : j < (s.entries.map (·.id)).length := by rwa [List.length_map]
  have hids : (s.entries.map (·.id))[i] = (s.entries.map (·.id))[j] := by
    rw [List.getElem_map, List.getElem_map, hid]
  rw [List.getElem_inj h.nodup] at hids
  subst hids
  rfl

/-! ### Groups -/

theorem contains_markPending (pending : Table String String) (member : String) (entries : List Entry)
    (id : String) : (markPending pending member entries).contains id = true ↔
      id ∈ entries.map (·.id) ∨ pending.contains id = true := by
  induction entries generalizing pending with
  | nil => simp [markPending]
  | cons e l ih =>
    have hc : markPending pending member (e :: l) = markPending (pending.insert e.id member) member l :=
      rfl
    rw [hc, ih, Table.contains_insert, List.map_cons, List.mem_cons]
    constructor
    · rintro (h | h | h)
      · exact .inl (.inr h)
      · exact .inl (.inl h.symm)
      · exact .inr h
    · rintro ((h | h) | h)
      · exact .inr (.inl h.symm)
      · exact .inl h
      · exact .inr (.inr h)

/-- A read of no entries counts as a read of one. -/
theorem toNat_max_one (count : UInt64) : (max count 1).toNat = max count.toNat 1 := by
  have hc : count ≤ 1 ↔ count.toNat ≤ 1 := UInt64.le_iff_toNat_le
  have h1 : (1 : UInt64).toNat = 1 := rfl
  rw [show max count 1 = if count ≤ 1 then 1 else count from rfl]
  split
  · next hle => rw [h1, Nat.max_eq_right (hc.mp hle)]
  · next hle => rw [Nat.max_eq_left (by have := mt hc.mpr hle; omega)]

/-- While the sum of the place and the count stays below `2 ^ 64`, a read of no entries counts as a read
of one, and any other ends where its count or the stream does. -/
theorem readEnd_of_lt {length next : Nat} {count : UInt64} (h : next + max count.toNat 1 < UInt64.size) :
    readEnd length next count = .ok (min length (next + max count.toNat 1)) := by
  rw [← toNat_max_one] at h ⊢
  exact if_pos h

theorem readEnd_of_le {length next : Nat} {count : UInt64} (h : UInt64.size ≤ next + max count.toNat 1) :
    readEnd length next count = .error .beyondCount := by
  rw [← toNat_max_one] at h
  exact if_neg (Nat.not_lt.mpr h)

theorem take_of_lt {s : Stream} {g : Group} {member : String} {count : UInt64}
    (h : g.next + max count.toNat 1 < UInt64.size) :
    let stop := min s.entries.length (g.next + max count.toNat 1)
    let given := (s.entries.take stop).drop g.next
    s.take g member count = .ok (if stop ≤ g.next then none
      else some (⟨stop, markPending g.pending member given⟩, given)) := by
  intro stop given
  rw [take, readEnd_of_lt h]
  rfl

theorem take_of_le {s : Stream} {g : Group} {member : String} {count : UInt64}
    (h : UInt64.size ≤ g.next + max count.toNat 1) :
    s.take g member count = .error .beyondCount := by
  rw [take, readEnd_of_le h]
  rfl

theorem mem_pendingIds (s : Stream) (group id : String) :
    id ∈ s.pendingIds group ↔ ∃ g, s.groups.get? group = some g ∧ g.pending.contains id = true := by
  unfold pendingIds
  cases s.groups.get? group with
  | none => simp
  | some g => simp [List.mem_mergeSort, Table.mem_keys]

end Stream

/-! ### What a group sees -/

/-- The entries of a stream, and one of its groups once it was made. -/
structure Share where
  entries : List Entry
  group : Option Group

def Store.share (s : Store) (stream group : String) : Share :=
  ⟨(s.stream stream).entries, (s.stream stream).groups.get? group⟩

/-- What an operation can do to a share: whether it asked to make the group, the entries that it gave
out, and the id that it took off the pending ones. -/
inductive Share.Step : Share → Bool → List Entry → Option String → Share → Prop where
  | idle {v : Share} {asked : Bool} : (asked = true → v.group.isSome) → Step v asked [] none v
  | append (v : Share) (e : Entry) : Step v false [] none { v with entries := v.entries ++ [e] }
  | found (es : List Entry) : Step ⟨es, none⟩ true [] none ⟨es, some { next := es.length }⟩
  | give {es : List Entry} {g : Group} {stop : Nat} (member : String) :
    g.next < stop → stop ≤ es.length →
    Step ⟨es, some g⟩ false ((es.take stop).drop g.next) none
      ⟨es, some ⟨stop, Stream.markPending g.pending member ((es.take stop).drop g.next)⟩⟩
  | settle {es : List Entry} {g : Group} {id : String} : g.pending.contains id = true →
    Step ⟨es, some g⟩ false [] (some id) ⟨es, some { g with pending := g.pending.erase id }⟩

namespace Share.Step

variable {v v' : Share} {asked : Bool} {new : List Entry} {id : Option String}

/-- Entries are added at the end, and none is taken away or changed. -/
theorem entries_kept (h : Step v asked new id v') : v.entries <+: v'.entries := by
  cases h with
  | append v e => exact List.prefix_append ..
  | _ => exact List.prefix_refl _

/-- A group that is given nothing and asked to take nothing off stays as it is. -/
theorem group_eq (h : Step v asked new id v') (hnew : new = []) (hid : id = none)
    (hg : v.group.isSome) : v'.group = v.group := by
  cases h with
  | idle => rfl
  | append => rfl
  | found => cases hg
  | give member hlt hle =>
    have hlen := congrArg List.length hnew
    rw [List.length_drop, List.length_take, List.length_nil] at hlen
    omega
  | settle => cases hid

end Share.Step

namespace Store

/-- The entries that an operation gives out of a stream for a group. An answer that was given in advance
takes nothing from any stream. -/
def gives (s : Store) (stream group : String) : Operation → List Entry
  | .read r =>
    if r.stream = stream ∧ r.group = group ∧ s.scripted = [] then
      match (s.read r).2 with
      | .answer (some batches) => batches.flatMap (·.entries)
      | _ => []
    else []
  | _ => []

/-- The id that an operation takes off the pending ones of a group. -/
def settles (s : Store) (stream group : String) : Operation → Option String
  | .acknowledge x g id =>
    if x = stream ∧ g = group ∧ (s.acknowledge x g id).2 = .answer 1 then some id else none
  | _ => none

variable {s : Store} {stream group : String}

theorem stream_insert {streams : Table String Stream} {name : String} {st : Stream} {t : Store}
    (ht : t.streams = streams.insert name st) (hs : streams = s.streams) :
    t.stream stream = if name = stream then st else s.stream stream := by
  rw [Store.stream, ht, Table.getD, Table.get?_insert, hs]
  split <;> rfl

theorem stream_congr {t : Store} (h : t.streams = s.streams) : t.stream stream = s.stream stream := by
  rw [Store.stream, h]
  rfl

theorem append_stream_self (s : Store) (clock : Nat) (stream : String) (fields : List (String × Bytes)) :
    (s.append clock stream fields).1.stream stream = ((s.stream stream).append clock fields).1 := by
  have h : (s.append clock stream fields).1.streams =
      s.streams.insert stream ((s.stream stream).append clock fields).1 := rfl
  rw [stream_insert h rfl, if_pos rfl]

theorem share_congr {t : Store} (h : t.streams = s.streams) :
    t.share stream group = s.share stream group := by
  rw [share, share, stream_congr h]

theorem stream_of_get? {st : Stream} (h : s.streams.get? stream = some st) : s.stream stream = st := by
  rw [Store.stream, Table.getD, h]
  rfl

/-- The streams of which a store knows nothing are empty and have no groups. -/
theorem get?_of_group {g : Group} (h : (s.stream stream).groups.get? group = some g) :
    s.streams.get? stream = some (s.stream stream) := by
  rw [Store.stream, Table.getD] at *
  cases hs : s.streams.get? stream with
  | none => rw [hs] at h; cases h
  | some st => rfl

/-! ### Reads -/

end Store

theorem Stream.take_eq_some {s : Stream} {g g' : Group} {member : String} {count : UInt64}
    {given : List Entry} (h : s.take g member count = .ok (some (g', given))) :
    ∃ stop, g.next < stop ∧ stop ≤ s.entries.length ∧ given = (s.entries.take stop).drop g.next ∧
      g' = ⟨stop, markPending g.pending member given⟩ := by
  rcases Nat.lt_or_ge (g.next + max count.toNat 1) UInt64.size with hlt | hge
  · rw [take_of_lt hlt] at h
    split at h
    · cases h
    · next hn =>
      cases h
      exact ⟨_, Nat.lt_of_not_le hn, Nat.min_le_left .., rfl, rfl⟩
  · rw [take_of_le hge] at h
    cases h

namespace Store

variable {s : Store} {stream group : String}

/-- An open read that no answer was given for in advance takes the next entries of its group. -/
theorem read_of_open {r : ReadRequest} (ho : s.Open .read) (hs : s.scripted = []) :
    s.read r = ({ s with lastRead := some r } : Store).deliver r := by
  have ho' : ({ s with lastRead := some r } : Store).Open .read := ho
  rw [read, gate_of_open ho']
  dsimp only
  rw [hs]

theorem deliver_of_group {r : ReadRequest} {g : Group}
    (hg : (s.stream r.stream).groups.get? r.group = some g) :
    s.deliver r = match (s.stream r.stream).take g r.member r.count with
      | .error b => (s, .broken b)
      | .ok none => (s, .answer none)
      | .ok (some (g', given)) =>
        ({ s with
            streams := s.streams.insert r.stream
              { s.stream r.stream with groups := (s.stream r.stream).groups.insert r.group g' } },
          .answer (some [⟨r.stream, given⟩])) := by
  rcases ht : (s.stream r.stream).take g r.member r.count with b | _ | ⟨g', given⟩ <;>
    simp only [deliver, get?_of_group hg, hg, ht]

/-- A read gives out the next entries of a group, or it leaves the streams alone. -/
theorem read_cases (s : Store) (r : ReadRequest) :
    ((s.read r).1.streams = s.streams ∧
      (s.scripted = [] → ∀ batches, (s.read r).2 ≠ .answer (some batches))) ∨
      ∃ g g' given, s.Open .read ∧ s.scripted = [] ∧
        (s.stream r.stream).groups.get? r.group = some g ∧
        (s.stream r.stream).take g r.member r.count = .ok (some (g', given)) ∧
        (s.read r).1.streams = s.streams.insert r.stream
          { s.stream r.stream with groups := (s.stream r.stream).groups.insert r.group g' } ∧
        (s.read r).2 = .answer (some [⟨r.stream, given⟩]) := by
  rcases fault_cases { s with lastRead := some r } .read with hs | ⟨reason, hs, hf⟩ | ho
  · left; rw [read, gate_of_stalled hs]; exact ⟨rfl, by simp⟩
  · left; rw [read, gate_of_failing hs hf]; exact ⟨rfl, by simp⟩
  · cases hc : s.scripted with
    | cons reply rest =>
      left
      rw [read, gate_of_open ho]
      dsimp only
      rw [hc]
      exact ⟨rfl, by simp⟩
    | nil =>
      have ho' : s.Open .read := ho
      rw [read_of_open ho' hc]
      cases hg : (s.stream r.stream).groups.get? r.group with
      | none =>
        left
        have hd : ({ s with lastRead := some r } : Store).deliver r =
            ({ s with lastRead := some r }, .failure (noGroup r.stream r.group)) := by
          unfold deliver
          split
          · rfl
          · next st hst =>
            have hst' : s.stream r.stream = st := stream_of_get? hst
            rw [← hst', hg]
        rw [hd]
        exact ⟨rfl, by simp⟩
      | some g =>
        have hg' : (({ s with lastRead := some r } : Store).stream r.stream).groups.get? r.group = some g :=
          hg
        rw [deliver_of_group hg']
        have hstream : ({ s with lastRead := some r } : Store).stream r.stream = s.stream r.stream := rfl
        rw [hstream]
        cases ht : (s.stream r.stream).take g r.member r.count with
        | error b => left; exact ⟨rfl, by simp⟩
        | ok taken =>
          cases taken with
          | none => left; exact ⟨rfl, by simp⟩
          | some p => right; exact ⟨g, p.1, p.2, ho', rfl, rfl, ht, rfl, rfl⟩

end Store

/-! ### Acknowledgments -/

theorem Stream.acknowledge?_eq_some {s st : Stream} {group id : String}
    (h : s.acknowledge? group id = some st) :
    ∃ g, s.groups.get? group = some g ∧ g.pending.contains id = true ∧
      st = { s with groups := s.groups.insert group { g with pending := g.pending.erase id } } := by
  unfold Stream.acknowledge? at h
  split at h
  · cases h
  · next g hg =>
    split at h
    · next hp =>
      cases h
      exact ⟨g, hg, hp, rfl⟩
    · cases h

namespace Store

variable {s : Store} {stream group id : String}

/-- An acknowledgment takes a pending id off, and is answered by one, or it leaves the streams alone. -/
theorem acknowledge_streams (s : Store) (stream group id : String) :
    ((s.acknowledge stream group id).1.streams = s.streams ∧
      (s.acknowledge stream group id).2 ≠ .answer 1) ∨
      ∃ g, (s.stream stream).groups.get? group = some g ∧ g.pending.contains id = true ∧
        (s.acknowledge stream group id).1.streams = s.streams.insert stream
          { s.stream stream with
            groups := (s.stream stream).groups.insert group { g with pending := g.pending.erase id } } ∧
        (s.acknowledge stream group id).2 = .answer 1 := by
  rcases acknowledge_cases s stream group id with ⟨h, hn⟩ | ⟨-, -, h⟩ | ⟨-, st, hb, h⟩
  · exact .inl ⟨by rw [h], hn 1⟩
  · exact .inl ⟨by rw [h], by rw [h]; simp⟩
  · right
    cases hs : s.streams.get? stream with
    | none => rw [hs] at hb; cases hb
    | some st' =>
      rw [hs] at hb
      obtain ⟨g, hg, hp, rfl⟩ := Stream.acknowledge?_eq_some hb
      rw [h, stream_of_get? hs]
      exact ⟨g, hg, hp, rfl, rfl⟩

/-! ### Any operation -/

/-- What an operation does to a stream, groups apart: it adds an entry or changes nothing. -/
theorem perform_stream (s : Store) (now clock : Nat) (op : Operation) (name : String) :
    (∃ groups, (s.perform now clock op).1.stream name = { s.stream name with groups }) ∨
      ∃ fields, op = .append name fields ∧
        (s.perform now clock op).1.stream name = ((s.stream name).append clock fields).1 := by
  have hsame {t : Store} (h : t.streams = s.streams) :
      ∃ groups, t.stream name = { s.stream name with groups } := by
    rw [Store.stream, h]
    exact ⟨_, rfl⟩
  have hins {t : Store} {x : String} {groups : Table String Group}
      (h : t.streams = s.streams.insert x { s.stream x with groups }) :
      ∃ groups, t.stream name = { s.stream name with groups } := by
    rw [stream_insert h rfl]
    split
    · next hx => rw [hx]; exact ⟨_, rfl⟩
    · exact ⟨_, rfl⟩
  cases op with
  | set k v ttl =>
    rcases set_contents s now k v ttl with ⟨h, -⟩ | h
    · exact .inl (hsame (by rw [perform, h]))
    · exact .inl (hsame (by rw [perform, h]))
  | claim k v ttl =>
    rcases claim_cases s now k v ttl with ⟨-, -, h⟩ | ⟨h, -⟩
    · exact .inl (hsame (by rw [perform, h]))
    · exact .inl (hsame (by rw [perform, h]))
  | get k => exact .inl (hsame (by rw [perform, get_store]))
  | read r =>
    rcases read_cases s r with ⟨h, -⟩ | ⟨g, g', given, -, -, -, -, h, -⟩
    · exact .inl (hsame h)
    · exact .inl (hins h)
  | acknowledge x g id =>
    rcases acknowledge_streams s x g id with ⟨h, -⟩ | ⟨grp, -, -, h, -⟩
    · exact .inl (hsame h)
    · exact .inl (hins h)
  | createGroup x g =>
    left
    have hg : ∃ groups, (s.stream x).createGroup g = { s.stream x with groups } := by
      unfold Stream.createGroup
      split <;> exact ⟨_, rfl⟩
    obtain ⟨groups, hg⟩ := hg
    have h : (s.perform now clock (.createGroup x g)).1.streams =
        s.streams.insert x { s.stream x with groups } := by rw [perform, createGroup, hg]
    exact hins h
  | append x fields =>
    have h : (s.perform now clock (.append x fields)).1.streams =
        s.streams.insert x ((s.stream x).append clock fields).1 := rfl
    by_cases hx : x = name
    · right
      subst hx
      exact ⟨fields, rfl, append_stream_self ..⟩
    · left
      rw [stream_insert h rfl, if_neg hx]
      exact ⟨_, rfl⟩

theorem perform_ascending {now clock : Nat} {op : Operation} {name : String}
    (h : (s.stream name).Ascending) : ((s.perform now clock op).1.stream name).Ascending := by
  rcases perform_stream s now clock op name with ⟨groups, hs⟩ | ⟨fields, -, hs⟩
  · rw [hs]; exact h
  · rw [hs]; exact h.append clock fields

/-! ### Shares -/

theorem idle_of_streams_eq {t : Store} (h : t.streams = s.streams) :
    Share.Step (s.share stream group) false [] none (t.share stream group) := by
  rw [share_congr h]
  exact .idle (by simp)

/-- A group notices a new version of a stream only in its entries and in itself. -/
theorem share_insert {t : Store} {x : String} {st : Stream} (h : t.streams = s.streams.insert x st)
    (hst : x = stream → st.entries = (s.stream stream).entries ∧
      st.groups.get? group = (s.stream stream).groups.get? group) :
    t.share stream group = s.share stream group := by
  rw [share, share, stream_insert h rfl]
  split
  · next hx => rw [(hst hx).1, (hst hx).2]
  · rfl

/-- The share of a group that is replaced by a new version of itself. -/
theorem share_insert_self {t : Store} {g : Group}
    (h : t.streams = s.streams.insert stream
      { s.stream stream with groups := (s.stream stream).groups.insert group g }) :
    t.share stream group = ⟨(s.stream stream).entries, some g⟩ := by
  rw [share, stream_insert h rfl, if_pos rfl]
  dsimp only
  rw [Table.get?_insert_self]

/-- A new version of one group is not noticed by any other. -/
theorem share_insert_of_ne {t : Store} {x y : String} {g : Group} (hne : ¬ (x = stream ∧ y = group))
    (h : t.streams = s.streams.insert x { s.stream x with groups := (s.stream x).groups.insert y g }) :
    t.share stream group = s.share stream group := by
  apply share_insert h
  rintro rfl
  exact ⟨rfl, Table.get?_insert_of_ne _ (fun e => hne ⟨rfl, e⟩) _⟩

/-- A read that is not answered by entries of the stream gives nothing out. -/
theorem gives_of_unanswered {r : ReadRequest} (stream group : String)
    (hn : s.scripted = [] → ∀ batches, (s.read r).2 ≠ .answer (some batches)) :
    s.gives stream group (.read r) = [] := by
  rw [gives]
  split
  · next hr =>
    split
    · next batches hb => exact absurd hb (hn hr.2.2 batches)
    · rfl
  · rfl

theorem read_share (s : Store) (r : ReadRequest) (stream group : String) :
    Share.Step (s.share stream group) false (s.gives stream group (.read r)) none
      ((s.read r).1.share stream group) := by
  rcases read_cases s r with ⟨h, hn⟩ | ⟨g, g', given, -, hc, hg, ht, h, ha⟩
  · rw [gives_of_unanswered stream group hn]
    exact idle_of_streams_eq h
  · by_cases hr : r.stream = stream ∧ r.group = group
    · obtain ⟨rfl, rfl⟩ := hr
      have hgives : s.gives r.stream r.group (.read r) = given := by
        rw [gives, if_pos ⟨rfl, rfl, hc⟩, ha]
        simp
      have hbefore : s.share r.stream r.group = ⟨(s.stream r.stream).entries, some g⟩ := by
        rw [share, hg]
      obtain ⟨stop, hlt, hle, rfl, rfl⟩ := Stream.take_eq_some ht
      rw [hgives, hbefore, share_insert_self h]
      exact .give r.member hlt hle
    · have hgives : s.gives stream group (.read r) = [] := by
        rw [gives, if_neg fun hx => hr ⟨hx.1, hx.2.1⟩]
      rw [hgives, share_insert_of_ne hr h]
      exact .idle (by simp)

/-- Only an open read of the group that no answer was given for in advance gives anything out. -/
theorem gives_eq_nil_or (s : Store) (stream group : String) (op : Operation) :
    s.gives stream group op = [] ∨ s.Open .read ∧ s.scripted = [] ∧
      ∃ r : ReadRequest, op = .read r ∧ r.stream = stream ∧ r.group = group := by
  cases op with
  | read r =>
    by_cases hr : r.stream = stream ∧ r.group = group ∧ s.scripted = []
    · rcases read_cases s r with ⟨-, hn⟩ | ⟨_, _, _, ho, hc, -⟩
      · exact .inl (gives_of_unanswered stream group hn)
      · exact .inr ⟨ho, hc, r, rfl, hr.1, hr.2.1⟩
    · left
      rw [gives, if_neg hr]
  | _ => exact .inl rfl

/-- Only an open acknowledgment of the group takes an id off. -/
theorem settles_eq_none_or (s : Store) (stream group : String) (op : Operation) :
    s.settles stream group op = none ∨
      s.Open .acknowledge ∧ ∃ id, op = .acknowledge stream group id := by
  cases op with
  | acknowledge x y id =>
    by_cases hr : x = stream ∧ y = group
    · obtain ⟨rfl, rfl⟩ := hr
      rcases acknowledge_cases s x y id with ⟨-, hn⟩ | ⟨ho, -⟩ | ⟨ho, -⟩
      · left
        rw [settles, if_neg fun hx => hn 1 hx.2.2]
      · exact .inr ⟨ho, id, rfl⟩
      · exact .inr ⟨ho, id, rfl⟩
    · left
      rw [settles, if_neg fun hx => hr ⟨hx.1, hx.2.1⟩]
  | _ => exact .inl rfl

/-- What a read of a group does that is open and that no answer was given for in advance. -/
theorem read_exact {r : ReadRequest} {g : Group} (ho : s.Open .read) (hs : s.scripted = [])
    (hg : (s.stream r.stream).groups.get? r.group = some g)
    (hfit : g.next + max r.count.toNat 1 < UInt64.size) :
    let stop := min (s.stream r.stream).entries.length (g.next + max r.count.toNat 1)
    (stop ≤ g.next → s.read r = ({ s with lastRead := some r }, .answer none)) ∧
      (g.next < stop →
        (s.read r).2 = .answer
          (some [⟨r.stream, ((s.stream r.stream).entries.take stop).drop g.next⟩]) ∧
        (s.read r).1.share r.stream r.group = ⟨(s.stream r.stream).entries,
          some ⟨stop, Stream.markPending g.pending r.member
            (((s.stream r.stream).entries.take stop).drop g.next)⟩⟩) := by
  have hg' : (({ s with lastRead := some r } : Store).stream r.stream).groups.get? r.group = some g :=
    hg
  have hstream : ({ s with lastRead := some r } : Store).stream r.stream = s.stream r.stream := rfl
  intro stop
  rw [read_of_open ho hs, deliver_of_group hg', hstream, Stream.take_of_lt hfit]
  constructor
  · intro hle
    rw [if_pos hle]
  · intro hlt
    rw [if_neg (Nat.not_le.mpr hlt)]
    exact ⟨rfl, share_insert_self rfl⟩

/-- Such a read breaks off if the place of the group and the count have no sum in 64 bits. -/
theorem read_beyond {r : ReadRequest} {g : Group} (ho : s.Open .read) (hs : s.scripted = [])
    (hg : (s.stream r.stream).groups.get? r.group = some g)
    (h : UInt64.size ≤ g.next + max r.count.toNat 1) :
    s.read r = ({ s with lastRead := some r }, .broken .beyondCount) := by
  have hg' : (({ s with lastRead := some r } : Store).stream r.stream).groups.get? r.group = some g :=
    hg
  have hstream : ({ s with lastRead := some r } : Store).stream r.stream = s.stream r.stream := rfl
  rw [read_of_open ho hs, deliver_of_group hg', hstream, Stream.take_of_le h]

theorem acknowledge_share (s : Store) (x y id stream group : String) :
    Share.Step (s.share stream group) false [] (s.settles stream group (.acknowledge x y id))
      ((s.acknowledge x y id).1.share stream group) := by
  rcases acknowledge_streams s x y id with ⟨h, hn⟩ | ⟨g, hg, hp, h, ha⟩
  · have hsettles : s.settles stream group (.acknowledge x y id) = none := by
      rw [settles, if_neg fun hx => hn hx.2.2]
    rw [hsettles]
    exact idle_of_streams_eq h
  · by_cases hr : x = stream ∧ y = group
    · obtain ⟨rfl, rfl⟩ := hr
      have hsettles : s.settles x y (.acknowledge x y id) = some id := by
        rw [settles, if_pos ⟨rfl, rfl, ha⟩]
      have hbefore : s.share x y = ⟨(s.stream x).entries, some g⟩ := by
        rw [share, hg]
      rw [hsettles, hbefore, share_insert_self h]
      exact .settle hp
    · have hsettles : s.settles stream group (.acknowledge x y id) = none := by
        rw [settles, if_neg fun hx => hr ⟨hx.1, hx.2.1⟩]
      rw [hsettles, share_insert_of_ne hr h]
      exact .idle (by simp)

theorem createGroup_share (s : Store) (x y stream group : String) :
    Share.Step (s.share stream group) (x = stream ∧ y = group) [] none
      ((s.createGroup x y).1.share stream group) := by
  have h : (s.createGroup x y).1.streams = s.streams.insert x ((s.stream x).createGroup y) := rfl
  by_cases hr : x = stream ∧ y = group
  · obtain ⟨rfl, rfl⟩ := hr
    rw [Stream.createGroup] at h
    cases hg : (s.stream x).groups.get? y with
    | none =>
      rw [hg] at h
      have hbefore : s.share x y = ⟨(s.stream x).entries, none⟩ := by
        rw [share, hg]
      rw [hbefore, share_insert_self h]
      simpa using Share.Step.found (s.stream x).entries
    | some g =>
      rw [hg] at h
      rw [share_insert h fun _ => ⟨rfl, rfl⟩]
      exact .idle (by simp [share, hg])
  · rw [share_insert h]
    · exact .idle (by simp [hr])
    · rintro rfl
      unfold Stream.createGroup
      split
      · exact ⟨rfl, rfl⟩
      · exact ⟨rfl, Table.get?_insert_of_ne _ (fun e => hr ⟨rfl, e⟩) _⟩

theorem append_share (s : Store) (clock : Nat) (x : String) (fields : List (String × Bytes))
    (stream group : String) :
    Share.Step (s.share stream group) false [] none
      ((s.append clock x fields).1.share stream group) := by
  have h : (s.append clock x fields).1.streams =
      s.streams.insert x ((s.stream x).append clock fields).1 := rfl
  by_cases hx : x = stream
  · subst hx
    rw [share, share, append_stream_self]
    exact .append (s.share x group) ⟨((s.stream x).append clock fields).2, .ofList fields⟩
  · rw [share_insert h fun e => absurd e hx]
    exact .idle (by simp)

/-- What an operation does to the share of a group. -/
theorem perform_share (s : Store) (now clock : Nat) (op : Operation) (stream group : String) :
    Share.Step (s.share stream group) (op = .createGroup stream group) (s.gives stream group op)
      (s.settles stream group op) ((s.perform now clock op).1.share stream group) := by
  cases op with
  | set k v ttl =>
    rcases set_contents s now k v ttl with ⟨h, -⟩ | h
    · exact idle_of_streams_eq (by rw [perform, h])
    · exact idle_of_streams_eq (by rw [perform, h])
  | claim k v ttl =>
    rcases claim_cases s now k v ttl with ⟨-, -, h⟩ | ⟨h, -⟩
    · exact idle_of_streams_eq (by rw [perform, h])
    · exact idle_of_streams_eq (by rw [perform, h])
  | get k => exact idle_of_streams_eq (by rw [perform, get_store])
  | read r => exact read_share s r stream group
  | acknowledge x y id => exact acknowledge_share s x y id stream group
  | createGroup x y =>
    have hiff : decide (Operation.createGroup x y = .createGroup stream group) =
        decide (x = stream ∧ y = group) := by simp
    rw [hiff]
    exact createGroup_share s x y stream group
  | append x fields => exact append_share s clock x fields stream group

/-! ### What an acknowledgment makes of a store -/

theorem mem_pending : id ∈ s.pending stream group ↔
    ∃ g, (s.stream stream).groups.get? group = some g ∧ g.pending.contains id = true :=
  Stream.mem_pendingIds ..

theorem acknowledge_of_not_pending (ho : s.Open .acknowledge) (hn : id ∉ s.pending stream group) :
    s.acknowledge stream group id = (s, .answer 0) := by
  rcases acknowledge_cases s stream group id with ⟨-, h⟩ | ⟨-, -, h⟩ | ⟨-, st, hb, -⟩
  · rw [acknowledge, gate_of_open ho] at h
    split at h
    · exact absurd rfl (h 0)
    · exact absurd rfl (h 1)
  · exact h
  · cases hs : s.streams.get? stream with
    | none => rw [hs] at hb; cases hb
    | some st' =>
      rw [hs] at hb
      obtain ⟨g, hg, hp, -⟩ := Stream.acknowledge?_eq_some hb
      exact absurd (mem_pending.mpr ⟨g, (stream_of_get? hs).symm ▸ hg, hp⟩) hn

theorem acknowledge_of_pending {g : Group} (ho : s.Open .acknowledge)
    (hg : (s.stream stream).groups.get? group = some g) (hp : g.pending.contains id = true) :
    s.acknowledge stream group id =
      ({ s with
          streams := s.streams.insert stream
            { s.stream stream with
              groups := (s.stream stream).groups.insert group { g with pending := g.pending.erase id } }
          acknowledged := s.acknowledged ++ [id] }, .answer 1) := by
  have hst := get?_of_group hg
  rw [acknowledge, gate_of_open ho, hst, Option.bind_some, Stream.acknowledge?, hg]
  dsimp only
  rw [if_pos hp]

/-- Of two stores, the second is what an acknowledgment of `id` makes of the first: the id is taken off the
pending ones of its group and, if it was one of them, noted; everything else stays as it is. -/
structure TakenOff (s t : Store) (stream group id : String) : Prop where
  keys : t.keys = s.keys
  failing : t.failing = s.failing
  stalled : t.stalled = s.stalled
  scripted : t.scripted = s.scripted
  lastRead : t.lastRead = s.lastRead
  acknowledged : t.acknowledged =
    if id ∈ s.pending stream group then s.acknowledged ++ [id] else s.acknowledged
  streams : ∀ x, ∃ groups, t.stream x = { s.stream x with groups }
  others : ∀ x y, ¬ (x = stream ∧ y = group) →
    (t.stream x).groups.get? y = (s.stream x).groups.get? y
  place : ((t.stream stream).groups.get? group).map (·.next) =
    ((s.stream stream).groups.get? group).map (·.next)
  pending : ∀ x, x ∈ t.pending stream group ↔ x ≠ id ∧ x ∈ s.pending stream group

theorem acknowledge_takenOff (ho : s.Open .acknowledge) (stream group id : String) :
    TakenOff s (s.acknowledge stream group id).1 stream group id := by
  by_cases hid : id ∈ s.pending stream group
  · obtain ⟨g, hg, hp⟩ := mem_pending.mp hid
    rw [acknowledge_of_pending ho hg hp]
    generalize ht : ({ s with
      streams := s.streams.insert stream
        { s.stream stream with
          groups := (s.stream stream).groups.insert group { g with pending := g.pending.erase id } }
      acknowledged := s.acknowledged ++ [id] } : Store) = t
    have hstreams : t.streams = s.streams.insert stream
        { s.stream stream with
          groups := (s.stream stream).groups.insert group { g with pending := g.pending.erase id } } := by
      rw [← ht]
    have hself : (t.stream stream).groups.get? group =
        some { g with pending := g.pending.erase id } := congrArg Share.group (share_insert_self hstreams)
    refine ⟨by rw [← ht], by rw [← ht], by rw [← ht], by rw [← ht], by rw [← ht],
      by rw [← ht, if_pos hid], fun x => ?_, fun x y hxy => ?_, ?_, fun x => ?_⟩
    · rw [stream_insert hstreams rfl]
      split
      · next hx => rw [hx]; exact ⟨_, rfl⟩
      · exact ⟨_, rfl⟩
    · have hxy' : ¬ (stream = x ∧ group = y) := fun e => hxy ⟨e.1.symm, e.2.symm⟩
      exact congrArg Share.group (share_insert_of_ne hxy' hstreams)
    · rw [hself, hg]
      rfl
    · rw [mem_pending, mem_pending, hself, hg]
      simp only [Option.some.injEq, exists_eq_left', Table.contains_erase]
      exact and_congr_left fun _ => ne_comm
  · rw [acknowledge_of_not_pending ho hid]
    refine ⟨rfl, rfl, rfl, rfl, rfl, by rw [if_neg hid], fun x => ⟨_, rfl⟩, fun _ _ _ => rfl, rfl,
      fun x => ?_⟩
    constructor
    · rintro hx
      exact ⟨fun e => hid (e ▸ hx), hx⟩
    · exact And.right

end Store

end StreamWorker
