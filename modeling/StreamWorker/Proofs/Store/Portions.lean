import StreamWorker.Proofs.Store.Stream
import StreamWorker.Worker.Basic

/-! Reads in portions. A group stands somewhere in its stream, and a read gives it the next entries, as
many as are asked for and at least one, or all that are left. Two reads, one after the other, give what one
read of both counts gives. All this is so while the place and the count add up to less than `2 ^ 64`.
From there on a read breaks off, however little is left. -/

namespace StreamWorker

/-- The group after some entries were given to a member. -/
def Group.given (g : Group) (member : String) (l : List Entry) : Group :=
  ⟨g.next + l.length, Stream.markPending g.pending member l⟩

theorem Group.given_append (g : Group) (member : String) (l l' : List Entry) :
    g.given member (l ++ l') = (g.given member l).given member l' := by
  simp only [Group.given, Stream.markPending, List.length_append, List.foldl_append, Nat.add_assoc]

namespace Store

variable {s : Store} {r : ReadRequest} {g : Group}

/-- The entries of its stream that a group was not given yet. -/
def undelivered (s : Store) (stream : String) (g : Group) : List Entry :=
  (s.stream stream).entries.drop g.next

/-- A read gives as many of the entries that are left as it asks for. -/
theorem read_portion (ho : s.Open .read) (hs : s.scripted = [])
    (hg : (s.stream r.stream).groups.get? r.group = some g)
    (hfit : g.next + max r.count.toNat 1 < UInt64.size) :
    let portion := (s.undelivered r.stream g).take (max r.count.toNat 1)
    (s.read r).2 = .answer (if portion = [] then none else some [⟨r.stream, portion⟩]) ∧
      (s.read r).1.share r.stream r.group =
        ⟨(s.stream r.stream).entries, some (g.given r.member portion)⟩ := by
  intro portion
  obtain ⟨hnone, hsome⟩ := read_exact ho hs hg hfit
  generalize hstop : min (s.stream r.stream).entries.length (g.next + max r.count.toNat 1) = stop at *
  have hrest : (s.undelivered r.stream g).length = (s.stream r.stream).entries.length - g.next :=
    List.length_drop
  have hportion : ((s.stream r.stream).entries.take stop).drop g.next = portion := by
    rw [List.drop_take]
    refine List.take_eq_take_iff.mpr ?_
    rw [List.length_drop]
    omega
  have hlength : portion.length = stop - g.next := by
    rw [← hportion, List.length_drop, List.length_take]
    omega
  rw [hportion] at hsome
  rcases Nat.lt_or_ge g.next stop with hlt | hge
  · obtain ⟨hanswer, hshare⟩ := hsome hlt
    have hne : portion ≠ [] := List.ne_nil_of_length_pos (by omega)
    have hplace : g.next + portion.length = stop := by omega
    rw [if_neg hne, Group.given, hplace]
    exact ⟨hanswer, hshare⟩
  · have hnil : portion = [] := List.eq_nil_of_length_eq_zero (by omega)
    have hshare : s.share r.stream r.group = ⟨(s.stream r.stream).entries, some g⟩ := by
      rw [share, hg]
    rw [hnone hge, if_pos hnil, hnil]
    exact ⟨rfl, hshare⟩

theorem gives_portion (ho : s.Open .read) (hs : s.scripted = [])
    (hg : (s.stream r.stream).groups.get? r.group = some g)
    (hfit : g.next + max r.count.toNat 1 < UInt64.size) :
    s.gives r.stream r.group (.read r) = (s.undelivered r.stream g).take (max r.count.toNat 1) := by
  rw [gives, if_pos ⟨rfl, rfl, hs⟩, (read_portion ho hs hg hfit).1]
  by_cases hnil : (s.undelivered r.stream g).take (max r.count.toNat 1) = []
  · rw [if_pos hnil, hnil]
  · rw [if_neg hnil]
    simp

/-- A read leaves the way open for the next one. -/
theorem read_open (ho : s.Open .read) (hs : s.scripted = []) :
    (s.read r).1.Open .read ∧ (s.read r).1.scripted = [] := by
  obtain ⟨streams, h⟩ := deliver_eq { s with lastRead := some r } r
  rw [read_of_open ho hs, h]
  exact ⟨ho, hs⟩

theorem drop_length_take {α : Type} (l : List α) (n : Nat) : l.drop (l.take n).length = l.drop n := by
  refine List.drop_eq_drop_iff.mpr ?_
  rw [List.length_take]
  omega

/-- Two reads give, one after the other, what one read of both counts gives, and leave the group alike. -/
theorem read_twice (ho : s.Open .read) (hs : s.scripted = [])
    (hg : (s.stream r.stream).groups.get? r.group = some g) {a b : UInt64} (ha : 1 ≤ a.toNat)
    (hb : 1 ≤ b.toNat) (hfit : g.next + (a.toNat + b.toNat) < UInt64.size) :
    let first : ReadRequest := { r with count := a }
    let second : ReadRequest := { r with count := b }
    let both : ReadRequest := { r with count := a + b }
    let t := (s.read first).1
    s.gives r.stream r.group (.read first) ++ t.gives r.stream r.group (.read second) =
        s.gives r.stream r.group (.read both) ∧
      (t.read second).1.share r.stream r.group = (s.read both).1.share r.stream r.group := by
  intro first second both t
  have hsum : (a + b).toNat = a.toNat + b.toNat := by
    rw [UInt64.toNat_add]
    exact Nat.mod_eq_of_lt (Nat.lt_of_le_of_lt (Nat.le_add_left ..) hfit)
  have hfirst : max first.count.toNat 1 = a.toNat := Nat.max_eq_left ha
  have hsecond : max second.count.toNat 1 = b.toNat := Nat.max_eq_left hb
  have hboth : max both.count.toNat 1 = a.toNat + b.toNat := by
    rw [show both.count = a + b from rfl, hsum]
    omega
  have hshare : t.share r.stream r.group = ⟨(s.stream r.stream).entries,
      some (g.given r.member ((s.undelivered r.stream g).take a.toNat))⟩ := by
    have h := (read_portion (r := first) ho hs hg (by omega)).2
    rwa [hfirst] at h
  have hgives : s.gives r.stream r.group (.read first) = (s.undelivered r.stream g).take a.toNat := by
    have h := gives_portion (r := first) ho hs hg (by omega)
    rwa [hfirst] at h
  -- the second read begins where the first one has stopped
  generalize hgiven : (s.undelivered r.stream g).take a.toNat = given at *
  obtain ⟨ho', hs'⟩ := read_open (r := first) ho hs
  have hentries : (t.stream r.stream).entries = (s.stream r.stream).entries :=
    congrArg Share.entries hshare
  have hg' : (t.stream r.stream).groups.get? r.group = some (g.given r.member given) :=
    congrArg Share.group hshare
  have hplace : (g.given r.member given).next ≤ g.next + a.toNat := by
    rw [← hgiven]
    exact Nat.add_le_add_left (List.length_take_le ..) _
  have hrest : t.undelivered r.stream (g.given r.member given) =
      (s.undelivered r.stream g).drop a.toNat := by
    rw [← drop_length_take, hgiven, undelivered, undelivered, hentries, List.drop_drop]
    rfl
  have hshare' : (t.read second).1.share r.stream r.group = ⟨(t.stream r.stream).entries,
      some ((g.given r.member given).given r.member
        (((s.undelivered r.stream g).drop a.toNat).take b.toNat))⟩ := by
    have h := (read_portion (r := second) ho' hs' hg' (by omega)).2
    rwa [hsecond, hrest] at h
  have hgives' : t.gives r.stream r.group (.read second) =
      ((s.undelivered r.stream g).drop a.toNat).take b.toNat := by
    have h := gives_portion (r := second) ho' hs' hg' (by omega)
    rwa [hsecond, hrest] at h
  -- and one read of both counts takes the two portions at once
  have htake : given ++ ((s.undelivered r.stream g).drop a.toNat).take b.toNat =
      (s.undelivered r.stream g).take (a.toNat + b.toNat) := by
    rw [List.take_add, hgiven]
  constructor
  · have h := gives_portion (r := both) ho hs hg (by omega)
    rw [hboth] at h
    rw [hgives, hgives', htake, h]
  · have h := (read_portion (r := both) ho hs hg (by omega)).2
    rw [hboth] at h
    rw [hshare', hentries, ← Group.given_append, htake, h]

/-- An open read that no answer was given for in advance gives a group as many of the entries that are
left as it asks for, in order and at least one: nothing exactly if nothing is left, and otherwise one
batch, whose ids become pending and by whose length the group goes on. Two reads come to what one read of
both counts comes to. This needs the place of the group and the count to add up to less than `2 ^ 64`, and
exactly then the read is answered; where they do not, it breaks off, and the group stays as it is. -/
theorem read_gives_portion (ho : s.Open .read) (hs : s.scripted = [])
    (hg : (s.stream r.stream).groups.get? r.group = some g) :
    let rest := s.undelivered r.stream g
    let n := min (max r.count.toNat 1) rest.length
    let t := (s.read r).1
    ((∃ reply, (s.read r).2 = .answer reply) ↔ g.next + max r.count.toNat 1 < UInt64.size) ∧
    (g.next + max r.count.toNat 1 < UInt64.size →
      ((s.read r).2 = .answer none ↔ rest = []) ∧
      (rest ≠ [] → (s.read r).2 = .answer (some [⟨r.stream, rest.take n⟩])) ∧
      (∃ g', (t.stream r.stream).groups.get? r.group = some g' ∧ g'.next = g.next + n ∧
        g'.pending = Stream.markPending g.pending r.member (rest.take n)) ∧
      ∀ id, id ∈ t.pending r.stream r.group ↔
        id ∈ (rest.take n).map (·.id) ∨ id ∈ s.pending r.stream r.group) ∧
    (UInt64.size ≤ g.next + max r.count.toNat 1 →
      s.read r = ({ s with lastRead := some r }, .broken .beyondCount)) ∧
    ∀ a b : UInt64, 1 ≤ a.toNat → 1 ≤ b.toNat → g.next + (a.toNat + b.toNat) < UInt64.size →
      let first : ReadRequest := { r with count := a }
      let second : ReadRequest := { r with count := b }
      let both : ReadRequest := { r with count := a + b }
      s.gives r.stream r.group (.read first) ++
          (s.read first).1.gives r.stream r.group (.read second) =
        s.gives r.stream r.group (.read both) ∧
      ((s.read first).1.read second).1.share r.stream r.group = (s.read both).1.share r.stream r.group := by
  intro rest n t
  refine ⟨⟨fun ⟨reply, hreply⟩ => Nat.lt_of_not_le fun hge => ?_,
    fun hfit => ⟨_, (read_portion ho hs hg hfit).1⟩⟩, fun hfit => ?_, read_beyond ho hs hg,
    fun a b ha hb hfit => read_twice ho hs hg ha hb hfit⟩
  · rw [read_beyond ho hs hg hge] at hreply
    cases hreply
  · obtain ⟨hanswer, hshare⟩ := read_portion ho hs hg hfit
    have htake : rest.take (max r.count.toNat 1) = rest.take n := List.take_eq_take_min
    have hlength : (rest.take n).length = n := by
      rw [List.length_take]
      exact Nat.min_eq_left (Nat.min_le_right ..)
    have hnil : rest.take n = [] ↔ rest = [] := by
      rw [← htake, List.take_eq_nil_iff]
      exact or_iff_right (by omega)
    rw [htake] at hanswer hshare
    have hgroup : (t.stream r.stream).groups.get? r.group = some (g.given r.member (rest.take n)) :=
      congrArg Share.group hshare
    refine ⟨?_, fun hne => ?_, ⟨_, hgroup, congrArg (g.next + ·) hlength, rfl⟩, fun id => ?_⟩
    · rw [hanswer, ← hnil]
      constructor
      · intro h
        by_cases hn : rest.take n = []
        · exact hn
        · rw [if_neg hn] at h
          cases h
      · intro h
        rw [if_pos h]
    · rw [hanswer, if_neg fun h => hne (hnil.mp h)]
    · rw [mem_pending, mem_pending, hgroup, hg]
      simp only [Option.some.injEq, exists_eq_left']
      exact Stream.contains_markPending ..

/-- A store with a group that was given one of two entries. -/
def halfway : Store :=
  let s : Store := (({} : Store).createGroup "default" "default_consumer_group").1
  let s := (s.append 1700000000000 "default" [("msg", [49])]).1
  let s := (s.append 1700000000000 "default" [("msg", [50])]).1
  (s.read ⟨"default", "default_consumer_group", "m", 1, readBlock⟩).1

/-- A read of any number of entries that fits gives the entry that is left. -/
theorem read_gives_portion_halfway :
    (halfway.read ⟨"default", "default_consumer_group", "m", 0, readBlock⟩).2 =
      .answer (some [⟨"default", [⟨"1700000000000-1", ⟨[("msg", [50])]⟩⟩]⟩]) := by
  obtain ⟨-, hportion, -⟩ := @read_gives_portion halfway
    ⟨"default", "default_consumer_group", "m", 0, readBlock⟩
    ⟨1, ⟨[("1700000000000-0", "m")]⟩⟩ (by decide) rfl (by decide)
  exact (hportion (by decide)).2.1 (by decide)

/-- A read of the greatest count breaks off although an entry is left. -/
theorem read_of_greatest_count_halfway :
    let greatest : ReadRequest :=
      ⟨"default", "default_consumer_group", "m", 18446744073709551615, readBlock⟩
    halfway.Open .read ∧ halfway.scripted = [] ∧
      (∃ g, (halfway.stream "default").groups.get? "default_consumer_group" = some g ∧
        halfway.undelivered "default" g = [⟨"1700000000000-1", ⟨[("msg", [50])]⟩⟩]) ∧
      halfway.read greatest = ({ halfway with lastRead := some greatest }, .broken .beyondCount) := by
  refine ⟨by decide, rfl, ⟨⟨1, ⟨[("1700000000000-0", "m")]⟩⟩, by decide, by decide⟩, by decide⟩

end Store

end StreamWorker
