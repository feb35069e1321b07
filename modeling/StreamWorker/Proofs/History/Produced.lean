import Mathlib.Data.List.Nodup
import StreamWorker.Proofs.History.Delivery
import StreamWorker.Proofs.History.ScriptedReads
import StreamWorker.Proofs.Store.Portions

/-! Entries that are added after their group was asked for. Such an entry stands at or behind the place
from which the group is served, so the group gets past it only by giving it out. A read that the store
itself answers by nothing leaves nothing behind, and whoever goes on reading comes to such an answer, if
the counts are not so great that a read breaks off. -/

namespace StreamWorker

/-- In a list without repetitions an element is met in a section exactly if its place is there. -/
theorem mem_take_drop_iff {α : Type} {l : List α} (hu : l.Nodup) {a : α} {place first stop : Nat}
    (ha : l[place]? = some a) (hf : first ≤ place) :
    a ∈ (l.take stop).drop first ↔ place < stop := by
  rw [List.mem_iff_getElem?]
  constructor
  · rintro ⟨i, hi⟩
    rw [List.getElem?_drop, List.getElem?_take] at hi
    split at hi
    · next hlt =>
      have hlength : first + i < l.length := (List.getElem?_eq_some_iff.mp hi).1
      have hsame : first + i = place := (List.getElem?_inj hlength hu).mp (hi.trans ha.symm)
      omega
    · cases hi
  · intro hlt
    have hi : first + (place - first) = place := by omega
    exact ⟨place - first, by rw [List.getElem?_drop, hi, List.getElem?_take_of_lt hlt, ha]⟩

namespace Log

variable {l l' : List Occurrence} {stream group : String}

/-- Only the first demand for a group counts. -/
theorem foundedAt_append {first : Nat} (h : foundedAt l stream group = some first) :
    foundedAt (l ++ l') stream group = some first := by
  obtain ⟨o, ho, hfirst⟩ := Option.map_eq_some_iff.mp h
  rw [foundedAt, List.find?_append, ho]
  exact congrArg some hfirst

theorem foundedAt_of_asked (h : ∃ p ∈ l, p.op = .createGroup stream group) :
    ∃ first, foundedAt l stream group = some first := by
  obtain ⟨p, hp, hop⟩ := h
  have hfound : (l.find? fun o => o.op = .createGroup stream group).isSome :=
    List.find?_isSome.mpr ⟨p, hp, decide_eq_true hop⟩
  obtain ⟨o, ho⟩ := Option.isSome_iff_exists.mp hfound
  exact ⟨_, by rw [foundedAt, ho, Option.map_some]⟩

end Log

namespace Occurrence

variable {q : Occurrence} {r : ReadRequest} {reply : Option (List Batch)}

/-- A read that is answered was made neither to stall nor to fail. -/
theorem open_of_read (h : q.CameTo (.read r) (.answer reply)) : q.store.Open .read := by
  have hread : (q.store.read r).2 = .answer reply := h.2
  rcases Store.fault_cases q.store .read with hs | ⟨reason, hs, hf⟩ | ho
  · rw [Store.read_of_stalled hs] at hread
    cases hread
  · rw [Store.read_of_failing hs hf] at hread
    cases hread
  · exact ho

theorem unscripted_of_recited (hop : q.op = .read r) (ho : q.store.Open .read)
    (hq : q.recited = none) : q.store.scripted = [] := by
  rw [recited, hop] at hq
  dsimp only at hq
  rw [if_pos ho] at hq
  exact List.head?_eq_none_iff.mp hq

end Occurrence

namespace Chronicle

variable {l l₁ l₂ : List Occurrence} {s : Store} {t : Nat} {o : Occurrence}
variable {stream group : String} {first : Nat} {e : Entry} {g : Group}

/-- What an operation left in a stream stays there. -/
theorem entries_kept (h : Chronicle l s t) (hl : l = l₁ ++ o :: l₂) (stream : String) :
    (o.after.stream stream).entries <+: (s.stream stream).entries := by
  induction h generalizing l₂ with
  | start => exact absurd hl (by simp)
  | quiet _ hsame _ ih => rw [Store.stream_congr hsame.streams]; exact ih hl
  | perform p hp ih =>
    rcases snoc_eq_append_cons hl with ⟨-, -, rfl⟩ | ⟨l₃, -, hl'⟩
    · exact List.prefix_refl _
    · exact (ih hl').trans (p.share_step stream "").entries_kept

/-- A group that was asked for is there, and was served from then on. -/
theorem served (h : Chronicle l s t) (hf : Log.foundedAt l stream group = some first) :
    ∃ g, (s.stream stream).groups.get? group = some g ∧
      Served (s.stream stream).entries g first (Log.given l stream group)
        (Log.settled l stream group) := by
  have hacc := h.accounts stream group
  rw [hf] at hacc
  exact hacc

theorem next_le (h : Chronicle l s t) (hg : (s.stream stream).groups.get? group = some g) :
    g.next ≤ (s.stream stream).entries.length := by
  have hacc := h.accounts stream group
  cases hf : Log.foundedAt l stream group with
  | none =>
    rw [hf] at hacc
    have hnone : (s.stream stream).groups.get? group = none := hacc.1
    rw [hg] at hnone
    cases hnone
  | some first =>
    obtain ⟨g', hg', hserved⟩ := h.served hf
    obtain rfl : g' = g := Option.some.inj (hg'.symm.trans hg)
    exact hserved.next_le

/-- An entry that was added keeps its place. If the group was asked for before, the group has got past
it exactly if it gave it out. -/
theorem passed_iff (h : Chronicle l s t) (hl : l = l₁ ++ o :: l₂)
    (hf : Log.foundedAt l₁ stream group = some first)
    (he : (o.after.stream stream).entries = (o.store.stream stream).entries ++ [e])
    (hg : (s.stream stream).groups.get? group = some g) :
    (s.stream stream).entries[(o.store.stream stream).entries.length]? = some e ∧
      ((o.store.stream stream).entries.length < g.next ↔ e ∈ Log.given l stream group) := by
  obtain ⟨after, hafter⟩ := he ▸ h.entries_kept hl stream
  have hkept : (s.stream stream).entries[(o.store.stream stream).entries.length]? = some e := by
    rw [← hafter, List.append_assoc, List.getElem?_append_right (Nat.le_refl _), Nat.sub_self]
    rfl
  -- where the group began is not behind the entry
  obtain ⟨g₁, -, hserved₁⟩ := (h.before hl).1.served hf
  have hfirst := Nat.le_trans hserved₁.first_le hserved₁.next_le
  obtain ⟨g', hg', hserved⟩ := h.served (hl ▸ Log.foundedAt_append hf)
  obtain rfl : g' = g := Option.some.inj (hg'.symm.trans hg)
  have hu : (s.stream stream).entries.Nodup := (h.ascending stream).nodup.of_map _
  rw [hserved.given_eq]
  exact ⟨hkept, (mem_take_drop_iff hu hkept hfirst).symm⟩

/-- When a read of the group is answered by nothing, the entry was given out. -/
theorem given_of_drained {r : ReadRequest} (h : Chronicle l s t) (hl : l = l₁ ++ o :: l₂)
    (hf : Log.foundedAt l₁ r.stream r.group = some first)
    (he : (o.after.stream r.stream).entries = (o.store.stream r.stream).entries ++ [e])
    (hg : (s.stream r.stream).groups.get? r.group = some g) (ho : s.Open .read)
    (hs : s.scripted = []) (hnone : (s.read r).2 = .answer none) :
    e ∈ Log.given l r.stream r.group := by
  obtain ⟨hkept, hpassed⟩ := h.passed_iff hl hf he hg
  have hplace := (List.getElem?_eq_some_iff.mp hkept).1
  -- a read that is answered did not break off
  have hfit : g.next + max r.count.toNat 1 < UInt64.size := by
    refine Nat.lt_of_not_le fun hge => ?_
    rw [Store.read_beyond ho hs hg hge] at hnone
    cases hnone
  have hportion := (Store.read_portion ho hs hg hfit).1
  rw [hnone] at hportion
  have hnil : (s.undelivered r.stream g).take (max r.count.toNat 1) = [] := by
    by_cases hn : (s.undelivered r.stream g).take (max r.count.toNat 1) = []
    · exact hn
    · rw [if_neg hn] at hportion
      cases hportion
  have hrest : s.undelivered r.stream g = [] := by
    rcases List.take_eq_nil_iff.mp hnil with hzero | hrest
    · omega
    · exact hrest
  have hpast : (s.stream r.stream).entries.length ≤ g.next := List.drop_eq_nil_iff.mp hrest
  exact hpassed.mp (Nat.lt_of_lt_of_le hplace hpast)

end Chronicle

namespace History

/-- Reads that are repeated come to an answer of nothing, or break off because their count leads too far. -/
theorem reads_drain {r : ReadRequest} {g : Group} (h : History) (ho : h.world.store.Open .read)
    (hs : h.world.store.scripted = [])
    (hg : (h.world.store.stream r.stream).groups.get? r.group = some g)
    (hnext : g.next ≤ (h.entries r.stream).length) :
    ∃ n ≤ (h.entries r.stream).length - g.next,
      let last := ((h.run (List.replicate n (.operation (.read r)))).world.store.read r).2
      last = .answer none ∨ last = .broken .beyondCount ∧
        UInt64.size ≤ (h.entries r.stream).length + max r.count.toNat 1 := by
  generalize hleft : (h.entries r.stream).length - g.next = left
  induction left using Nat.strongRecOn generalizing h g with
  | ind left ih =>
    rcases Nat.lt_or_ge (g.next + max r.count.toNat 1) UInt64.size with hfit | hfar
    case inr =>
      exact ⟨0, Nat.zero_le _, .inr ⟨congrArg Prod.snd (Store.read_beyond ho hs hg hfar), by omega⟩⟩
    have hportion := Store.read_portion ho hs hg hfit
    have hlength : (h.world.store.undelivered r.stream g).length = left := by
      rw [Store.undelivered, List.length_drop, ← hleft]
      rfl
    generalize hgiven : (h.world.store.undelivered r.stream g).take (max r.count.toNat 1) = given
      at hportion
    have hsome : given.length = min (max r.count.toNat 1) left := by
      rw [← hgiven, List.length_take, hlength]
    obtain ⟨hanswer, hshare⟩ := hportion
    by_cases hnil : given = []
    · rw [if_pos hnil] at hanswer
      exact ⟨0, Nat.zero_le _, .inl hanswer⟩
    · have hpos : 0 < given.length := List.length_pos_iff.mpr hnil
      obtain ⟨ho', hs'⟩ := Store.read_open (r := r) ho hs
      have hentries : (h.next (.operation (.read r))).entries r.stream = h.entries r.stream :=
        congrArg Share.entries hshare
      have hg' : ((h.next (.operation (.read r))).world.store.stream r.stream).groups.get? r.group =
          some (g.given r.member given) := congrArg Share.group hshare
      have hplace : (g.given r.member given).next = g.next + given.length := rfl
      obtain ⟨n, hn, hend⟩ := ih (left - given.length) (by omega) (h.next (.operation (.read r))) ho' hs'
        hg' (by rw [hentries, hplace]; omega) (by rw [hentries, hplace]; omega)
      refine ⟨n + 1, by omega, ?_⟩
      rw [List.replicate_succ, run_cons]
      rwa [hentries] at hend

/-- What becomes of an entry `e` that was added by an operation of the log, after `l₁` and before `l₂`. -/
structure Keeps (h : History) (stream group : String) (l₁ : List Occurrence) (o : Occurrence)
    (l₂ : List Occurrence) (e : Entry) : Prop where
  kept : (h.entries stream)[(o.store.stream stream).entries.length]? = some e
  /-- The group gets past it only by giving it out. -/
  passed : ∃ g, (h.world.store.stream stream).groups.get? group = some g ∧
    ((o.store.stream stream).entries.length < g.next ↔ e ∈ Log.given h.log stream group)
  /-- It is given out in one answer at most. -/
  once : e ∈ Log.given h.log stream group → ∃ m₁ p m₂, h.log = m₁ ++ p :: m₂ ∧
    e ∈ p.gives stream group ∧ ∀ q ∈ m₁ ++ m₂, e ∉ q.gives stream group
  /-- It was given out when the store answers a read by nothing. -/
  drained : ∀ (m₁ : List Occurrence) (q : Occurrence) (m₂ : List Occurrence) (r : ReadRequest),
    l₂ = m₁ ++ q :: m₂ → r.stream = stream → r.group = group → q.CameTo (.read r) (.answer none) →
    q.recited = none → e ∈ Log.given (l₁ ++ o :: m₁) stream group

theorem keeps {h : History} {l₁ l₂ : List Occurrence} {o : Occurrence} {stream group id : String}
    {fields : List (String × Bytes)} (hc : Chronicle h.log h.world.store h.world.now)
    (hl : h.log = l₁ ++ o :: l₂) (hasked : ∃ p ∈ l₁, p.op = .createGroup stream group)
    (ho : o.CameTo (.append stream fields) (.answer id)) :
    h.Keeps stream group l₁ o l₂ ⟨id, .ofList fields⟩ := by
  obtain ⟨first, hf⟩ := Log.foundedAt_of_asked hasked
  obtain ⟨hop, hid⟩ := ho
  have hid' : ((o.store.stream stream).append o.clock fields).2 = id := Response.answer.inj hid
  have he : (o.after.stream stream).entries =
      (o.store.stream stream).entries ++ [⟨id, .ofList fields⟩] := by
    rw [Occurrence.after, hop, ← hid']
    exact congrArg Stream.entries (Store.append_stream_self ..)
  obtain ⟨g, hg, -⟩ := hc.served (hl ▸ Log.foundedAt_append hf)
  obtain ⟨hkept, hpassed⟩ := hc.passed_iff hl hf he hg
  refine ⟨hkept, ⟨g, hg, hpassed⟩,
    Log.given_once ((hc.nodup_given stream group).of_map _), ?_⟩
  rintro m₁ q m₂ r rfl rfl rfl hq hrecited
  have hopen : q.store.Open .read := Occurrence.open_of_read hq
  -- the log up to the read
  have hcut : h.log = (l₁ ++ o :: m₁) ++ q :: m₂ := by rw [hl, List.append_assoc, List.cons_append]
  have hbefore := (hc.before hcut).1
  obtain ⟨g', hg', -⟩ := hbefore.served (Log.foundedAt_append hf)
  exact hbefore.given_of_drained rfl hf he hg' hopen
    (Occurrence.unscripted_of_recited hq.1 hopen hrecited) hq.2

end History

end StreamWorker
