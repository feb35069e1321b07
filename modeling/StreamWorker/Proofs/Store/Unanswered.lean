import StreamWorker.Proofs.Store.Stream

/-! Operations that come to nothing. Whatever an operation asks for, if it is not answered then it has
left the store as it was, except that a read is noted before anything can go wrong with it. How a read
comes out is decided in a definite order: faults first, then the answers given in advance, then the
streams; and a stream or a group that is missing is not made by asking for it. -/

namespace StreamWorker

/-- An operation that is about a group which is taken to be there: it reads for the group or
acknowledges to it. -/
def Operation.Names (stream group : String) : Operation → Prop
  | .read r => r.stream = stream ∧ r.group = group
  | .acknowledge x g _ => x = stream ∧ g = group
  | _ => False

namespace Store

variable {s : Store} {now clock : Nat} {op : Operation} {r : ReadRequest}

/-- The store once an operation has been asked for, before anything has come of it. -/
def noted (s : Store) : Operation → Store
  | .read r => { s with lastRead := some r }
  | _ => s

/-- An operation that did not come to an answer. -/
def Unanswered (s : Store) (now clock : Nat) (op : Operation) : Prop :=
  ∀ a, (s.perform now clock op).2 ≠ .answer a

/-! ### Operations that are not answered -/

theorem gate_unanswered {α : Type} {p : FaultPoint} {go : Store → Store × Response α}
    (hgo : (∀ a, (go s).2 ≠ .answer a) → (go s).1 = s) (h : ∀ a, (s.gate p go).2 ≠ .answer a) :
    (s.gate p go).1 = s := by
  rcases fault_cases s p with hs | ⟨reason, hs, hf⟩ | ho
  · rw [gate_of_stalled hs]
  · rw [gate_of_failing hs hf]
  · rw [gate_of_open ho] at h ⊢
    exact hgo h

theorem deliver_unanswered (h : ∀ a, (s.deliver r).2 ≠ .answer a) : (s.deliver r).1 = s := by
  unfold deliver at h ⊢
  split
  · rfl
  · next st hst =>
    split
    · rfl
    · next g hg =>
      simp only [hst, hg] at h
      split
      · rfl
      · next ht =>
        simp only [ht] at h
        exact absurd rfl (h _)
      · next ht =>
        simp only [ht] at h
        exact absurd rfl (h _)

/-- An operation that is not answered has only been noted. -/
theorem perform_unanswered (h : s.Unanswered now clock op) :
    (s.perform now clock op).1 = s.noted op := by
  unfold Unanswered at h
  cases op with
  | set key value ttl => exact gate_unanswered (fun hgo => absurd rfl (hgo ())) h
  | claim key value ttl =>
    refine gate_unanswered (fun hgo => ?_) h
    split at hgo
    · exact absurd rfl (hgo _)
    · rfl
  | get key => exact get_store s now key
  | read r =>
    refine gate_unanswered (s := s.noted (.read r)) (fun hgo => ?_) h
    split at hgo
    · exact absurd rfl (hgo _)
    · exact deliver_unanswered hgo
  | acknowledge stream group id =>
    refine gate_unanswered (fun hgo => ?_) h
    split at hgo
    · exact absurd rfl (hgo _)
    · exact absurd rfl (hgo _)
  | createGroup stream group => exact absurd rfl (h ())
  | append stream fields => exact absurd rfl (h _)

/-! ### Reads -/

theorem read_of_stalled (h : .read ∈ s.stalled) :
    s.read r = ({ s with lastRead := some r }, .stalled) :=
  gate_of_stalled h

theorem read_of_failing {reason : String} (h : .read ∉ s.stalled)
    (hf : s.failing.get? .read = some reason) :
    s.read r = ({ s with lastRead := some r }, .failure (.store reason)) :=
  gate_of_failing h hf

/-- The next answer that was given in advance is passed on, and nothing else happens. -/
theorem read_of_scripted {reply : Option (List Batch)} {rest : List (Option (List Batch))}
    (ho : s.Open .read) (hs : s.scripted = reply :: rest) :
    s.read r = ({ s with lastRead := some r, scripted := rest }, .answer reply) := by
  have ho' : ({ s with lastRead := some r } : Store).Open .read := ho
  rw [read, gate_of_open ho']
  dsimp only
  rw [hs]

/-- There is no such group, or not even such a stream. -/
def Lacks (s : Store) (stream group : String) : Prop :=
  (s.stream stream).groups.get? group = none

instance (s : Store) (stream group : String) : Decidable (s.Lacks stream group) :=
  inferInstanceAs (Decidable (_ = _))

theorem read_of_lacking (ho : s.Open .read) (hs : s.scripted = []) (hl : s.Lacks r.stream r.group) :
    s.read r = ({ s with lastRead := some r }, .failure (noGroup r.stream r.group)) := by
  rw [read_of_open ho hs, deliver]
  split
  · rfl
  · next st hst =>
    have hst' : s.stream r.stream = st := stream_of_get? hst
    rw [Lacks, hst'] at hl
    rw [hl]

/-- A read fails exactly if it is made to fail, or if its group is missing and no answer was given in
advance. -/
theorem read_failure_iff {f : Failure} : (s.read r).2 = .failure f ↔
    (.read ∉ s.stalled ∧ ∃ reason, s.failing.get? .read = some reason ∧ f = .store reason) ∨
    (s.Open .read ∧ s.scripted = [] ∧ s.Lacks r.stream r.group ∧ f = noGroup r.stream r.group) := by
  rcases fault_cases s .read with hs | ⟨reason, hs, hf⟩ | ho
  · rw [read_of_stalled hs]
    exact ⟨fun h => (by cases h), fun h => h.elim (fun h => absurd hs h.1) fun h => absurd hs h.1.1⟩
  · rw [read_of_failing hs hf]
    constructor
    · intro h
      cases h
      exact .inl ⟨hs, reason, hf, rfl⟩
    · rintro (⟨-, reason', hf', rfl⟩ | ⟨ho, -⟩)
      · rw [hf] at hf'
        cases hf'
        rfl
      · exact absurd ho (not_open_of_failing hf)
  · have hnone : s.failing.get? .read = none := ho.2
    cases hs : s.scripted with
    | cons reply rest =>
      rw [read_of_scripted ho hs]
      simp [hnone]
    | nil =>
      by_cases hl : s.Lacks r.stream r.group
      · rw [read_of_lacking ho hs hl]
        simp [hnone, ho, hl, eq_comm]
      · obtain ⟨g, hg⟩ := Option.ne_none_iff_exists'.mp hl
        have hg' : (({ s with lastRead := some r } : Store).stream r.stream).groups.get? r.group = some g :=
          hg
        rw [read_of_open ho hs, deliver_of_group hg']
        refine ⟨fun h => ?_, fun h => ?_⟩
        · split at h <;> cases h
        · simp [hnone, hl] at h

/-- The read takes its answer from a group, and the place of the group and its count have no sum in 64
bits. -/
def Overreaches (s : Store) (r : ReadRequest) : Prop :=
  s.Open .read ∧ s.scripted = [] ∧ ∃ g, (s.stream r.stream).groups.get? r.group = some g ∧
    UInt64.size ≤ g.next + max r.count.toNat 1

/-- This is the one way in which a read breaks off. -/
theorem read_broken_iff {b : Breakdown} :
    (s.read r).2 = .broken b ↔ b = .beyondCount ∧ s.Overreaches r := by
  rcases fault_cases s .read with hs | ⟨reason, hs, hf⟩ | ho
  · rw [read_of_stalled hs]
    exact ⟨fun h => (by cases h), fun ⟨_, ho, _⟩ => absurd hs ho.1⟩
  · rw [read_of_failing hs hf]
    exact ⟨fun h => (by cases h), fun ⟨_, ho, _⟩ => absurd ho (not_open_of_failing hf)⟩
  · cases hs : s.scripted with
    | cons reply rest =>
      rw [read_of_scripted ho hs]
      simp [Overreaches, hs]
    | nil =>
      by_cases hl : s.Lacks r.stream r.group
      · have hnone : (s.stream r.stream).groups.get? r.group = none := hl
        rw [read_of_lacking ho hs hl]
        simp [Overreaches, hnone]
      · obtain ⟨g, hg⟩ := Option.ne_none_iff_exists'.mp hl
        rcases Nat.lt_or_ge (g.next + max r.count.toNat 1) UInt64.size with hlt | hge
        · obtain ⟨hnone, hsome⟩ := read_exact ho hs hg hlt
          have hfits : ¬ s.Overreaches r := by
            rintro ⟨-, -, g', hg', hge⟩
            obtain rfl : g = g' := Option.some.inj (hg.symm.trans hg')
            omega
          refine ⟨fun h => ?_, fun h => absurd h.2 hfits⟩
          rcases Nat.lt_or_ge g.next (min (s.stream r.stream).entries.length
            (g.next + max r.count.toNat 1)) with hlt | hge
          · rw [(hsome hlt).1] at h
            cases h
          · rw [hnone hge] at h
            cases h
        · rw [read_beyond ho hs hg hge]
          simp only [Response.broken.injEq, eq_comm]
          exact (and_iff_left ⟨ho, hs, g, hg, hge⟩).symm

/-! ### Missing streams and groups -/

/-- Asking for entries of a group that is missing, or acknowledging to it, makes neither the group nor
its stream. -/
theorem perform_of_lacking {stream group : String} (hl : s.Lacks stream group)
    (hn : op.Names stream group) :
    (s.perform now clock op).1.streams = s.streams ∧
      (s.perform now clock op).1.acknowledged = s.acknowledged := by
  cases op with
  | read r =>
    obtain ⟨rfl, rfl⟩ := hn
    refine ⟨?_, (read_keys s r).2⟩
    rcases read_cases s r with ⟨hs, -⟩ | ⟨g, g', given, -, -, hg, -⟩
    · exact hs
    · exact absurd (hl.symm.trans hg) (by simp)
  | acknowledge x g id =>
    obtain ⟨rfl, rfl⟩ := hn
    rcases acknowledge_streams s x g id with ⟨hs, hne⟩ | ⟨g', hg', -⟩
    · refine ⟨hs, ?_⟩
      rw [perform_acknowledged, acknowledges, if_neg hne]
      exact List.append_nil _
    · exact absurd (hl.symm.trans hg') (by simp)
  | _ => cases hn

theorem acknowledge_of_lacking {stream group : String} (id : String) (ho : s.Open .acknowledge)
    (hl : s.Lacks stream group) : s.acknowledge stream group id = (s, .answer 0) := by
  refine acknowledge_of_not_pending ho fun hp => ?_
  obtain ⟨g, hg, -⟩ := mem_pending.mp hp
  exact absurd (hl.symm.trans hg) (by simp)

end Store

end StreamWorker
