import Mathlib
import StreamWorker.Proofs.History.Heartbeat
import StreamWorker.Proofs.History.Results
import StreamWorker.Proofs.Session.Tallies

/-! Calls that come to an end with a result. In an event at most one call gives a result, because it
notices that it was cancelled or by what its operation came to, and what is counted then is told by the
call and its operations alone. In all other events at most a heartbeat loop is counted. Sums over all
calls, of what completed calls contribute, change accordingly. -/

namespace StreamWorker

/-! ### What a completed call counts -/

instance (o : Occurrence) (key value : String) (ttl : Duration) :
    Decidable (o.Created key value ttl) :=
  inferInstanceAs (Decidable (o.op = .claim key value ttl ∧
    (o.store.claim o.now key value ttl).2 = .answer true))

namespace Occurrence

/-- The operation has set a key, whatever it held. -/
def hasSet (o : Occurrence) : Bool :=
  match o.op with
  | .set key value ttl => (o.store.set o.now key value ttl).2 = .answer ()
  | _ => false

variable {o : Occurrence} {key key' value : String} {ttl : Duration}

theorem writes_iff_of_set (hop : o.op = .set key value ttl) :
    o.Writes key' ↔ key = key' ∧ o.hasSet = true := by
  rw [hasSet, Writes, wrote?, hop]
  by_cases hk : key = key' <;> simp [hk]

theorem exists_set (h : o.hasSet = true) : ∃ key value ttl, o.op = .set key value ttl := by
  unfold hasSet at h
  split at h
  · next key value ttl hop => exact ⟨key, value, ttl, hop⟩
  · cases h

end Occurrence

def Asker.isLoop : Asker → Bool
  | .loop _ => true
  | .call _ | .outsider => false

def Asker.isCall : Asker → Bool
  | .call _ => true
  | .loop _ | .outsider => false

/-- The call is one that can be at the stage. -/
def Stage.Of : Stage → Call → Prop
  | .reading, c => c = .consume
  | .claiming message result, c => c = .publish message result
  | .acknowledging message, c => ∃ result, c = .publish message result
  | .beating .., c => c = .heartbeat

namespace CallRecord

/-- The call has given a result, and `p` is true of it. -/
def gave (c : CallRecord) (p : Except Failure Success → Bool) : Bool :=
  match c.course with
  | .ended (.finished r) => p r
  | .ended .abandoned | .ended (.broken _) | .running _ | .held _ => false

def completed (c : CallRecord) : Bool := c.gave fun _ => true

/-- The call is a read of the stream. -/
def readsFrom (c : CallRecord) (stream : String) : Bool :=
  c.call = .consume && c.worker.settings.stream = stream

/-- The call is a publication for an entry of the stream. -/
def publishesOn (c : CallRecord) (stream : String) : Bool :=
  c.call.subject?.isSome && c.worker.settings.stream = stream

/-- One of the operations of a publication has created its result. -/
def created (c : CallRecord) (l : List Occurrence) : Bool :=
  match c.call with
  | .publish message result => l.any fun o => o.Created message result c.worker.settings.retention
  | .consume | .heartbeat => false

/-- What is counted for a call once it has given a result. -/
def counts (c : CallRecord) (l : List Occurrence) : List Tally :=
  match c.course, c.call with
  | .ended (.finished r), .consume => [.read c.worker.settings.stream (.of r)]
  | .ended (.finished r), .publish .. =>
    (if c.created l then [.acknowledgment c.worker.settings.stream r.isOk] else []) ++
      [.result c.worker.settings.stream (.of r)]
  | _, _ => []

variable {c : CallRecord} {gone : Prop} {l : List Occurrence} {f : Flight}

/-- A call has given a result, or nothing is counted for it. -/
theorem gave_cases (c : CallRecord) :
    (∃ r, c.course = .ended (.finished r) ∧ ∀ p, c.gave p = p r) ∨
      (∀ l, c.counts l = []) ∧ ∀ p, c.gave p = false := by
  cases hx : c.course with
  | running f => exact .inr ⟨fun l => by simp only [counts, hx], fun p => by simp only [gave, hx]⟩
  | held f => exact .inr ⟨fun l => by simp only [counts, hx], fun p => by simp only [gave, hx]⟩
  | ended x =>
    cases x with
    | finished r => exact .inl ⟨r, rfl, fun p => by simp only [gave, hx]⟩
    | abandoned => exact .inr ⟨fun l => by simp only [counts, hx], fun p => by simp only [gave, hx]⟩
    | broken b => exact .inr ⟨fun l => by simp only [counts, hx], fun p => by simp only [gave, hx]⟩

theorem created_iff {message result : String} (h : c.call = .publish message result) :
    c.created l = true ↔ ∃ o ∈ l, o.Created message result c.worker.settings.retention := by
  simp [created, h]

theorem counts_of_publish {message result : String} {r : Except Failure Success}
    (h : c.call = .publish message result) (hr : c.course = .ended (.finished r)) :
    c.counts l = (if c.created l then [.acknowledgment c.worker.settings.stream r.isOk] else []) ++
      [.result c.worker.settings.stream (.of r)] := by
  simp only [counts, hr, h]

theorem Follows.worker (h : c.Follows gone l) (hf : c.course.flight? = some f) : f.worker = c.worker := by
  unfold Follows at h
  split at h
  · generalize c.course = course at h hf
    cases h <;> cases hf <;> rfl
  all_goals
    rcases h with ⟨stage, -, h⟩ | ⟨-, b, hb⟩
    · rw [h.flight hf]
    · rw [hb] at hf; cases hf

end CallRecord

namespace Publishing

variable {gone : Prop} {w : Worker} {token message result : String} {l : List Occurrence} {c : Course}
variable {f : Flight}

/-- A publication that still claims has created nothing. -/
theorem not_created {m r : String} (h : Publishing gone w token message result l c)
    (hf : c.flight? = some f) (hs : f.stage = .claiming m r) :
    ∀ o ∈ l, ¬ o.Created message result w.settings.retention := by
  cases h with
  | begun => simp
  | waiting ho =>
    intro p hp hc
    rw [List.mem_singleton.mp hp] at hc
    cases ho.2.symm.trans hc.2
  | created | unconfirmed => cases hf; cases hs
  | _ => cases hf

/-- A publication that asks for its acknowledgment has created its result. -/
theorem exists_created {m : String} (h : Publishing gone w token message result l c)
    (hf : c.flight? = some f) (hs : f.stage = .acknowledging m) :
    ∃ o ∈ l, o.Created message result w.settings.retention := by
  cases h with
  | begun | waiting => cases hf; cases hs
  | created ho => exact ⟨_, List.mem_singleton_self _, ho⟩
  | unconfirmed ho _ => exact ⟨_, List.mem_cons_self, ho⟩
  | _ => cases hf

end Publishing

/-- A claim after which its call has given a result has created nothing. -/
theorem Flight.answered_claim {f : Flight} {message result : String} {r : Except Failure Success}
    {o : Occurrence} (hs : f.stage = .claiming message result)
    (hr : f.answered (o.store.perform o.now o.clock (f.worker.operation f.stage)).2 =
      .ended (.finished r)) : ¬ o.Created message result f.worker.settings.retention := by
  obtain ⟨w, token, stage⟩ := f
  cases hs
  intro hc
  have h : (o.store.perform o.now o.clock (w.operation (.claiming message result))).2 = .answer true :=
    hc.2
  dsimp only at hr
  rw [h] at hr
  cases hr

namespace History

variable {h h' : History} {e : Event} {n : Nat} {c c' : CallRecord} {f : Flight}
variable {g : CallRecord → List Occurrence → Nat} {r : Except Failure Success}

/-! ### Sums over calls -/

/-- The sum of what every call contributes, which is told by the call and its operations. -/
def total (h : History) (g : CallRecord → List Occurrence → Nat) : Nat :=
  (h.calls.mapIdx fun n c => g c (h.trail n)).sum

/-- How many calls there are of which `p` is true. -/
def numberOf (h : History) (p : CallRecord → List Occurrence → Bool) : Nat :=
  h.total fun c l => (p c l).toNat

theorem total_add (h : History) (g g' : CallRecord → List Occurrence → Nat) :
    h.total (fun c l => g c l + g' c l) = h.total g + h.total g' := by
  simp only [total, List.mapIdx_eq_zipIdx_map, ← List.sum_map_add]

theorem mapIdx_congr {α β : Type} {l : List α} {F F' : Nat → α → β}
    (hF : ∀ n a, l[n]? = some a → F n a = F' n a) : l.mapIdx F = l.mapIdx F' := by
  refine List.ext_getElem? fun n => ?_
  rw [List.getElem?_mapIdx, List.getElem?_mapIdx]
  cases ha : l[n]? with
  | none => rfl
  | some a => exact congrArg some (hF n a ha)

theorem total_eq {g' : CallRecord → List Occurrence → Nat}
    (hg : ∀ n c, h.calls[n]? = some c → g c (h.trail n) = g' c (h.trail n)) : h.total g = h.total g' :=
  congrArg List.sum (mapIdx_congr hg)

theorem total_le {g' : CallRecord → List Occurrence → Nat}
    (hg : ∀ n c, h.calls[n]? = some c → g c (h.trail n) ≤ g' c (h.trail n)) : h.total g ≤ h.total g' := by
  have hsplit : h.total g' = h.total fun c l => g c l + (g' c l - g c l) :=
    total_eq fun n c hc => (Nat.add_sub_cancel' (hg n c hc)).symm
  rw [hsplit, total_add]
  exact Nat.le_add_right ..

theorem total_congr (hcalls : h'.calls = h.calls)
    (ht : ∀ n c, h.calls[n]? = some c → h'.trail n = h.trail n) : h'.total g = h.total g := by
  rw [total, total, hcalls]
  exact congrArg List.sum (mapIdx_congr fun n c hc => by rw [ht n c hc])

theorem sum_set_add {l : List Nat} {a b : Nat} (ha : l[n]? = some a) :
    (l.set n b).sum + a = l.sum + b := by
  obtain ⟨hn, rfl⟩ := List.getElem?_eq_some_iff.mp ha
  have hself : l.sum = (l.set n l[n]).sum := by rw [List.set_getElem_self]
  rw [hself, List.sum_set, List.sum_set, if_pos hn, if_pos hn]
  omega

/-- One call gets further, and all others stay as they are. -/
theorem total_set (hc : h.calls[n]? = some c) (hcalls : h'.calls = h.calls.set n c')
    (ht : ∀ m, m ≠ n → h'.trail m = h.trail m) :
    h'.total g + g c (h.trail n) = h.total g + g c' (h'.trail n) := by
  have hmap : h'.calls.mapIdx (fun n c => g c (h'.trail n)) =
      (h.calls.mapIdx fun n c => g c (h.trail n)).set n (g c' (h'.trail n)) := by
    rw [hcalls, List.mapIdx_set]
    refine List.ext_getElem? fun m => ?_
    rw [List.getElem?_set, List.getElem?_set, List.length_mapIdx, List.length_mapIdx]
    split
    · rfl
    · next hm => rw [List.getElem?_mapIdx, List.getElem?_mapIdx, ht m (Ne.symm hm)]
  rw [total, hmap]
  exact sum_set_add (by rw [List.getElem?_mapIdx, hc]; rfl)

/-- A call is begun, and has no operations yet. -/
theorem total_concat (hS : h.Sound) (hcalls : h'.calls = h.calls ++ [c']) (hlog : h'.log = h.log) :
    h'.total g = h.total g + g c' [] := by
  have ht (m : Nat) : h'.trail m = h.trail m := by rw [trail, trail, hlog]
  have hnew : h.trail h.calls.length = [] := by
    rw [trail, List.filter_eq_nil_iff]
    intro o ho hn
    exact absurd (hS.callers o ho _ (by simpa using hn)) (Nat.lt_irrefl _)
  rw [total, hcalls, List.mapIdx_concat, List.sum_append, List.sum_singleton, ht, hnew]
  simp only [ht]
  rfl

/-- Only calls that have given a result contribute. -/
def OfCompleted (g : CallRecord → List Occurrence → Nat) : Prop :=
  ∀ c l, (∀ r, c.course ≠ .ended (.finished r)) → g c l = 0

/-! ### What an event does to calls and counters -/

/-- In an event a call, which was about to perform an operation or waited for one, gives a result. -/
structure Completes (h : History) (e : Event) (n : Nat) (c : CallRecord) (f : Flight)
    (r : Except Failure Success) : Prop where
  found : h.calls[n]? = some c
  waits : c.course.flight? = some f
  calls : (h.next e).calls = h.calls.set n { c with course := .ended (.finished r) }
  /-- It was cancelled, or its operation came to this. -/
  reason : h.added e = [] ∧ r = .error .cancelled ∨
    ∃ o, h.added e = [o] ∧ o.asker = .call n ∧ o.op = f.worker.operation f.stage ∧
      f.answered (o.store.perform o.now o.clock (f.worker.operation f.stage)).2 = .ended (.finished r)
  sum : ∀ t, (h.next e).world.ledger.sum t =
    h.world.ledger.sum t + (f.worker.counts f.stage r).count t
  others : ∀ m, m ≠ n → (h.next e).trail m = h.trail m

/-- In an event no call gives a result, and at most a loop is counted. -/
structure Passes (h : History) (e : Event) : Prop where
  total : ∀ g, OfCompleted g → (h.next e).total g = h.total g
  sum : ∀ t, t ≠ .heartbeat false → (h.next e).world.ledger.sum t = h.world.ledger.sum t +
    if t = .heartbeat true then (h.added e).countP fun o => o.asker.isLoop && o.hasSet else 0
  unset : ∀ o ∈ h.added e, o.asker.isCall = true → o.hasSet = false

theorem Passes.still (hcalls : (h.next e).calls = h.calls) (hadded : h.added e = [])
    (hsum : ∀ t, (h.next e).world.ledger.sum t = h.world.ledger.sum t) : h.Passes e where
  total g _ := total_congr hcalls fun m c _ => by rw [trail_next, hadded, List.filter_nil, List.append_nil]
  sum t _ := by rw [hadded, hsum, List.countP_nil, ite_self, Nat.add_zero]
  unset o ho := by rw [hadded] at ho; cases ho

/-- A call that has not ended has contributed nothing. -/
theorem OfCompleted.of_flight (hg : OfCompleted g) (hf : c.course.flight? = some f)
    (l : List Occurrence) : g c l = 0 :=
  hg c l fun r hr => by rw [hr] at hf; cases hf

/-- An operation that has set a key has ended its call. -/
theorem hasSet_eq_false {o : Occurrence} (ho : o.op = f.worker.operation f.stage)
    (hr : ∀ r, f.answered (o.store.perform o.now o.clock (f.worker.operation f.stage)).2 ≠
      .ended (.finished r)) : o.hasSet = false := by
  obtain ⟨w, token, stage⟩ := f
  unfold Occurrence.hasSet
  rw [ho]
  cases stage with
  | beating value expiry =>
    refine decide_eq_false fun hset => hr (.ok .done) ?_
    have h : (o.store.perform o.now o.clock (w.operation (.beating value expiry))).2 = .answer () := hset
    dsimp only
    rw [h]
    rfl
  | _ => rfl

/-- A call that was about to perform an operation, or waited for one, and gets this far. -/
theorem passes_or_completes_of_course {course : Course} (hc : h.calls[n]? = some c)
    (hf : c.course.flight? = some f) (hcalls : (h.next e).calls = h.calls.set n { c with course })
    (hothers : ∀ m, m ≠ n → (h.next e).trail m = h.trail m)
    (hsum : ∀ t, (h.next e).world.ledger.sum t = h.world.ledger.sum t + (f.counts course).count t)
    (hadded : (h.added e = [] ∧ ∀ r, course = .ended (.finished r) → r = .error .cancelled) ∨
      ∃ o, h.added e = [o] ∧ o.asker = .call n ∧ o.op = f.worker.operation f.stage ∧
        course = f.answered (o.store.perform o.now o.clock (f.worker.operation f.stage)).2) :
    h.Passes e ∨ ∃ r, h.Completes e n c f r := by
  by_cases hr : ∃ r, course = .ended (.finished r)
  · obtain ⟨r, rfl⟩ := hr
    refine .inr ⟨r, hc, hf, hcalls, ?_, hsum, hothers⟩
    rcases hadded with ⟨hnil, hgone⟩ | ⟨o, ho, hasker, hop, hcourse⟩
    · exact .inl ⟨hnil, hgone r rfl⟩
    · exact .inr ⟨o, ho, hasker, hop, hcourse.symm⟩
  · have hquiet : ∀ r, course ≠ .ended (.finished r) := fun r h => hr ⟨r, h⟩
    refine .inl ⟨fun g hg => ?_, fun t _ => ?_, fun o ho _ => ?_⟩
    · have hset := total_set (g := g) hc hcalls hothers
      rwa [hg.of_flight hf, hg { c with course } _ hquiet, Nat.add_zero, Nat.add_zero] at hset
    · have hnone : f.counts course = [] := by
        unfold Flight.counts
        split
        · next r => exact absurd rfl (hquiet r)
        · rfl
      have hloops : ((h.added e).countP fun o => o.asker.isLoop && o.hasSet) = 0 := by
        rw [List.countP_eq_zero]
        rcases hadded with ⟨hnil, -⟩ | ⟨o, ho, hasker, -⟩
        · simp [hnil]
        · simp [ho, hasker, Asker.isLoop]
      rw [hsum, hnone, hloops, ite_self, List.count_nil]
    · rcases hadded with ⟨hnil, -⟩ | ⟨p, hp, -, hop, hcourse⟩
      · rw [hnil] at ho; cases ho
      · rw [hp, List.mem_singleton] at ho
        subst ho
        exact hasSet_eq_false hop fun r hr => hquiet r (hcourse.trans hr)

/-- A loop that is let go on sets its key exactly if its write is answered. -/
theorem countP_beats (h : History) (task : Task) :
    ((h.beats task).countP fun o => o.asker.isLoop && o.hasSet) =
      if task.loop?.any h.world.shows then 1 else 0 := by
  cases task with
  | cancel token => rfl
  | loop id =>
    have hshows : (Task.loop id).loop?.any h.world.shows = h.world.shows id := rfl
    rw [hshows, World.shows]
    cases hb : h.world.beating? id with
    | none =>
      have hw : h.world.writer? (.loop id) = none := hb
      simp [beats, hw]
    | some l =>
      have hw : h.world.writer? (.loop id) = some l := hb
      have hbeats : h.beats (.loop id) = [h.occurrence (.loop id)
          (.set l.worker.heartbeatKey (toString h.world.clock) l.expiry)] := by simp only [beats, hw]
      rw [hbeats]
      exact List.countP_singleton

theorem trail_proceed_of_ne {m : Nat} (hm : m ≠ n) : (h.next (.proceed n)).trail m = h.trail m :=
  trail_next_of_ne fun he => hm (by cases he; rfl)

/-- One event lets at most one call give a result, and everything that is counted is counted for that. -/
theorem passes_or_completes (hS : h.Sound) (e : Event) :
    h.Passes e ∨ ∃ n c f r, h.Completes e n c f r := by
  cases e with
  | hire name id settings kind =>
    obtain ⟨members, loops, ready, hw⟩ := World.hire_eq h.world name id settings kind
    exact .inl (.still rfl rfl fun t => by rw [next, hw])
  | start member token => exact .inl (.still rfl rfl fun t => World.start_sum ..)
  | stop member =>
    obtain ⟨members, loops, ready, hw⟩ := World.stop_eq h.world member
    exact .inl (.still rfl rfl fun t => by rw [next, hw])
  | dismiss member =>
    obtain ⟨members, loops, ready, hw⟩ := World.dismiss_eq h.world member
    exact .inl (.still rfl rfl fun t => by rw [next, hw])
  | command r => exact .inl (.still rfl rfl fun t => by rw [next, World.command_ledger])
  | elapse nanos => exact .inl (.still rfl rfl fun t => rfl)
  | begin member token call =>
    cases hm : h.world.members.get? member with
    | none => exact .inl (.still (by simp [next, hm]) rfl fun t => by simp [next, hm])
    | some m =>
      have hnext : h.next (.begin member token call) = h.begin m.worker token call := by
        simp only [next, hm]
      refine .inl ⟨fun g hg => ?_, fun t _ => ?_, fun o ho => by cases ho⟩
      · have hconcat : (h.begin m.worker token call).total g = h.total g + g _ [] :=
          total_concat hS rfl rfl
        rw [hnext, hconcat, hg, Nat.add_zero]
        intro r
        dsimp only
        split <;> simp
      · simp [hnext, added, History.begin]
  | proceed n =>
    cases hc : h.calls[n]? with
    | none => exact .inl (.still (by simp [next, hc]) (by simp [added, hc]) fun t => by simp [next, hc])
    | some c =>
      cases hf : c.course with
      | running f =>
        have hnext : h.next (.proceed n) = mark { h with
            world := (h.world.stepFlight f).1
            log := h.log ++ h.asked n f } n c (.ofStep f (h.world.stepFlight f).2) := by
          simp only [next, hc, proceed, hf]
        have hasked : h.added (.proceed n) = h.asked n f := by simp [added, hc, hf]
        refine (passes_or_completes_of_course hc (by rw [hf]; rfl) (by rw [hnext]; rfl)
          (fun m => trail_proceed_of_ne) (fun t => by rw [hnext]; exact h.world.stepFlight_sum f t)
          ?_).imp_right fun hr => ⟨n, c, f, hr⟩
        by_cases hx : h.world.isCancelled f.token = true
        · refine .inl ⟨by rw [hasked, asked, if_pos hx], fun r hr => ?_⟩
          rw [World.stepFlight_of_cancelled hx] at hr
          cases hr
          rfl
        · exact .inr ⟨_, by rw [hasked, asked, if_neg hx], rfl, rfl, World.ofStep_stepFlight hx⟩
      | held f =>
        have hnext : h.next (.proceed n) =
            mark { h with world := (h.world.resume f).1 } n c (.ofStep f (h.world.resume f).2) := by
          simp only [next, hc, proceed, hf]
        refine (passes_or_completes_of_course hc (by rw [hf]; rfl) (by rw [hnext]; rfl)
          (fun m => trail_proceed_of_ne) (fun t => by rw [hnext]; exact h.world.resume_sum f t)
          (.inl ⟨by simp [added, hc, hf], fun r hr => ?_⟩)).imp_right fun hr => ⟨n, c, f, hr⟩
        rw [World.resume_eq] at hr
        split at hr
        · cases hr
          rfl
        · simp [Course.ofStep] at hr
      | ended e =>
        exact .inl (.still (by simp [next, hc, proceed, hf]) (by simp [added, hc, hf])
          fun t => by simp [next, hc, proceed, hf])
  | abandon n =>
    cases hc : h.calls[n]? with
    | none => exact .inl (.still (by simp [next, hc]) rfl fun t => by simp [next, hc])
    | some c =>
      have hend (f : Flight) (hf : c.course.flight? = some f) (hnext : h.next (.abandon n) =
          mark { h with world := h.world.abandon f } n c (.ended .abandoned)) :
          h.Passes (.abandon n) ∨ ∃ m d f r, h.Completes (.abandon n) m d f r :=
        (passes_or_completes_of_course hc hf (by rw [hnext]; rfl)
          (fun m _ => trail_next_of_ne (by simp)) (fun t => by rw [hnext]; exact h.world.abandon_sum f t)
          (.inl ⟨rfl, fun r hr => by cases hr⟩)).imp_right fun hr => ⟨n, c, f, hr⟩
      cases hf : c.course with
      | running f => exact hend f (by rw [hf]; rfl) (by simp only [next, hc, abandon, hf])
      | held f => exact hend f (by rw [hf]; rfl) (by simp only [next, hc, abandon, hf])
      | ended e =>
        exact .inl (.still (by simp [next, hc, abandon, hf]) rfl fun t => by simp [next, hc, abandon, hf])
  | operation op =>
    refine .inl ⟨fun g _ => total_congr rfl fun m c _ => trail_next_of_ne (by simp), fun t _ => ?_,
      fun o ho hcall => ?_⟩
    · simp [added, occurrence, Asker.isLoop, next]
    · rw [List.mem_singleton.mp ho] at hcall
      cases hcall
  | wake task =>
    refine .inl ⟨fun g _ => total_congr rfl fun m c _ => trail_next_of_ne (by simp), fun t ht => ?_,
      fun o ho hcall => ?_⟩
    · rw [next, World.wake_sum h.world task ht, added, h.countP_beats task]
      by_cases hb : t = .heartbeat true <;> simp [hb]
    · obtain hb | ⟨id, key, value, ttl, hb⟩ := beats_eq_nil_or h task
      · rw [added, hb] at ho; cases ho
      · rw [added, hb, List.mem_singleton] at ho
        rw [ho] at hcall
        cases hcall

/-! ### Stages of calls -/

theorem stage_of_stepFlight {w : World} {g : Flight} {call : Call} (hf : f.stage.Of call)
    (hg : (Course.ofStep f (w.stepFlight f).2).flight? = some g) : g.stage.Of call := by
  by_cases hx : w.isCancelled f.token = true
  · rw [World.stepFlight_of_cancelled hx] at hg
    cases hg
  · rw [World.ofStep_stepFlight hx] at hg
    have hreact {answer : Except Failure (f.worker.operation f.stage).Answer}
        (h : (Course.ofReaction f (f.worker.react f.stage answer)).flight? = some g) :
        g.stage.Of call := by
      rw [Course.ofReaction] at h
      cases hn : (f.worker.react f.stage answer).next with
      | inr r => rw [hn] at h; cases h
      | inl stage =>
        rw [hn] at h
        cases h
        obtain ⟨message, result, hs, rfl⟩ := Worker.react_next_stage hn
        rw [hs] at hf
        exact ⟨result, hf⟩
    cases hr : (w.store.perform w.now w.clock (f.worker.operation f.stage)).2 with
    | answer a => rw [hr] at hg; exact hreact hg
    | failure e => rw [hr] at hg; exact hreact hg
    | stalled => rw [hr] at hg; cases hg; exact hf
    | broken b => rw [hr] at hg; cases hg

/-- Every call is at a stage of its own. -/
def Staged (h : History) : Prop :=
  ∀ (n : Nat) (c : CallRecord) (f : Flight), h.calls[n]? = some c → c.course.flight? = some f → f.stage.Of c.call

theorem Staged.set {course : Course} (hs : h.Staged) (hcalls : h'.calls = h.calls.set n { c with course })
    (hcourse : ∀ f, course.flight? = some f → f.stage.Of c.call) : h'.Staged := by
  intro m d f hd hf
  rw [hcalls, List.getElem?_set] at hd
  split at hd
  · split at hd
    · cases hd
      exact hcourse f hf
    · cases hd
  · exact hs m d f hd hf

theorem Staged.next (hs : h.Staged) (e : Event) : (h.next e).Staged := by
  cases e with
  | begin member token call =>
    rw [History.next]
    split
    · intro n c f hc hf
      rw [History.begin, List.getElem?_append] at hc
      split at hc
      · exact hs n c f hc hf
      · rw [List.getElem?_singleton] at hc
        split at hc
        · cases hc
          cases call with
          | consume => cases hf; rfl
          | publish message result => cases hf; rfl
          | heartbeat =>
            dsimp only at hf
            split at hf
            · next stage hstart =>
              cases hf
              unfold Worker.start at hstart
              dsimp only at hstart
              split at hstart
              · cases hstart
                rfl
              · cases hstart
            · cases hf
        · cases hc
    · exact hs
  | proceed n =>
    rw [History.next]
    split
    · next c hc =>
      rw [proceed]
      cases hf : c.course with
      | running f =>
        refine hs.set (c := c) rfl fun g hg => stage_of_stepFlight (hs n c f hc ?_) hg
        rw [hf]
        rfl
      | held f =>
        refine hs.set (c := c) rfl fun g hg => ?_
        rw [World.resume_eq] at hg
        split at hg
        · cases hg
        · rw [Course.ofStep, if_pos rfl] at hg
          cases hg
          exact hs n c f hc (by rw [hf]; rfl)
      | ended e => exact hs
    · exact hs
  | abandon n =>
    rw [History.next]
    split
    · next c hc =>
      rw [abandon]
      split
      · exact hs.set (c := c) rfl fun g hg => by cases hg
      · exact hs.set (c := c) rfl fun g hg => by cases hg
      · exact hs
    · exact hs
  | _ => exact hs

/-! ### What is counted when a call gives a result -/

namespace Completes

variable (hx : h.Completes e n c f r)
include hx

theorem trail_eq : (h.next e).trail n = h.trail n ++ h.added e := by
  rw [trail_next]
  congr 1
  rw [List.filter_eq_self]
  intro o ho
  rcases hx.reason with ⟨hnil, -⟩ | ⟨p, hp, hasker, -⟩
  · rw [hnil] at ho; cases ho
  · rw [hp, List.mem_singleton] at ho
    simpa [ho] using hasker

theorem total {g : CallRecord → List Occurrence → Nat} (hg : OfCompleted g) :
    (h.next e).total g = h.total g +
      g { c with course := .ended (.finished r) } (h.trail n ++ h.added e) := by
  have hset := total_set (g := g) hx.found hx.calls hx.others
  rwa [hg.of_flight hx.waits, Nat.add_zero, hx.trail_eq] at hset

/-- A publication that gives a result has created it if it had come to its acknowledgment. -/
theorem created_iff (hS : h.Sound) (hs : f.stage.Of c.call) {message result : String}
    (hcall : c.call = .publish message result) :
    CallRecord.created { c with course := .ended (.finished r) } (h.trail n ++ h.added e) = true ↔
      ∃ m, f.stage = .acknowledging m := by
  have hP := hS.publishing ⟨hx.found, hcall⟩
  have hw := (hS.calls n c hx.found).follows.worker hx.waits
  rw [CallRecord.created_iff (by exact hcall)]
  constructor
  · rintro ⟨o, ho, hcreated⟩
    cases hst : f.stage with
    | acknowledging m => exact ⟨m, rfl⟩
    | claiming m text =>
      rw [hst, hcall] at hs
      obtain ⟨rfl, rfl⟩ := Call.publish.inj hs
      rcases List.mem_append.mp ho with ho | ho
      · exact absurd hcreated (hP.not_created hx.waits hst o ho)
      · rcases hx.reason with ⟨hnil, -⟩ | ⟨p, hp, -, -, hr⟩
        · rw [hnil] at ho; cases ho
        · rw [hp, List.mem_singleton] at ho
          subst ho
          rw [← hw] at hcreated
          exact absurd hcreated (Flight.answered_claim hst hr)
    | reading =>
      rw [hst, hcall] at hs
      cases hs
    | beating value expiry =>
      rw [hst, hcall] at hs
      cases hs
  · rintro ⟨m, hst⟩
    obtain ⟨o, ho, hcreated⟩ := hP.exists_created hx.waits hst
    exact ⟨o, List.mem_append_left _ ho, hcreated⟩

/-- What is counted when a call gives a result is what is counted for the call. -/
theorem counts_eq (hS : h.Sound) (hs : f.stage.Of c.call) :
    CallRecord.counts { c with course := .ended (.finished r) } (h.trail n ++ h.added e) =
      f.worker.counts f.stage r := by
  have hw := (hS.calls n c hx.found).follows.worker hx.waits
  have hcreated {message result : String} (hcall : c.call = .publish message result) :=
    hx.created_iff hS hs hcall
  rw [hw]
  cases hst : f.stage with
  | reading =>
    rw [hst] at hs
    have hcall : c.call = .consume := hs
    simp [CallRecord.counts, Worker.counts, hcall]
  | claiming message result =>
    rw [hst] at hs
    rw [CallRecord.counts_of_publish (by exact hs) rfl, if_neg fun hc => ?_]
    · rfl
    · obtain ⟨m, hm⟩ := (hcreated hs).mp hc
      rw [hst] at hm
      cases hm
  | acknowledging message =>
    rw [hst] at hs
    obtain ⟨result, hcall⟩ := hs
    rw [CallRecord.counts_of_publish (by exact hcall) rfl, if_pos ((hcreated hcall).mpr ⟨message, hst⟩)]
    rfl
  | beating value expiry =>
    rw [hst] at hs
    have hcall : c.call = .heartbeat := hs
    simp [CallRecord.counts, Worker.counts, hcall]

/-- A call that gives a result has set a key exactly if it is for a heartbeat and succeeds. -/
theorem hasSet_eq (hs : f.stage.Of c.call) : ((h.added e).countP fun o => o.asker.isCall && o.hasSet) =
    (c.call = .heartbeat && r.isOk : Bool).toNat := by
  rcases hx.reason with ⟨hnil, rfl⟩ | ⟨o, ho, hasker, hop, hr⟩
  · simp [hnil, Except.isOk, Except.toBool]
  · rw [ho, List.countP_singleton, hasker]
    have hnone (hstage : ∀ value expiry, f.stage ≠ .beating value expiry) :
        o.hasSet = false ∧ c.call ≠ .heartbeat := by
      unfold Occurrence.hasSet
      rw [hop]
      cases hst : f.stage with
      | beating value expiry => exact absurd hst (hstage value expiry)
      | reading => rw [hst] at hs; exact ⟨rfl, by rw [hs]; simp⟩
      | claiming => rw [hst] at hs; exact ⟨rfl, by rw [hs]; simp⟩
      | acknowledging =>
        rw [hst] at hs
        obtain ⟨result, hcall⟩ := hs
        exact ⟨rfl, by rw [hcall]; simp⟩
    by_cases hstage : ∃ value expiry, f.stage = .beating value expiry
    · obtain ⟨value, expiry, hst⟩ := hstage
      obtain ⟨w, token, stage⟩ := f
      cases hst
      have hcall : c.call = .heartbeat := hs
      have hset : o.hasSet = r.isOk := by
        unfold Occurrence.hasSet
        rw [hop]
        have hanswered : Flight.answered ⟨w, token, .beating value expiry⟩
            (o.store.set o.now w.heartbeatKey value expiry).2 = .ended (.finished r) := hr
        cases hresponse : (o.store.set o.now w.heartbeatKey value expiry).2 with
        | answer u => rw [hresponse] at hanswered; cases hanswered; exact decide_eq_true hresponse
        | failure x =>
          rw [hresponse] at hanswered
          cases hanswered
          exact decide_eq_false (by rw [hresponse]; simp)
        | stalled => rw [hresponse] at hanswered; cases hanswered
        | broken b => rw [hresponse] at hanswered; cases hanswered
      cases hok : r.isOk <;> simp [hset, hok, hcall, Asker.isCall]
    · obtain ⟨hset, hcall⟩ := hnone fun value expiry hst => hstage ⟨value, expiry, hst⟩
      simp [hset, hcall]

/-- Loops are not concerned. -/
theorem countP_loops : ((h.added e).countP fun o => o.asker.isLoop && o.hasSet) = 0 := by
  rw [List.countP_eq_zero]
  rcases hx.reason with ⟨hnil, -⟩ | ⟨o, ho, hasker, -⟩
  · simp [hnil]
  · simp [ho, hasker, Asker.isLoop]

end Completes

theorem ofCompleted_counts (t : Tally) : OfCompleted fun c l => (c.counts l).count t := by
  intro c l hc
  rcases c.gave_cases with ⟨r, hr, -⟩ | ⟨hnone, -⟩
  · exact absurd hr (hc r)
  · dsimp only
    rw [hnone, List.count_nil]

theorem ofCompleted_gave (p : Except Failure Success → Bool) (q : CallRecord → List Occurrence → Bool) :
    OfCompleted fun c l => (q c l && c.gave p).toNat := by
  intro c l hc
  rcases c.gave_cases with ⟨r, hr, -⟩ | ⟨-, hnone⟩
  · exact absurd hr (hc r)
  · dsimp only
    rw [hnone, Bool.and_false, Bool.toNat_false]

end History

end StreamWorker
