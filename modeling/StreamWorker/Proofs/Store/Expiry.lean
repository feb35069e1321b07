import StreamWorker.Proofs.Store.Memory

/-! Keys whose time is up. The store in memory removes no record; it compares the expiry with the clock
whenever it looks at one. A map that removes every record at the very instant at which its time is up
gives the same answers to every sequence of requests, whatever time passes and whatever fails in between.
Of both a key shows the last write that succeeded, from that write on up to its expiry. -/

namespace StreamWorker

/-- What can be asked of keys, and what can happen in between. -/
inductive KeyRequest where
  | set (key value : String) (ttl : Duration)
  | claim (key value : String) (ttl : Duration)
  | get (key : String)
  /-- Looks at the record itself, which nothing can make fail. -/
  | entry (key : String)
  | fail (p : FaultPoint) (reason : String)
  | stall (p : FaultPoint)
  | clearFaults (p : FaultPoint)
  | elapse (nanos : Nat)
  deriving DecidableEq

inductive KeyAnswer where
  | wrote (r : Response Unit)
  | claimed (r : Response Bool)
  | got (r : Response (Option String))
  | entry (r : Except Breakdown (Option KeyRecord))
  | nothing

/-- A request with the instant at which it was made and its answer. -/
structure KeyExchange where
  now : Nat
  request : KeyRequest
  answer : KeyAnswer

/-- The record that was written under a key, if the request asked for that and succeeded. -/
def KeyExchange.written? (x : KeyExchange) (key : String) : Option KeyRecord :=
  match x.request, x.answer with
  | .set k value ttl, .wrote (.answer ()) => if k = key then some ⟨value, ttl, x.now⟩ else none
  | .claim k value ttl, .claimed (.answer true) => if k = key then some ⟨value, ttl, x.now⟩ else none
  | _, _ => none

/-- The records that were written under a key, in order. -/
def writesOf (key : String) (l : List KeyExchange) : List KeyRecord := l.filterMap (·.written? key)

/-! ### Two ways to answer -/

/-- A store in memory at an instant. -/
structure Moment where
  now : Nat
  store : Store

def Moment.ask (m : Moment) : KeyRequest → Moment × KeyAnswer
  | .set key value ttl =>
    let (store, r) := m.store.set m.now key value ttl
    ({ m with store }, .wrote r)
  | .claim key value ttl =>
    let (store, r) := m.store.claim m.now key value ttl
    ({ m with store }, .claimed r)
  | .get key =>
    let (store, r) := m.store.get m.now key
    ({ m with store }, .got r)
  | .entry key => (m, .entry (m.store.keys.look m.now key))
  | .fail p reason => ({ m with store := m.store.fail p reason }, .nothing)
  | .stall p => ({ m with store := m.store.stall p }, .nothing)
  | .clearFaults p => ({ m with store := m.store.clearFaults p }, .nothing)
  | .elapse nanos => ({ m with now := m.now + nanos }, .nothing)

/-- What is left after a list of requests, and what was said. -/
def Moment.run (m : Moment) : List KeyRequest → Moment × List KeyExchange
  | [] => (m, [])
  | r :: rs =>
    let (m', answer) := m.ask r
    let (m'', l) := m'.run rs
    (m'', ⟨m.now, r, answer⟩ :: l)

/-- Keys that are removed when their time is up. -/
structure EagerKeys where
  now : Nat
  records : String → Option KeyRecord := fun _ => none
  failing : FaultPoint → Option String := fun _ => none
  stalled : FaultPoint → Bool := fun _ => false

namespace EagerKeys

/-- Removes every record whose time is up. -/
def sweep (e : EagerKeys) : EagerKeys :=
  { e with records := fun k => (e.records k).filter (e.now < ·.expiry) }

/-- Writes a record, which does not stay for an instant if it has no time. -/
def write (e : EagerKeys) (key value : String) (ttl : Duration) : EagerKeys :=
  sweep { e with records := fun k => if key = k then some ⟨value, ttl, e.now⟩ else e.records k }

/-- Answers an operation unless it is made to stall or to fail. -/
def gate {α : Type} (e : EagerKeys) (p : FaultPoint) (go : EagerKeys × α) : EagerKeys × Response α :=
  if e.stalled p then (e, .stalled)
  else match e.failing p with
    | some reason => (e, .failure (.store reason))
    | none => (go.1, .answer go.2)

def ask (e : EagerKeys) : KeyRequest → EagerKeys × KeyAnswer
  | .set key value ttl =>
    let (e, r) := e.gate .set (e.write key value ttl, ())
    (e, .wrote r)
  | .claim key value ttl =>
    let (e, r) := e.gate .claim <| match e.records key with
      | some _ => (e, false)
      | none => (e.write key value ttl, true)
    (e, .claimed r)
  | .get key =>
    let (e, r) := e.gate .get (e, (e.records key).map (·.value))
    (e, .got r)
  | .entry key => (e, .entry (.ok (e.records key)))
  | .fail p reason => ({ e with failing := fun q => if p = q then some reason else e.failing q }, .nothing)
  | .stall p => ({ e with stalled := fun q => q = p || e.stalled q }, .nothing)
  | .clearFaults p =>
    ({ e with
        failing := fun q => if p = q then none else e.failing q
        stalled := fun q => e.stalled q && q ≠ p }, .nothing)
  | .elapse nanos => (sweep { e with now := e.now + nanos }, .nothing)

def run (e : EagerKeys) : List KeyRequest → EagerKeys × List KeyExchange
  | [] => (e, [])
  | r :: rs =>
    let (e', answer) := e.ask r
    let (e'', l) := e'.run rs
    (e'', ⟨e.now, r, answer⟩ :: l)

end EagerKeys

/-! ### Requests within the range of the clock -/

/-- The request writes no record whose expiry is past the end of the clock. -/
def KeyRequest.Fits (limit now : Nat) : KeyRequest → Prop
  | .set _ _ ttl | .claim _ _ ttl => now + ttl.nanos < limit
  | _ => True

def KeyRequest.after (now : Nat) : KeyRequest → Nat
  | .elapse nanos => now + nanos
  | _ => now

/-- No request of a list that begins at an instant writes a record whose expiry is past the end of the
clock. -/
def Fits (limit now : Nat) : List KeyRequest → Prop
  | [] => True
  | r :: rs => r.Fits limit now ∧ Fits limit (r.after now) rs

instance (limit now : Nat) : (r : KeyRequest) → Decidable (r.Fits limit now)
  | .set .. | .claim .. => inferInstanceAs (Decidable (_ < _))
  | .get _ | .entry _ | .fail .. | .stall _ | .clearFaults _ | .elapse _ => .isTrue trivial

instance decidableFits (limit : Nat) :
    (now : Nat) → (rs : List KeyRequest) → Decidable (Fits limit now rs)
  | _, [] => .isTrue trivial
  | now, r :: rs =>
    have := decidableFits limit (r.after now) rs
    inferInstanceAs (Decidable (_ ∧ _))

namespace Keyspace

/-- Every expiry is on the clock. -/
def InRange (ks : Keyspace) : Prop := ∀ k r, ks.records.get? k = some r → r.expiry < ks.limit

variable {ks : Keyspace}

theorem InRange.look (h : ks.InRange) (now : Nat) (key : String) :
    ks.look now key = .ok ((ks.records.get? key).filter (now < ·.expiry)) := by
  cases hr : ks.records.get? key with
  | none => rw [look_of_none hr]; rfl
  | some r =>
    rcases Nat.lt_or_ge now r.expiry with hn | hn
    · rw [look_of_live hr (h key r hr) hn, Option.filter_some, if_pos (decide_eq_true hn)]
    · rw [look_of_over hr (h key r hr) hn, Option.filter_some, if_neg (by simpa using hn)]

theorem InRange.put (h : ks.InRange) {now : Nat} {ttl : Duration} (key value : String)
    (ht : now + ttl.nanos < ks.limit) : (ks.put now key value ttl).InRange := by
  intro k r hr
  rw [get?_put] at hr
  split at hr
  · cases hr; exact ht
  · exact h k r hr

end Keyspace

/-! ### One request -/

/-- The eager keys are those of the store that are not yet over. -/
structure Mirrors (m : Moment) (e : EagerKeys) : Prop where
  now : e.now = m.now
  records : ∀ k, e.records k = (m.store.keys.records.get? k).filter (m.now < ·.expiry)
  failing : ∀ p, e.failing p = m.store.failing.get? p
  stalled : ∀ p, e.stalled p = true ↔ p ∈ m.store.stalled
  inRange : m.store.keys.InRange

namespace Mirrors

variable {m : Moment} {e : EagerKeys} {key value : String} {ttl : Duration}

theorem look (h : Mirrors m e) (k : String) : m.store.keys.look m.now k = .ok (e.records k) := by
  rw [h.inRange.look, h.records]

/-- Faults meet both alike. -/
theorem gate {α : Type} (h : Mirrors m e) (p : FaultPoint) {g : Store → Store × Response α}
    {store : Store} {a : α} {e' : EagerKeys} (hg : g m.store = (store, .answer a))
    (h' : Mirrors { m with store } e') :
    (m.store.gate p g).2 = (e.gate p (e', a)).2 ∧
      Mirrors { m with store := (m.store.gate p g).1 } (e.gate p (e', a)).1 := by
  rcases Store.fault_cases m.store p with hs | ⟨reason, hs, hf⟩ | ho
  · rw [Store.gate_of_stalled hs, EagerKeys.gate, if_pos ((h.stalled p).mpr hs)]
    exact ⟨rfl, h⟩
  · rw [Store.gate_of_failing hs hf, EagerKeys.gate, if_neg (mt (h.stalled p).mp hs), h.failing, hf]
    exact ⟨rfl, h⟩
  · rw [Store.gate_of_open ho, EagerKeys.gate, if_neg (mt (h.stalled p).mp ho.1), h.failing, ho.2, hg]
    exact ⟨rfl, h'⟩

theorem write (h : Mirrors m e) (key value : String) (ht : m.now + ttl.nanos < m.store.keys.limit) :
    Mirrors { m with store := { m.store with keys := m.store.keys.put m.now key value ttl } }
      (e.write key value ttl) where
  now := h.now
  records k := by
    simp only [EagerKeys.write, EagerKeys.sweep, Keyspace.get?_put, h.now, h.records]
    split
    · rfl
    · rw [Option.filter_filter]; simp
  failing := h.failing
  stalled := h.stalled
  inRange := h.inRange.put key value ht

theorem elapse (h : Mirrors m e) (nanos : Nat) :
    Mirrors { m with now := m.now + nanos } (EagerKeys.sweep { e with now := e.now + nanos }) where
  now := by rw [← h.now]; rfl
  records k := by
    simp only [EagerKeys.sweep, h.now, h.records, Option.filter_filter]
    congr 1
    funext r
    rw [← Bool.decide_and]
    exact decide_eq_decide.mpr ⟨fun hr => hr.2, fun hr => ⟨by omega, hr⟩⟩
  failing := h.failing
  stalled := h.stalled
  inRange := h.inRange

/-- Both answer a request alike, and still agree afterwards. -/
theorem ask (h : Mirrors m e) {r : KeyRequest} (hr : r.Fits m.store.keys.limit m.now) :
    (m.ask r).2 = (e.ask r).2 ∧ Mirrors (m.ask r).1 (e.ask r).1 := by
  cases r with
  | set key value ttl =>
    simp only [Moment.ask, EagerKeys.ask, Store.set]
    exact (h.gate .set (by rfl) (h.write key value hr)).imp_left (congrArg KeyAnswer.wrote)
  | claim key value ttl =>
    have hlook := h.look key
    cases hc : e.records key with
    | some old =>
      rw [hc] at hlook
      simp only [Moment.ask, EagerKeys.ask, hc, Store.claim]
      refine (h.gate .claim ?_ h).imp_left (congrArg KeyAnswer.claimed)
      rw [Keyspace.claim_of_look_some hlook]
    | none =>
      rw [hc] at hlook
      simp only [Moment.ask, EagerKeys.ask, hc, Store.claim]
      refine (h.gate .claim ?_ (h.write key value hr)).imp_left (congrArg KeyAnswer.claimed)
      rw [Keyspace.claim_of_look_none hlook]
  | get key =>
    simp only [Moment.ask, EagerKeys.ask, Store.get]
    refine (h.gate .get ?_ h).imp_left (congrArg KeyAnswer.got)
    rw [h.look key]
  | entry key => exact ⟨congrArg KeyAnswer.entry (h.look key), h⟩
  | fail p reason =>
    refine ⟨rfl, { h with failing := fun q => ?_ }⟩
    simp only [Moment.ask, EagerKeys.ask, Store.fail, Table.get?_insert, h.failing]
  | stall p =>
    refine ⟨rfl, { h with stalled := fun q => ?_ }⟩
    simp only [Moment.ask, EagerKeys.ask, Store.stall, List.mem_cons, Bool.or_eq_true,
      decide_eq_true_eq, h.stalled]
  | clearFaults p =>
    refine ⟨rfl, { h with failing := fun q => ?_, stalled := fun q => ?_ }⟩
    · simp only [Moment.ask, EagerKeys.ask, Store.clearFaults, Table.get?_erase, h.failing]
    · simp only [Moment.ask, EagerKeys.ask, Store.clearFaults, List.mem_filter, Bool.and_eq_true,
        decide_eq_true_eq, h.stalled]
  | elapse nanos => exact ⟨rfl, h.elapse nanos⟩

end Mirrors

/-! ### All requests -/

theorem Moment.now_ask (m : Moment) (r : KeyRequest) : (m.ask r).1.now = r.after m.now := by
  cases r <;> rfl

theorem Moment.limit_ask (m : Moment) (r : KeyRequest) :
    (m.ask r).1.store.keys.limit = m.store.keys.limit := by
  cases r with
  | set key value ttl => exact Store.set_limit ..
  | claim key value ttl => exact Store.claim_limit ..
  | get key => exact congrArg (·.keys.limit) (Store.get_store ..)
  | _ => rfl

/-- Both give the same answers to a list of requests. -/
theorem Mirrors.run {m : Moment} {e : EagerKeys} (h : Mirrors m e) {rs : List KeyRequest}
    (hr : Fits m.store.keys.limit m.now rs) :
    (m.run rs).2 = (e.run rs).2 ∧ Mirrors (m.run rs).1 (e.run rs).1 := by
  induction rs generalizing m e with
  | nil => exact ⟨rfl, h⟩
  | cons r rs ih =>
    obtain ⟨ha, hm⟩ := h.ask hr.1
    obtain ⟨hrest, hm'⟩ := ih hm (by rw [m.now_ask, m.limit_ask]; exact hr.2)
    simp only [Moment.run, EagerKeys.run, h.now, ha, hrest]
    exact ⟨trivial, hm'⟩

/-- A request that writes a key leaves its record there, and any other leaves the key as it is. -/
theorem Moment.ask_written (m : Moment) (r : KeyRequest) (key : String) :
    let x : KeyExchange := ⟨m.now, r, (m.ask r).2⟩
    (m.ask r).1.store.keys.records.get? key =
        (x.written? key).or (m.store.keys.records.get? key) ∧
      (m.ask r).1.store.keys.writeCount key =
        m.store.keys.writeCount key + (x.written? key).toList.length := by
  have hput (k value : String) (ttl : Duration) :
      (m.store.keys.put m.now k value ttl).records.get? key =
          (if k = key then some ⟨value, ttl, m.now⟩ else none : Option KeyRecord).or
            (m.store.keys.records.get? key) ∧
        (m.store.keys.put m.now k value ttl).writeCount key = m.store.keys.writeCount key +
          (if k = key then some ⟨value, ttl, m.now⟩ else none : Option KeyRecord).toList.length := by
    rw [Keyspace.get?_put, Keyspace.writeCount_put]
    split <;> exact ⟨rfl, rfl⟩
  cases r with
  | set k value ttl =>
    rcases Store.set_contents m.store m.now k value ttl with ⟨hs, hn⟩ | hs
    · cases hr : (m.store.set m.now k value ttl).2 with
      | answer u => exact absurd hr hn
      | _ => simp [Moment.ask, hs, hr, KeyExchange.written?]
    · simpa only [Moment.ask, hs, KeyExchange.written?] using hput k value ttl
  | claim k value ttl =>
    rcases Store.claim_cases m.store m.now k value ttl with ⟨-, -, hs⟩ | ⟨hs, hn⟩
    · simpa only [Moment.ask, hs, KeyExchange.written?] using hput k value ttl
    · cases hr : (m.store.claim m.now k value ttl).2 with
      | answer created =>
        cases created with
        | true => exact absurd hr hn
        | false => simp [Moment.ask, hs, hr, KeyExchange.written?]
      | _ => simp [Moment.ask, hs, hr, KeyExchange.written?]
  | get k => simp [Moment.ask, Store.get_store, KeyExchange.written?]
  | _ => exact ⟨rfl, rfl⟩

/-- A key holds what was written last, and its writes are counted. -/
theorem Moment.run_written (m : Moment) (rs : List KeyRequest) (key : String) :
    (m.run rs).1.store.keys.records.get? key =
        ((writesOf key (m.run rs).2).getLast?).or (m.store.keys.records.get? key) ∧
      (m.run rs).1.store.keys.writeCount key =
        m.store.keys.writeCount key + (writesOf key (m.run rs).2).length := by
  induction rs generalizing m with
  | nil => exact ⟨rfl, rfl⟩
  | cons r rs ih =>
    obtain ⟨hrecord, hcount⟩ := m.ask_written r key
    obtain ⟨hrecord', hcount'⟩ := ih (m.ask r).1
    have hsplit : writesOf key (m.run (r :: rs)).2 =
        (KeyExchange.written? ⟨m.now, r, (m.ask r).2⟩ key).toList ++
          writesOf key ((m.ask r).1.run rs).2 := by
      rw [Moment.run, writesOf, List.filterMap_cons]
      cases KeyExchange.written? ⟨m.now, r, (m.ask r).2⟩ key <;> rfl
    rw [hsplit]
    constructor
    · have hrun : (m.run (r :: rs)).1 = ((m.ask r).1.run rs).1 := rfl
      rw [hrun, hrecord', hrecord, ← Option.or_assoc, List.getLast?_append]
      cases KeyExchange.written? ⟨m.now, r, (m.ask r).2⟩ key <;> rfl
    · have hrun : (m.run (r :: rs)).1 = ((m.ask r).1.run rs).1 := rfl
      rw [hrun, hcount', hcount, List.length_append, Nat.add_assoc]

/-- Looking at the expiry of records is as good as removing them when their time is up: the same answers
are given to all requests. At every moment a key shows what was written last, up to its expiry, a claim
writes exactly if nothing is shown and changes nothing otherwise, and all writes are counted. -/
theorem lazy_expiry_refines_eager (limit now : Nat) (rs : List KeyRequest) (hr : Fits limit now rs) :
    let (m, l) := Moment.run ⟨now, .new limit⟩ rs
    let (e, l') := EagerKeys.run { now } rs
    let s := m.store
    l = l' ∧
    ∀ key,
      let shown := ((writesOf key l).getLast?).filter (m.now < ·.expiry)
      e.records key = shown ∧
      s.keys.look m.now key = .ok shown ∧
      (s.Open .get → s.get m.now key = (s, .answer (shown.map (·.value)))) ∧
      (s.Open .claim → ∀ value ttl, s.claim m.now key value ttl =
        if shown = none then ({ s with keys := s.keys.put m.now key value ttl }, .answer true)
        else (s, .answer false)) ∧
      (¬ s.Open .claim → ∀ value ttl, (s.claim m.now key value ttl).1 = s ∧
        ∀ created, (s.claim m.now key value ttl).2 ≠ .answer created) ∧
      s.keys.writeCount key = (writesOf key l).length := by
  have hstart : Mirrors ⟨now, .new limit⟩ { now } :=
    ⟨rfl, fun _ => rfl, fun _ => rfl, fun _ => by simp [Store.new], fun _ _ h => by cases h⟩
  obtain ⟨hanswers, hm⟩ := hstart.run hr
  refine ⟨hanswers, fun key => ?_⟩
  obtain ⟨hrecord, hcount⟩ := Moment.run_written ⟨now, .new limit⟩ rs key
  have hshown := hm.records key
  have hnone : (Store.new limit).keys.records.get? key = none := rfl
  rw [hrecord, hnone, Option.or_none] at hshown
  have hlook := hm.look key
  rw [hshown] at hlook
  refine ⟨hshown, hlook, fun ho => ?_, fun ho value ttl => ?_, fun hn value ttl => ?_, ?_⟩
  · exact Prod.ext (Store.get_store ..) (by rw [Store.get_of_open ho, hlook])
  · split
    · next hnone =>
      rw [hnone] at hlook
      exact Store.claim_of_absent ho hlook
    · next hsome =>
      obtain ⟨r, hr⟩ := Option.ne_none_iff_exists'.mp hsome
      rw [hr] at hlook
      exact Store.claim_of_present ho hlook
  · rcases Store.fault_cases (Moment.run ⟨now, .new limit⟩ rs).1.store .claim with
      hs | ⟨reason, hs, hf⟩ | ho
    · rw [Store.claim, Store.gate_of_stalled hs]; simp
    · rw [Store.claim, Store.gate_of_failing hs hf]; simp
    · exact absurd ho hn
  · rw [hcount]
    exact Nat.zero_add _

/-- A record of no time at all, a claim that fails, and a claim that has to wait for a shorter time. -/
theorem lazy_expiry_refines_eager_reclaimed :
    let rs : List KeyRequest := [.set "k" "a" (.ofMillis 5), .claim "k" "b" (.ofMillis 5),
      .set "k" "c" (.ofMillis 2), .elapse 2000000, .fail .claim "down", .claim "k" "d" (.ofMillis 1),
      .clearFaults .claim, .claim "k" "e" (.ofMillis 0)]
    Fits Instant.range 7 rs ∧
      (Moment.run ⟨7, .new Instant.range⟩ rs).1.store.keys.look 2000007 "k" = .ok none ∧
      (Moment.run ⟨7, .new Instant.range⟩ rs).1.store.keys.writeCount "k" = 3 := by
  intro rs
  have hr : Fits Instant.range 7 rs := by decide
  obtain ⟨-, hall⟩ := lazy_expiry_refines_eager Instant.range 7 rs hr
  obtain ⟨-, hlook, -, -, -, hcount⟩ := hall "k"
  exact ⟨hr, hlook, hcount⟩

end StreamWorker
