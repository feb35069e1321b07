import Mathlib.Data.List.Forall2
import StreamWorker.Proofs.Session.Drain
import StreamWorker.Proofs.Session.Outcome

/-! Cancellation. A call that is begun under a cancelled token says so at once, and one whose operations
do not stall has ended before any time passes. A call that waits is looked at after everything that is due
in the background has run at an instant, and before the clock moves on, so it ends at the instant at which
its token is cancelled. -/

namespace StreamWorker.World

variable {w v : World} {f : Flight}

/-! ### Waiting -/

/-- What becomes of a request once it has been looked at. A call that waits ends if it is cancelled; a
request whose limit is due is given up. -/
inductive Turn (v : World) : Slot → Slot → Prop where
  | ended (e : Ending Reply) : Turn v (.ended e) (.ended e)
  | cancelled {f : Flight} {deadline : Nat} : v.isCancelled f.token = true →
    Turn v (.waiting (some f) deadline) (.ended (.finished (.error .cancelled)))
  | abandoned {f : Option Flight} {deadline : Nat} : deadline ≤ v.now →
    Turn v (.waiting f deadline) (.ended .abandoned)
  | waits {f : Option Flight} {deadline : Nat} : (∀ g ∈ f, v.isCancelled g.token = false) →
    v.now < deadline → Turn v (.waiting f deadline) (.waiting f deadline)

theorem Turn.trans {u : World} {s s' s'' : Slot} (hu : Turn u s s') (hv : Turn v s' s'')
    (hn : u.now = v.now) (ht : ∀ t, u.isCancelled t = true → v.isCancelled t = true) : Turn v s s'' := by
  cases hu with
  | ended e => exact hv
  | cancelled hx =>
    cases hv
    exact .cancelled (ht _ hx)
  | abandoned hd =>
    cases hv
    exact .abandoned (hn ▸ hd)
  | waits _ _ => exact hv

theorem Turn.congr {u : World} {s s' : Slot} (h : Turn v s s') (hn : u.now = v.now)
    (ht : ∀ t, u.isCancelled t = v.isCancelled t) : Turn u s s' := by
  cases h with
  | ended e => exact .ended e
  | cancelled hx => exact .cancelled ((ht _).trans hx)
  | abandoned hd => exact .abandoned (hn ▸ hd)
  | waits hx hd => exact .waits (fun g hg => (ht _).trans (hx g hg)) (hn ▸ hd)

/-- Looking at a request only adds to what is reported. -/
theorem look_spec (w : World) (s : Slot) :
    (∃ trace ledger, (w.look s).1 = { w with trace, ledger }) ∧ Turn w s (w.look s).2 := by
  cases s with
  | ended e => exact ⟨⟨_, _, rfl⟩, .ended e⟩
  | waiting f deadline =>
    cases f with
    | none =>
      refine ⟨⟨_, _, rfl⟩, ?_⟩
      rw [look]
      split
      · next hd => exact .abandoned hd
      · next hd => exact .waits (fun g hg => by cases hg) (Nat.lt_of_not_le hd)
    | some f =>
      rw [look, resume_eq]
      by_cases hx : w.isCancelled f.token = true
      · rw [if_pos hx]
        exact ⟨notes_eq w _, .cancelled hx⟩
      · rw [if_neg hx]
        dsimp only
        split
        · next hd => exact ⟨notes_eq w _, .abandoned hd⟩
        · next hd =>
          refine ⟨⟨_, _, rfl⟩, .waits (fun g hg => ?_) (Nat.lt_of_not_le hd)⟩
          cases hg
          simpa using hx

theorem lookAll_spec (w : World) (slots : List Slot) :
    (∃ trace ledger, (lookAll w slots).1 = { w with trace, ledger }) ∧
      List.Forall₂ (Turn w) slots (lookAll w slots).2 := by
  induction slots generalizing w with
  | nil => exact ⟨⟨_, _, rfl⟩, .nil⟩
  | cons s slots ih =>
    obtain ⟨⟨trace, ledger, hw⟩, hs⟩ := w.look_spec s
    obtain ⟨⟨trace', ledger', hv⟩, hslots⟩ := ih (w.look s).1
    have hcons : lookAll w (s :: slots) =
      ((lookAll (w.look s).1 slots).1, (w.look s).2 :: (lookAll (w.look s).1 slots).2) := rfl
    rw [hcons]
    refine ⟨⟨trace', ledger', by rw [hv, hw]⟩, .cons hs (hslots.imp fun x y h => h.congr ?_ fun t => ?_)⟩
    · rw [hw]
    · rw [hw]
      rfl

theorem turns_trans {u : World} {l l' l'' : List Slot} (hu : List.Forall₂ (Turn u) l l')
    (hv : List.Forall₂ (Turn v) l' l'') (hn : u.now = v.now)
    (ht : ∀ t, u.isCancelled t = true → v.isCancelled t = true) : List.Forall₂ (Turn v) l l'' := by
  induction hu generalizing l'' with
  | nil => cases hv; exact .nil
  | cons hs _ ih => cases hv with | cons hs' hl => exact .cons (hs.trans hs' hn ht) (ih hl)

/-- Everybody is looked at once what is ready has run, and nobody who is cancelled waits any longer. -/
theorem lookAll_settle (w : World) (slots : List Slot) :
    (lookAll w.settle slots).1.now = w.now ∧
      List.Forall₂ (Turn (lookAll w.settle slots).1) slots (lookAll w.settle slots).2 := by
  obtain ⟨⟨trace, ledger, hw⟩, hs⟩ := lookAll_spec w.settle slots
  rw [hw]
  exact ⟨settle_now w, hs.imp fun s s' h => h.congr rfl fun t => rfl⟩

theorem waiting_of_turns {l l' : List Slot} {f : Option Flight} {d : Nat}
    (h : List.Forall₂ (Turn v) l l') (hs : .waiting f d ∈ l') :
    (∀ g ∈ f, v.isCancelled g.token = false) ∧ v.now < d := by
  induction h with
  | nil => cases hs
  | cons ht _ ih =>
    rcases List.mem_cons.mp hs with rfl | hs
    · cases ht with | waits hx hd => exact ⟨hx, hd⟩
    · exact ih hs

/-- In a round the clock is moved to what is due next, and everybody is looked at then. -/
theorem round_spec {slots slots' : List Slot} (h : w.round slots = some (v, slots')) :
    (w.nextDue = some v.now ∨ firstLimit? slots = some v.now) ∧ List.Forall₂ (Turn v) slots slots' := by
  obtain ⟨limit, hlimit, hround⟩ := Option.map_eq_some_iff.mp h
  have hat (h : w.atLimit slots limit = (v, slots')) :
      v.now = limit ∧ List.Forall₂ (Turn v) slots slots' := by
    obtain ⟨⟨trace, ledger, hu⟩, hfirst⟩ := lookAll_spec (w.arrive limit) slots
    obtain ⟨hnow, hsecond⟩ :=
      lookAll_settle (lookAll (w.arrive limit) slots).1 (lookAll (w.arrive limit) slots).2
    have hv : lookAll (lookAll (w.arrive limit) slots).1.settle (lookAll (w.arrive limit) slots).2 =
      (v, slots') := h
    have hlead := leads_settle (lookAll (w.arrive limit) slots).1
    obtain ⟨⟨trace', ledger', hv'⟩, -⟩ := lookAll_spec (lookAll (w.arrive limit) slots).1.settle
      (lookAll (w.arrive limit) slots).2
    rw [hv] at hnow hsecond hv'
    have hlimit : v.now = limit := by rw [hnow, hu]; rfl
    refine ⟨hlimit, turns_trans hfirst hsecond hlimit.symm fun t ht => ?_⟩
    have hcancelled : (lookAll (w.arrive limit) slots).1.isCancelled t = true := by rw [hu]; exact ht
    have hsettled := hlead.cancelled t hcancelled
    dsimp only at hv'
    rw [hv']
    exact hsettled
  cases hdue : w.nextDue with
  | none =>
    simp only [hdue] at hround
    obtain ⟨hn, hs⟩ := hat hround
    exact ⟨.inr (by rw [hlimit, hn]), hs⟩
  | some t =>
    simp only [hdue] at hround
    split at hround
    · obtain ⟨hn, hs⟩ := lookAll_settle (w.arrive t) slots
      rw [hround] at hn hs
      exact ⟨.inl (by rw [hn]; rfl), hs⟩
    · obtain ⟨hn, hs⟩ := hat hround
      exact ⟨.inr (by rw [hlimit, hn]), hs⟩

/-- Requests that were begun together, once everything that was ready has run. -/
def begun (w : World) (rs : List (Request × Nat)) : World × List Slot :=
  lookAll (beginAll w rs).1.settle (beginAll w rs).2

/-- What the session, and the requests that were begun together, are like between rounds of waiting. -/
inductive Awaits (w : World) (rs : List (Request × Nat)) : World → List Slot → Prop where
  | begun : Awaits w rs (w.begun rs).1 (w.begun rs).2
  | round {u v : World} {slots slots' : List Slot} : Awaits w rs u slots →
    u.round slots = some (v, slots') → Awaits w rs v slots'

variable {rs : List (Request × Nat)} {slots : List Slot}

theorem Awaits.awaitAll (h : Awaits w rs v slots) (n : Nat) :
    Awaits w rs (awaitAll n v slots).1 (awaitAll n v slots).2 := by
  induction n generalizing v slots with
  | zero => exact h
  | succ n ih =>
    rw [World.awaitAll]
    cases hr : v.round slots with
    | none => exact h
    | some p => exact ih (h.round hr)

/-- Nobody who is cancelled, and nobody whose time is up, waits for the clock to move. -/
theorem Awaits.attentive (h : Awaits w rs v slots) {f : Option Flight} {d : Nat}
    (hs : .waiting f d ∈ slots) : (∀ g ∈ f, v.isCancelled g.token = false) ∧ v.now < d := by
  cases h with
  | begun => exact waiting_of_turns (lookAll_settle _ _).2 hs
  | round _ hr => exact waiting_of_turns (round_spec hr).2 hs

/-! ### Waiting comes to an end -/

/-- A request is begun as a call or an operation, which changes the store and what is reported, or it is
a command. -/
theorem beginRequest_world (w : World) (deadline : Nat) (r : Request) :
    (∃ store trace ledger, (w.beginRequest deadline r).1 = { w with store, trace, ledger }) ∨
      (w.beginRequest deadline r).1 = w.command r := by
  unfold beginRequest
  split
  · next name token call =>
    refine .inl ?_
    split
    · exact ⟨_, _, _, rfl⟩
    · next m _ =>
      obtain ⟨store, trace, ledger, hb⟩ := begin_eq w m.worker token call
      cases hbegin : w.begin m.worker token call with
      | mk v out =>
        rw [hbegin] at hb
        cases out with
        | inl f =>
          dsimp only
          split
          · obtain ⟨trace', ledger', hn⟩ := notes_eq v (f.worker.abandoned f.stage)
            change v = _ at hb
            subst hb
            exact ⟨store, trace', ledger', hn⟩
          · exact ⟨_, _, _, hb⟩
        | inr e => exact ⟨_, _, _, hb⟩
  · next op =>
    refine .inl ?_
    cases w.store.perform w.now w.clock op with
    | mk store response => cases response <;> exact ⟨_, w.trace, w.ledger, rfl⟩
  · exact .inl ⟨_, _, _, rfl⟩
  · exact .inr rfl

theorem beginAll_cons (w : World) (r : Request × Nat) (rs : List (Request × Nat)) :
    (beginAll w (r :: rs)).1 =
      (beginAll (w.beginRequest (w.now + r.2 * Instant.milli) r.1).1 rs).1 := rfl

/-- Requests are begun without any time passing. -/
theorem beginAll_now (w : World) (rs : List (Request × Nat)) : (beginAll w rs).1.now = w.now := by
  induction rs generalizing w with
  | nil => rfl
  | cons r rs ih =>
    rw [beginAll_cons, ih]
    rcases beginRequest_world w (w.now + r.2 * Instant.milli) r.1 with ⟨store, trace, ledger, hw⟩ | hw
    · rw [hw]
    · rw [hw, command_now]

/-- Members, tokens, loops, timers and tasks are in order, and all workers were made with settings that
can be used. -/
structure Sound (w : World) : Prop where
  orderly : Orderly w
  checked : w.Checked

theorem Sound.move (h : Sound w) (ho : Orderly v) (hl : Leads w v) : Sound v := ⟨ho, hl.checked h.checked⟩

theorem Sound.still (h : Sound w) {store : Store} {trace : Array Note} {ledger : Ledger} :
    Sound { w with store, trace, ledger } :=
  h.move (h.orderly.still rfl rfl rfl rfl rfl rfl) (leads_of_eq (Nat.le_refl _) rfl rfl)

theorem Sound.arrive (h : Sound w) {t : Nat} (ht : w.now ≤ t) : Sound (w.arrive t) :=
  h.move (h.orderly.arrive ht) (leads_arrive ht)

theorem Sound.settle (h : Sound w) : Sound w.settle := h.move (orderly_settle h.orderly) (leads_settle w)

theorem Sound.beginAll (h : Sound w) (rs : List (Request × Nat)) : Sound (beginAll w rs).1 := by
  induction rs generalizing w with
  | nil => exact h
  | cons r rs ih =>
    rw [beginAll_cons]
    refine ih ?_
    rcases beginRequest_world w (w.now + r.2 * Instant.milli) r.1 with ⟨store, trace, ledger, hw⟩ | hw
    · rw [hw]
      exact h.still
    · rw [hw]
      exact h.move (h.orderly.command r.1) (command_leads w r.1).2

theorem Sound.lookAll (h : Sound w) (slots : List Slot) : Sound (lookAll w slots).1 := by
  obtain ⟨⟨trace, ledger, hw⟩, -⟩ := lookAll_spec w slots
  rw [hw]
  exact h.still

/-- The next timer is in the future. -/
theorem Sound.lt_nextDue (h : Sound w) {t : Nat} (hdue : w.nextDue = some t) : w.now < t := by
  obtain ⟨⟨timer, ht, hd⟩, -⟩ := nextDue_eq_some hdue
  exact hd ▸ h.orderly.timers timer ht

theorem firstLimit?_eq_some {limit : Nat} (h : firstLimit? slots = some limit) :
    ∃ f, .waiting f limit ∈ slots := by
  obtain ⟨hmem, -⟩ := List.min?_eq_some_iff.mp h
  obtain ⟨s, hs, hd⟩ := List.mem_filterMap.mp hmem
  cases s with
  | ended e => cases hd
  | waiting f d =>
    cases hd
    exact ⟨f, hs⟩

theorem firstLimit?_eq_none (h : firstLimit? slots = none) : slots = (slots.map Slot.ending).map .ended := by
  have hnil : slots.filterMap Slot.deadline? = [] := List.min?_eq_none_iff.mp h
  rw [List.map_map]
  refine (List.map_id slots).symm.trans (List.map_congr_left fun s hs => ?_)
  have hd := List.filterMap_eq_nil_iff.mp hnil s hs
  cases s with
  | ended e => rfl
  | waiting f d => cases hd

/-- A round takes time, as everything that it can wait for is in the future. -/
theorem Sound.round {slots' : List Slot} (h : Sound w)
    (hlimits : ∀ f d, .waiting f d ∈ slots → w.now < d) (hr : w.round slots = some (v, slots')) :
    Sound v ∧ w.now < v.now := by
  have hlt : w.now < v.now := by
    rcases (round_spec hr).1 with hdue | hlimit
    · exact h.lt_nextDue hdue
    · obtain ⟨f, hf⟩ := firstLimit?_eq_some hlimit
      exact hlimits f _ hf
  refine ⟨?_, hlt⟩
  obtain ⟨limit, hlimit, hround⟩ := Option.map_eq_some_iff.mp hr
  obtain ⟨f, hf⟩ := firstLimit?_eq_some hlimit
  have hat (hv : w.atLimit slots limit = (v, slots')) : Sound v := by
    have harrive := h.arrive (Nat.le_of_lt (hlimits f _ hf))
    rw [← show (w.atLimit slots limit).1 = v from congrArg Prod.fst hv]
    exact (harrive.lookAll slots).settle.lookAll _
  cases hdue : w.nextDue with
  | none =>
    simp only [hdue] at hround
    exact hat hround
  | some t =>
    simp only [hdue] at hround
    split at hround
    · have harrive := h.arrive (Nat.le_of_lt (h.lt_nextDue hdue))
      rw [← show (World.lookAll (w.arrive t).settle slots).1 = v from congrArg Prod.fst hround]
      exact harrive.settle.lookAll slots
    · exact hat hround

theorem Awaits.sound (h : Awaits w rs v slots) (hw : Sound w) : Sound v := by
  induction h with
  | begun => exact (hw.beginAll rs).settle.lookAll _
  | round hu hr ih => exact (ih.round (fun f d hs => (hu.attentive hs).2) hr).1

theorem waiting_mem_of_turns {l l' : List Slot} {f : Option Flight} {d : Nat}
    (h : List.Forall₂ (Turn v) l l') (hs : .waiting f d ∈ l') : .waiting f d ∈ l := by
  induction h with
  | nil => cases hs
  | cons ht _ ih =>
    rcases List.mem_cons.mp hs with rfl | hs
    · cases ht with | waits hx hd => exact List.mem_cons_self
    · exact List.mem_cons_of_mem _ (ih hs)

/-- There are as many rounds of waiting as it takes until everybody has ended. -/
theorem Awaits.awaitAll_ended (h : Awaits w rs v slots) (hw : Sound w) {n : Nat}
    (hn : ∀ f d, .waiting f d ∈ slots → d ≤ v.now + n) :
    (World.awaitAll n v slots).2 = ((World.awaitAll n v slots).2.map Slot.ending).map .ended := by
  induction n generalizing v slots with
  | zero =>
    refine firstLimit?_eq_none ?_
    cases hlimit : firstLimit? slots with
    | none => exact hlimit
    | some limit =>
      obtain ⟨f, hf⟩ := firstLimit?_eq_some hlimit
      exact absurd (hn f _ hf) (Nat.not_le_of_lt (h.attentive hf).2)
  | succ n ih =>
    rw [World.awaitAll]
    cases hr : v.round slots with
    | none => exact firstLimit?_eq_none (Option.map_eq_none_iff.mp hr)
    | some p =>
      obtain ⟨u, slots'⟩ := p
      have hlt := ((h.sound hw).round (fun f d hs => (h.attentive hs).2) hr).2
      refine ih (h.round hr) fun f d hs => ?_
      have := hn f d (waiting_mem_of_turns (round_spec hr).2 hs)
      omega

theorem le_foldl_max (l : List Nat) (a : Nat) : a ≤ l.foldl max a ∧ ∀ d ∈ l, d ≤ l.foldl max a := by
  induction l generalizing a with
  | nil => exact ⟨Nat.le_refl a, fun d hd => by cases hd⟩
  | cons x l ih =>
    obtain ⟨ha, hl⟩ := ih (max a x)
    refine ⟨Nat.le_trans (Nat.le_max_left a x) ha, fun d hd => ?_⟩
    rcases List.mem_cons.mp hd with rfl | hd
    · exact Nat.le_trans (Nat.le_max_right a d) ha
    · exact hl d hd

/-- A session waits for at least as many rounds as it has nanoseconds to wait for. -/
theorem perform_eq (w : World) (rs : List (Request × Nat)) : ∃ n,
    (∀ f d, .waiting f d ∈ (w.begun rs).2 → d ≤ (w.begun rs).1.now + n) ∧
      w.perform rs = ((awaitAll n (w.begun rs).1 (w.begun rs).2).1.settle,
        (awaitAll n (w.begun rs).1 (w.begun rs).2).2.map Slot.ending) := by
  refine ⟨_, fun f d hs => ?_, rfl⟩
  have hd : d ∈ (w.begun rs).2.filterMap Slot.deadline? :=
    List.mem_filterMap.mpr ⟨.waiting f d, hs, rfl⟩
  have hlast := (le_foldl_max _ (w.begun rs).1.now).2 d hd
  change d ≤ (w.begun rs).1.now +
    (((w.begun rs).2.filterMap Slot.deadline?).foldl max (w.begun rs).1.now - (w.begun rs).1.now +
      (w.begun rs).2.length)
  omega

/-- Requests that are performed together have all ended in the end, each by its own turn. -/
theorem Sound.perform (h : Sound w) (rs : List (Request × Nat)) :
    ∃ u es, Awaits w rs u (es.map .ended) ∧ w.perform rs = (u.settle, es) := by
  obtain ⟨n, hn, hperform⟩ := w.perform_eq rs
  have hbegun : Awaits w rs (w.begun rs).1 (w.begun rs).2 := .begun
  refine ⟨_, _, ?_, hperform⟩
  rw [← hbegun.awaitAll_ended h hn]
  exact hbegun.awaitAll n

/-! ### Scripts -/

/-- What a session is like after a script of steps. -/
def reached (clock : Clock) (steps : List Step) : World :=
  steps.foldl (fun w s => (w.step s).1) (new clock)

/-- To wait for a multiple of some milliseconds is to wait for something that is not past. -/
theorem le_align (now millis : Nat) :
    now ≤ (now + (max millis 1 * Instant.milli - 1)) / (max millis 1 * Instant.milli) *
      (max millis 1 * Instant.milli) := by
  have hunit : 0 < max millis 1 * Instant.milli :=
    Nat.mul_pos (Nat.lt_of_lt_of_le Nat.one_pos (Nat.le_max_right ..)) (by decide)
  have hlt := Nat.lt_div_mul_add hunit (a := now + (max millis 1 * Instant.milli - 1))
  omega

theorem Sound.elapse (h : Sound w) (n : Nat) {target : Nat} (hle : w.now ≤ target) :
    Sound (elapse n target w) := by
  induction n generalizing w with
  | zero => exact (h.arrive hle).settle
  | succ n ih =>
    rw [World.elapse]
    cases hdue : w.nextDue with
    | none => exact (h.arrive hle).settle
    | some t =>
      dsimp only
      split
      · next hlt =>
        refine ih (h.arrive (Nat.le_of_lt (h.lt_nextDue hdue))).settle ?_
        rw [settle_now]
        exact Nat.le_of_lt hlt
      · exact (h.arrive hle).settle

/-- Every step keeps a session sound. -/
theorem Sound.step (h : Sound w) (s : Step) : Sound (w.step s).1 := by
  have hperform (rs : List (Request × Nat)) : Sound (w.perform rs).1 := by
    obtain ⟨u, es, hu, hp⟩ := h.perform rs
    rw [hp]
    exact (hu.sound h).settle
  cases s with
  | hire name id settings kind =>
    exact (h.move (h.orderly.hire name id settings kind) (hire_leads ..).2).settle
  | start name token =>
    exact (h.move (h.orderly.start h.checked name token) (start_leads ..).2).settle
  | stop name => exact (h.move (h.orderly.stop name) (stop_leads ..).2).settle
  | dismiss name => exact (h.move (h.orderly.dismiss name) (dismiss_leads ..).2).settle
  | sleep millis => exact h.elapse _ (Nat.le_add_right ..)
  | align millis => exact h.elapse _ (le_align ..)
  | request r limit => exact hperform _
  | together rs => exact hperform rs

theorem sound_reached (clock : Clock) (steps : List Step) : Sound (reached clock steps) := by
  have hsteps (w : World) (h : Sound w) : Sound (steps.foldl (fun w s => (w.step s).1) w) := by
    induction steps generalizing w with
    | nil => exact h
    | cons s steps ih => exact ih _ (h.step s)
  exact hsteps _ ⟨.new clock, fun name m hm => by cases hm⟩

/-! ### Promptness -/

/-- Cancellation is prompt and never misreported, whatever the session is like. No time passes while a
call is begun. Under a cancelled token it comes out as cancelled and leaves the store as it is, unless it
is a heartbeat whose expiry is too long, which breaks off before it looks at its token. A call whose
operations do not stall has come out. It breaks off, instead of coming to an end, exactly if it is such
a heartbeat, if the record at the key that it claims has no end on the clock, or if one more than its
group was given has no number in 64 bits. It fails as cancelled exactly if its token is cancelled by then.
If it waits, an operation of its own has stalled, and of a read no more has come than that it was asked
for.

Whoever waits is looked at before the clock first moves and each time after it has moved, which is to the
next timer or to the next limit. What was cancelled then has ended, and in no other way than as cancelled
or as given up when its limit is due. Being looked at changes nothing but what is reported, and in the end
nobody waits. -/
theorem cancellation_prompt (clock : Clock) (steps : List Step) (rs : List (Request × Nat)) :
    (∀ (w : World) (worker : Worker) (token : String) (call : Call),
      let (v, out) := w.begin worker token call
      v.now = w.now ∧
      (w.isCancelled token = true → ¬ Unbegun worker call →
        out = .inr (.finished (.error .cancelled)) ∧ v.store = w.store) ∧
      ((∀ p ∈ call.uses, p ∉ w.store.stalled) →
        (∃ r, out = .inr (.finished r)) ∨ ∃ b, out = .inr (.broken b)) ∧
      (∀ b, out = .inr (.broken b) ↔ Unbegun worker call ∧ b = .spanTooLong ∨
        (∃ message result, call = .publish message result ∧ w.isCancelled token = false ∧
          w.store.Open .claim ∧ w.store.keys.look w.now message = .error b) ∨
        call = .consume ∧ w.isCancelled token = false ∧ b = .beyondCount ∧
          w.store.Overreaches worker.readRequest) ∧
      (∀ e, out = .inr (.finished (.error e)) →
        (e.isCancelled = true ↔ e = .cancelled) ∧ (e = .cancelled ↔ v.isCancelled token = true)) ∧
      ∀ f, out = .inl f → f.worker = worker ∧ f.token = token ∧ w.isCancelled token = false ∧
        f.stage.point ∈ call.uses ∧ f.stage.point ∈ w.store.stalled ∧
        (call = .consume → v.store = { w.store with lastRead := some worker.readRequest })) ∧
    (∀ (w : World) (s : Slot), ∃ trace ledger, (w.look s).1 = { w with trace, ledger }) ∧
    let w := reached clock steps
    (w.begun rs).1.now = w.now ∧
    List.Forall₂ (Turn (w.begun rs).1) (beginAll w rs).2 (w.begun rs).2 ∧
    (∀ u slots, Awaits w rs u slots →
      (∀ f d, .waiting (some f) d ∈ slots → u.isCancelled f.token = false ∧ u.now < d) ∧
      ∀ v slots', u.round slots = some (v, slots') → u.now < v.now ∧
        (u.nextDue = some v.now ∨ firstLimit? slots = some v.now) ∧
        List.Forall₂ (Turn v) slots slots') ∧
    ∃ u es, Awaits w rs u (es.map .ended) ∧ w.perform rs = (u.settle, es) := by
  refine ⟨fun w worker token call => ?_, fun w s => (w.look_spec s).1, ?_⟩
  · refine ⟨(begin_now w worker token call).1, begin_cancelled, fun hopen => ?_, fun b => begin_broken_iff,
      fun e => begin_error, fun f => begin_waits⟩
    cases hout : (w.begin worker token call).2 with
    | inl f =>
      obtain ⟨-, -, -, huse, hstalled, -⟩ := begin_waits hout
      exact absurd hstalled (hopen _ huse)
    | inr e =>
      cases e with
      | finished r => exact .inl ⟨r, hout⟩
      | abandoned => exact absurd hout begin_ne_abandoned
      | broken b => exact .inr ⟨b, hout⟩
  · intro w
    have hw : Sound w := sound_reached clock steps
    obtain ⟨hnow, hturns⟩ := lookAll_settle (beginAll w rs).1 (beginAll w rs).2
    refine ⟨hnow.trans (beginAll_now w rs), hturns, fun u slots hu => ⟨fun f d hs => ?_, ?_⟩,
      hw.perform rs⟩
    · obtain ⟨hx, hd⟩ := hu.attentive hs
      exact ⟨hx f rfl, hd⟩
    · intro v slots' hr
      obtain ⟨hdue, hturn⟩ := round_spec hr
      exact ⟨((hu.sound hw).round (fun f d hs => (hu.attentive hs).2) hr).2, hdue, hturn⟩

/-- A worker whose reads stall, and a token that is to be cancelled after five milliseconds. -/
def parked : List Step :=
  [.hire "w" "a" { Settings.standard with address := ⟨"redis://localhost"⟩ } .text,
    .request (.stall .read) 1, .request (.cancelAfter "main" 5) 1]

/-- A consume that may take a hundred milliseconds ends with the cancellation. -/
theorem cancellation_prompt_parked :
    let w := reached ⟨5, 0⟩ parked
    let rs : List (Request × Nat) := [(.call "w" "main" .consume, 100)]
    ∃ v, (w.begun rs).1.round (w.begun rs).2 = some (v, [.ended (.finished (.error .cancelled))]) ∧
      v.now = 5 * Instant.milli := by
  intro w rs
  have hwaits : ∃ f, (w.begun rs).2 = [.waiting (some f) (100 * Instant.milli)] ∧ f.token = "main" := by
    have hwho : (w.begun rs).2.map (fun | .waiting f d => some (f.map Flight.token, d) | _ => none) =
        [some (some "main", 100 * Instant.milli)] := by
      decide +kernel
    obtain ⟨s, hs, hd⟩ := List.map_eq_singleton_iff.mp hwho
    match s, hd with
    | .waiting (some f) d, hd =>
      obtain ⟨htoken, hlimit⟩ := Prod.mk.inj (Option.some.inj hd)
      exact ⟨f, hlimit ▸ hs, Option.some.inj htoken⟩
  have hround : ((w.begun rs).1.round (w.begun rs).2).map
      (fun p => (p.1.now, p.1.isCancelled "main")) = some (5 * Instant.milli, true) := by
    decide +kernel
  obtain ⟨f, hslots, htoken⟩ := hwaits
  obtain ⟨⟨v, slots⟩, hr, hv⟩ := Option.map_eq_some_iff.mp hround
  obtain ⟨hnow, hx⟩ := Prod.mk.inj hv
  obtain ⟨-, -, -, -, hawaits, -⟩ := cancellation_prompt ⟨5, 0⟩ parked rs
  obtain ⟨-, -, hturns⟩ := (hawaits _ _ .begun).2 v slots hr
  rw [hslots] at hturns
  obtain ⟨s, rest, hturn, hrest, rfl⟩ := List.forall₂_cons_left_iff.mp hturns
  obtain rfl := List.forall₂_nil_left_iff.mp hrest
  refine ⟨v, ?_, hnow⟩
  rw [hr]
  cases hturn with
  | cancelled => rfl
  | abandoned hd => exact absurd (hnow ▸ hd) (by decide)
  | waits hf => exact absurd (hf f rfl) (by rw [htoken, hx]; decide)

/-- The heartbeat of a worker with settings that can be used breaks off under a cancelled token. -/
theorem cancelled_heartbeat_breaks :
    let settings := { Settings.standard with
      address := ⟨"redis://localhost"⟩, keepalive := .ofSeconds 18446744073709551615 }
    let w := reached ⟨5, 0⟩ [.hire "w" "a" settings .text, .request (.cancel "main") 1]
    settings.check = .ok () ∧ w.isCancelled "main" = true ∧
      ∃ m, w.members.get? "w" = some m ∧
        (w.begin m.worker "main" .heartbeat).2 = .inr (.broken .spanTooLong) := by
  intro settings w
  have hm : (w.members.get? "w").map (fun m => m.worker.settings.expiry?) = some none := by decide +kernel
  obtain ⟨m, hm, he⟩ := Option.map_eq_some_iff.mp hm
  refine ⟨by decide +kernel, by decide +kernel, m, hm, ?_⟩
  rw [begin_unbegun w "main" ⟨rfl, he⟩]

end StreamWorker.World
