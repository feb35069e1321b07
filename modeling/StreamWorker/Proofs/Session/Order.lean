import StreamWorker.Proofs.Session.HeartbeatLoops

/-! The order that every move of a session keeps among members, tokens, loops, timers and ready tasks. -/

namespace StreamWorker.World

variable {w v u : World} {id : Nat} {l : HeartbeatLoop}

/-- How a loop stands in a session. -/
structure Placed (w : World) (id : Nat) (l : HeartbeatLoop) : Prop where
  interval : l.interval = l.worker.settings.interval
  expiry : l.worker.settings.expiry? = some l.expiry
  checked : l.worker.settings.check = .ok ()
  /-- Only a loop that was cancelled ends. -/
  ended : l.phase = .ended → l.cancelled = true
  woken : l.phase ≠ .ended → l.cancelled = true → .loop id ∈ w.ready
  fresh : l.phase = .fresh → .loop id ∈ w.ready
  ticking : ∀ d, l.phase = .ticking d → l.cancelled = false →
    ⟨Instant.ceilMilli d, .loop id⟩ ∈ w.timers ∨
      Instant.ceilMilli d ≤ w.now ∧ .loop id ∈ w.ready
  attached : l.cancelled = false → w.isCancelled l.token = false ∧ id ∈ (w.token l.token).loops
  owned : l.cancelled = false → ∃ name m, w.members.get? name = some m ∧ m.loop = some id

structure Orderly (w : World) : Prop where
  placed : ∀ id l, w.loops.get? id = some l → Placed w id l
  /-- Loops are numbered in the order in which they were started. -/
  numbered : ∀ id l, w.loops.get? id = some l → id < w.loops.entries.length
  attached : ∀ t id, id ∈ (w.token t).loops → ∃ l, w.loops.get? id = some l ∧ l.token = t
  /-- The loop of a member runs for its worker, and only its token cancels it. -/
  engaged : ∀ name m id, w.members.get? name = some m → m.loop = some id →
    ∃ l, w.loops.get? id = some l ∧ l.worker = m.worker ∧
      (l.cancelled = true → w.isCancelled l.token = true)
  apart : ∀ name name' m m' id, w.members.get? name = some m → w.members.get? name' = some m' →
    m.loop = some id → m'.loop = some id → name = name'
  timers : ∀ t ∈ w.timers, w.now < t.due

/-- A loop that a move does not concern stays in its place. -/
theorem Placed.move (h : Placed w id l) (hnow : w.now ≤ u.now)
    (hready : .loop id ∈ w.ready → .loop id ∈ u.ready)
    (htimers : ∀ due, ⟨due, .loop id⟩ ∈ w.timers →
      ⟨due, .loop id⟩ ∈ u.timers ∨ due ≤ u.now ∧ .loop id ∈ u.ready)
    (hattached : l.cancelled = false → u.isCancelled l.token = false ∧ id ∈ (u.token l.token).loops)
    (howned : l.cancelled = false → ∃ name m, u.members.get? name = some m ∧ m.loop = some id) :
    Placed u id l where
  interval := h.interval
  expiry := h.expiry
  checked := h.checked
  ended := h.ended
  woken hp hc := hready (h.woken hp hc)
  fresh hp := hready (h.fresh hp)
  ticking d hp hc := by
    rcases h.ticking d hp hc with ht | ⟨hd, hr⟩
    · exact htimers _ ht
    · exact .inr ⟨Nat.le_trans hd hnow, hready hr⟩
  attached := hattached
  owned := howned

theorem isCancelled_eq (ht : u.tokens = w.tokens) (t : String) : u.isCancelled t = w.isCancelled t := by
  rw [isCancelled, isCancelled, token, token, ht]

theorem token_insert {name : String} {t : Token} (ht : u.tokens = w.tokens.insert name t) (s : String) :
    u.token s = if name = s then t else w.token s := by
  simp only [token, ht, Table.getD, Table.get?_insert]
  split <;> rfl

theorem token_eq (ht : u.tokens = w.tokens) (t : String) : u.token t = w.token t := by
  rw [token, token, ht]

namespace Orderly

/-- The number of the next loop is free. -/
theorem free (h : Orderly w) : w.loops.get? w.loops.entries.length = none := by
  cases hl : w.loops.get? w.loops.entries.length with
  | none => rfl
  | some l => exact absurd (h.numbered _ l hl) (Nat.lt_irrefl _)

/-- Time passes, and more tasks become ready. -/
theorem pass (h : Orderly w) (hm : u.members = w.members) (ht : u.tokens = w.tokens)
    (hl : u.loops = w.loops) (hnow : w.now ≤ u.now) (hready : ∀ t ∈ w.ready, t ∈ u.ready)
    (htimers : ∀ t ∈ w.timers, t ∈ u.timers ∨ t.due ≤ u.now ∧ t.task ∈ u.ready)
    (hdue : ∀ t ∈ u.timers, u.now < t.due) : Orderly u where
  placed id l hg := by
    rw [hl] at hg
    have hp := h.placed id l hg
    refine hp.move hnow (hready _) (fun due hdue => htimers _ hdue) (fun hc => ?_) (fun hc => ?_)
    · rw [isCancelled_eq ht, token_eq ht]
      exact hp.attached hc
    · rw [hm]
      exact hp.owned hc
  numbered := by rw [hl]; exact h.numbered
  attached t id hid := by
    rw [token_eq ht] at hid
    rw [hl]
    exact h.attached t id hid
  engaged name m id hg hloop := by
    rw [hm] at hg
    rw [hl]
    obtain ⟨l, hg', hw, hc⟩ := h.engaged name m id hg hloop
    exact ⟨l, hg', hw, fun hx => by rw [isCancelled_eq ht]; exact hc hx⟩
  apart := by rw [hm]; exact h.apart
  timers := hdue

/-- Nothing happens to members, tokens, loops, timers and ready tasks. -/
theorem still (h : Orderly w) (hm : u.members = w.members) (ht : u.tokens = w.tokens)
    (hl : u.loops = w.loops) (hnow : u.now = w.now) (hready : u.ready = w.ready)
    (htimers : u.timers = w.timers) : Orderly u :=
  h.pass hm ht hl (Nat.le_of_eq hnow.symm) (by rw [hready]; exact fun _ h => h)
    (by rw [htimers]; exact fun _ h => .inl h) (by rw [htimers, hnow]; exact h.timers)

theorem notes (h : Orderly w) (ns : List Note) : Orderly (w.notes ns) := by
  obtain ⟨trace, ledger, hn⟩ := notes_eq w ns
  rw [hn]
  exact h.still rfl rfl rfl rfl rfl rfl

theorem arrive (h : Orderly w) {t : Nat} (ht : w.now ≤ t) : Orderly (w.arrive t) := by
  refine h.pass rfl rfl rfl ht (fun _ hr => List.mem_append_left _ hr) (fun x hx => ?_) (fun x hx => ?_)
  · rcases Nat.lt_or_ge t x.due with hlt | hge
    · exact .inl (List.mem_filter.mpr ⟨hx, by simpa using hlt⟩)
    · refine .inr ⟨hge, List.mem_append_right _ (List.mem_map.mpr ⟨x, ?_, rfl⟩)⟩
      exact List.mem_filter.mpr ⟨hx, by simpa using hge⟩
  · have hlt : t < x.due := by simpa using (List.mem_filter.mp hx).2
    exact hlt

/-! ### Cancelling -/

/-- Some loops are cancelled, together with a token or because members let go of them. -/
theorem cancel {ids : List Nat} (h : Orderly w) (hc : Cancels ids w v) (hloops : u.loops = v.loops)
    (hready : u.ready = v.ready) (hnow : u.now = w.now) (htimers : u.timers = w.timers)
    (hattached : ∀ id l, w.loops.get? id = some l → l.cancelled = false → id ∉ ids →
      u.isCancelled l.token = false ∧ id ∈ (u.token l.token).loops)
    (howned : ∀ id name m, id ∉ ids → w.members.get? name = some m → m.loop = some id →
      ∃ name m, u.members.get? name = some m ∧ m.loop = some id)
    (htoken : ∀ t id, id ∈ (u.token t).loops → id ∈ (w.token t).loops)
    (hmember : ∀ name m id, u.members.get? name = some m → m.loop = some id →
      w.members.get? name = some m)
    (hgone : ∀ name m id l, u.members.get? name = some m → m.loop = some id →
      w.loops.get? id = some l → id ∈ ids ∨ w.isCancelled l.token = true →
      u.isCancelled l.token = true) : Orderly u where
  placed id l hg := by
    rw [hloops, hc.loops] at hg
    obtain ⟨l₀, hl₀, rfl⟩ := Option.map_eq_some_iff.mp hg
    have hp := h.placed id l₀ hl₀
    have hr (hr : .loop id ∈ w.ready) : .loop id ∈ u.ready := by
      rw [hready]
      exact hc.ready _ hr
    have ht (due : Nat) (hd : ⟨due, .loop id⟩ ∈ w.timers) :
        ⟨due, .loop id⟩ ∈ u.timers ∨ due ≤ u.now ∧ .loop id ∈ u.ready := by
      rw [htimers]
      exact .inl hd
    by_cases hid : id ∈ ids
    · rw [if_pos hid]
      refine ⟨hp.interval, hp.expiry, hp.checked, fun _ => rfl, fun hne _ => ?_, fun hf => hr (hp.fresh hf),
        fun _ _ hx => (by cases hx), fun hx => (by cases hx), fun hx => (by cases hx)⟩
      cases hcan : l₀.cancelled with
      | true => exact hr (hp.woken hne hcan)
      | false =>
        rw [hready]
        exact hc.woken id hid l₀ hl₀ hcan
    · rw [if_neg hid]
      refine hp.move (Nat.le_of_eq hnow.symm) hr ht (fun hx => hattached id l₀ hl₀ hx hid) fun hx => ?_
      obtain ⟨name, m, hm, hloop⟩ := hp.owned hx
      exact howned id name m hid hm hloop
  numbered id l hg := by
    rw [hloops, hc.loops] at hg
    obtain ⟨l₀, hl₀, -⟩ := Option.map_eq_some_iff.mp hg
    rw [hloops, hc.size]
    exact h.numbered id l₀ hl₀
  attached t id hid := by
    obtain ⟨l, hl, ht⟩ := h.attached t id (htoken t id hid)
    rw [hloops, hc.loops, hl]
    refine ⟨_, rfl, ?_⟩
    split <;> exact ht
  engaged name m id hm hloop := by
    obtain ⟨l, hl, hw, hcan⟩ := h.engaged name m id (hmember name m id hm hloop) hloop
    rw [hloops, hc.loops, hl]
    refine ⟨_, rfl, ?_, ?_⟩
    · split <;> exact hw
    · dsimp only
      split
      · next hid =>
        intro _
        exact hgone name m id l hm hloop hl (.inl hid)
      · next hid =>
        intro hx
        exact hgone name m id l hm hloop hl (.inr (hcan hx))
  apart name name' m m' id hm hm' hloop hloop' :=
    h.apart name name' m m' id (hmember name m id hm hloop) (hmember name' m' id hm' hloop') hloop hloop'
  timers := by rw [htimers, hnow]; exact h.timers

theorem cancelToken (h : Orderly w) (name : String) : Orderly (w.cancelToken name) := by
  by_cases hx : (w.token name).cancelled = true
  · rw [World.cancelToken, if_pos hx]
    exact h
  · have hc : Cancels (w.token name).loops.reverse w
        ((w.token name).loops.reverse.foldl cancelLoop
          { w with tokens := w.tokens.insert name { cancelled := true } }) := by
      have hc' := cancels_foldl { w with tokens := w.tokens.insert name { cancelled := true } }
        (w.token name).loops.reverse
      exact ⟨hc'.loops, hc'.size, hc'.ready, hc'.woken⟩
    obtain ⟨loops, ready, he⟩ := cancelLoops_eq
      { w with tokens := w.tokens.insert name { cancelled := true } } (w.token name).loops.reverse
    rw [World.cancelToken, if_neg hx]
    dsimp only
    rw [he] at hc ⊢
    have hself : token { w with tokens := w.tokens.insert name { cancelled := true }, loops, ready } name =
        { cancelled := true } := by
      simp [token, Table.getD]
    have hother {t : String} (ht : t ≠ name) :
        token { w with tokens := w.tokens.insert name { cancelled := true }, loops, ready } t =
          w.token t := by
      simp [token, Table.getD, Table.get?_insert_of_ne _ (Ne.symm ht)]
    refine h.cancel hc rfl rfl rfl rfl (fun id l hl hcan hid => ?_)
      (fun id n m _ hm hloop => ⟨n, m, hm, hloop⟩) (fun t id hid => ?_) (fun n m id hm _ => hm)
      (fun n m id l _ _ hl hgone => ?_)
    · have hatt := (h.placed id l hl).attached hcan
      have ht : l.token ≠ name := fun e => hid (List.mem_reverse.mpr (e ▸ hatt.2))
      rw [isCancelled, hother ht]
      exact hatt
    · by_cases ht : t = name
      · subst ht
        rw [hself] at hid
        cases hid
      · rwa [hother ht] at hid
    · by_cases ht : l.token = name
      · rw [ht, isCancelled, hself]
      · rw [isCancelled, hother ht]
        refine hgone.resolve_left fun hid => ht ?_
        obtain ⟨l', hl', ht'⟩ := h.attached name id (List.mem_reverse.mp hid)
        rw [hl] at hl'
        rw [← ht', Option.some.inj hl']

/-- A member lets go of its loop, which is cancelled, and somebody else may come in its place. -/
theorem release (h : Orderly w) {name : String}
    (hc : Cancels ((w.members.get? name).bind (·.loop)).toList w v) (hloops : u.loops = v.loops)
    (hready : u.ready = v.ready) (hnow : u.now = w.now) (htimers : u.timers = w.timers)
    (htokens : u.tokens = w.tokens)
    (hothers : ∀ n, n ≠ name → u.members.get? n = w.members.get? n)
    (hself : ∀ m, u.members.get? name = some m → m.loop = none) : Orderly u := by
  have hmember (n : String) (m : Member) (id : Nat) (hm : u.members.get? n = some m)
      (hloop : m.loop = some id) : n ≠ name ∧ w.members.get? n = some m := by
    have hn : n ≠ name := fun e => by
      rw [hself m (e ▸ hm)] at hloop
      cases hloop
    exact ⟨hn, by rw [← hothers n hn, hm]⟩
  refine h.cancel hc hloops hready hnow htimers (fun id l hl hcan _ => ?_)
    (fun id n m hid hm hloop => ?_) (fun t id hid => by rwa [token_eq htokens] at hid)
    (fun n m id hm hloop => (hmember n m id hm hloop).2) (fun n m id l hm hloop hl hgone => ?_)
  · rw [isCancelled_eq htokens, token_eq htokens]
    exact (h.placed id l hl).attached hcan
  · have hn : n ≠ name := fun e => by
      subst e
      rw [hm] at hid
      simp [hloop] at hid
    exact ⟨n, m, by rw [hothers n hn, hm], hloop⟩
  · rw [isCancelled_eq htokens]
    refine hgone.resolve_left fun hid => ?_
    obtain ⟨hn, hm'⟩ := hmember n m id hm hloop
    rw [Option.mem_toList, Option.bind_eq_some_iff] at hid
    obtain ⟨m₀, hm₀, hloop₀⟩ := hid
    exact hn (h.apart n name m m₀ id hm' hm₀ hloop hloop₀)

/-! ### Letting a loop go on -/

/-- A loop takes another place, and no other loop is concerned. -/
theorem replace {l k : HeartbeatLoop} (h : Orderly w) (hl : w.loops.get? id = some l)
    (hworker : k.worker = l.worker) (htoken : k.token = l.token)
    (hcancelled : k.cancelled = l.cancelled) (hloops : u.loops = w.loops.insert id k)
    (hmembers : u.members = w.members) (hnow : u.now = w.now)
    (hready : ∀ t ∈ w.ready, t ≠ .loop id → t ∈ u.ready)
    (htimers : ∀ t ∈ w.timers, t.task ≠ .loop id → t ∈ u.timers)
    (hdue : ∀ t ∈ u.timers, u.now < t.due) (hgone : ∀ t, u.isCancelled t = w.isCancelled t)
    (hleft : ∀ t id', id' ∈ (u.token t).loops → id' ∈ (w.token t).loops)
    (hkept : ∀ t id', id' ≠ id → id' ∈ (w.token t).loops → id' ∈ (u.token t).loops)
    (hplaced : Placed u id k) : Orderly u where
  placed id' l'' hg := by
    rw [hloops, Table.get?_insert] at hg
    split at hg
    · next he =>
      subst he
      rw [← Option.some.inj hg]
      exact hplaced
    · next hne =>
      have hp := h.placed id' l'' hg
      have htask : Task.loop id' ≠ .loop id := fun e => hne (Task.loop.inj e).symm
      refine hp.move (Nat.le_of_eq hnow.symm) (fun hr => hready _ hr htask)
        (fun due hd => .inl (htimers _ hd htask)) (fun hc => ?_) (fun hc => ?_)
      · rw [hgone]
        exact ⟨(hp.attached hc).1, hkept _ _ (Ne.symm hne) (hp.attached hc).2⟩
      · rw [hmembers]
        exact hp.owned hc
  numbered id' l'' hg := by
    rw [hloops, Table.length_insert, hl]
    rw [hloops, Table.get?_insert] at hg
    split at hg
    · next he => exact he ▸ h.numbered id l hl
    · exact h.numbered id' l'' hg
  attached t id' hid := by
    obtain ⟨l'', hg, ht⟩ := h.attached t id' (hleft t id' hid)
    rw [hloops, Table.get?_insert]
    split
    · next he =>
      subst he
      rw [hl] at hg
      exact ⟨k, rfl, by rw [htoken, Option.some.inj hg, ht]⟩
    · exact ⟨l'', hg, ht⟩
  engaged name m id' hm hloop := by
    rw [hmembers] at hm
    obtain ⟨l'', hg, hw, hc⟩ := h.engaged name m id' hm hloop
    rw [hloops, Table.get?_insert]
    split
    · next he =>
      subst he
      rw [hl] at hg
      cases hg
      exact ⟨k, rfl, hworker.trans hw, fun hx => by rw [htoken, hgone]; exact hc (hcancelled ▸ hx)⟩
    · exact ⟨l'', hg, hw, fun hx => by rw [hgone]; exact hc hx⟩
  apart := by rw [hmembers]; exact h.apart
  timers := hdue

/-- A task is taken off the ready ones, and its loop stays in place without it. -/
theorem unready {t : Task} (h : Orderly w)
    (hplaced : ∀ id l, t = .loop id → w.loops.get? id = some l →
      Placed { w with ready := w.ready.erase t } id l) :
    Orderly { w with ready := w.ready.erase t } where
  placed id l hg := by
    by_cases he : t = .loop id
    · exact hplaced id l he hg
    · have hp := h.placed id l hg
      exact hp.move (Nat.le_refl _) (fun hr => (List.mem_erase_of_ne (Ne.symm he)).mpr hr)
        (fun due hd => .inl hd) hp.attached hp.owned
  numbered := h.numbered
  attached := h.attached
  engaged := h.engaged
  apart := h.apart
  timers := h.timers

theorem endLoop (h : Orderly w) (hl : w.loops.get? id = some l) (hc : l.cancelled = true)
    (ns : List Note) :
    Orderly ((({ w with ready := w.ready.erase (.loop id) } : World).notes ns).endLoop id l) := by
  generalize hu : (({ w with ready := w.ready.erase (.loop id) } : World).notes ns).endLoop id l = u
  have htokens : u.tokens = w.tokens.insert l.token
      { w.token l.token with loops := swapRemove (w.token l.token).loops id } := by
    rw [← hu, endLoop_tokens, token_eq (notes_tokens _ ns), notes_tokens]
    rfl
  have htimers : u.timers = w.timers.filter (·.task ≠ .loop id) := by
    rw [← hu, endLoop_timers, notes_timers]
  have hp := h.placed id l hl
  refine h.replace (k := { l with phase := .ended }) hl rfl rfl rfl (by simp [← hu]) (by simp [← hu])
    (by simp [← hu]) (fun t ht hne => ?_) (fun t ht hne => ?_) (fun t ht => ?_) (fun t => ?_)
    (fun t id' hid => ?_) (fun t id' hne hid => ?_) ?_
  · simpa [← hu] using (List.mem_erase_of_ne hne).mpr ht
  · rw [htimers]
    exact List.mem_filter.mpr ⟨ht, by simpa using hne⟩
  · rw [htimers] at ht
    simpa [← hu] using h.timers t (List.mem_filter.mp ht).1
  · rw [isCancelled, token_insert htokens]
    split
    · next ht => rw [← ht]; rfl
    · rfl
  · rw [token_insert htokens] at hid
    split at hid
    · next ht => exact ht ▸ mem_of_mem_swapRemove hid
    · exact hid
  · rw [token_insert htokens]
    split
    · next ht => exact mem_swapRemove_of_ne (ht ▸ hid) hne
    · exact hid
  · exact ⟨hp.interval, hp.expiry, hp.checked, fun _ => hc, fun hne => absurd rfl hne,
      fun hf => (by cases hf), fun _ hd => (by cases hd), fun hx => absurd (hc.symm.trans hx) (by simp),
      fun hx => absurd (hc.symm.trans hx) (by simp)⟩

/-- A loop that was not cancelled goes on to wait for its write or its tick. -/
theorem rephase {phase : LoopPhase} (h : Orderly w) (hl : w.loops.get? id = some l)
    (hc : l.cancelled = false) (htokens : u.tokens = w.tokens)
    (hloops : u.loops = w.loops.insert id { l with phase }) (hmembers : u.members = w.members)
    (hnow : u.now = w.now) (hready : ∀ t ∈ w.ready, t ≠ .loop id → t ∈ u.ready)
    (htimers : ∀ t ∈ w.timers, t ∈ u.timers) (hdue : ∀ t ∈ u.timers, w.now < t.due)
    (hended : phase ≠ .ended) (hfresh : phase ≠ .fresh)
    (hticking : ∀ d, phase = .ticking d → ⟨Instant.ceilMilli d, .loop id⟩ ∈ u.timers ∨
      Instant.ceilMilli d ≤ w.now ∧ .loop id ∈ u.ready) : Orderly u := by
  have hp := h.placed id l hl
  have hsame (t : String) : u.token t = w.token t := token_eq htokens t
  refine h.replace (k := { l with phase }) hl rfl rfl rfl hloops hmembers hnow hready
    (fun t ht _ => htimers t ht) (hnow ▸ hdue) (fun t => isCancelled_eq htokens t)
    (fun t _ hid => hsame t ▸ hid) (fun t _ _ hid => hsame t ▸ hid)
    ⟨hp.interval, hp.expiry, hp.checked, fun he => absurd he hended,
      fun _ hx => absurd (hc.symm.trans hx) Bool.false_ne_true, fun hf => absurd hf hfresh,
      fun d hd _ => ?_, fun hx => ?_, fun hx => ?_⟩
  · rw [hnow]
    exact hticking d hd
  · rw [isCancelled_eq htokens, hsame]
    exact hp.attached hx
  · rw [hmembers]
    exact hp.owned hx

theorem beat (h : Orderly w) (hl : w.loops.get? id = some l) (hc : l.cancelled = false)
    (ns : List Note) (d : Nat) :
    Orderly ((({ w with ready := w.ready.erase (.loop id) } : World).notes ns).beat id l d) := by
  generalize hv : ({ w with ready := w.ready.erase (.loop id) } : World).notes ns = v
  have hloops : v.loops = w.loops := by simp [← hv]
  have htimers : v.timers = w.timers := by simp [← hv]
  have hvnow : v.now = w.now := by simp [← hv]
  have htokens : (v.beat id l d).tokens = w.tokens := by simp [← hv]
  have hmembers : (v.beat id l d).members = w.members := by simp [← hv]
  have hnow : (v.beat id l d).now = w.now := by simp [← hv]
  have hready (t : Task) (ht : t ∈ w.ready) (hne : t ≠ .loop id) : t ∈ v.ready := by
    simpa [← hv] using (List.mem_erase_of_ne hne).mpr ht
  have hphase := beat_phase v id l d
  simp only [Waits, hloops, htimers, hvnow] at hphase
  -- it waits for its write, or its next tick is there already, or it has set a timer
  obtain ⟨-, hl', ht', hr'⟩ | ⟨-, hl', ⟨hdue, ht', hr'⟩ | ⟨hdue, ht', hr'⟩⟩ := hphase
  · exact h.rephase hl hc htokens hl' hmembers hnow (fun t ht hne => hr' ▸ hready t ht hne)
      (fun t ht => ht' ▸ ht) (ht' ▸ h.timers) (by simp) (by simp) fun _ hd => (by cases hd)
  · refine h.rephase hl hc htokens hl' hmembers hnow
      (fun t ht hne => hr' ▸ List.mem_cons_of_mem _ (hready t ht hne)) (fun t ht => ht' ▸ ht)
      (ht' ▸ h.timers) (by simp) (by simp) fun d' hd => ?_
    cases hd
    exact .inr ⟨hdue, hr' ▸ List.mem_cons_self⟩
  · refine h.rephase hl hc htokens hl' hmembers hnow (fun t ht hne => hr' ▸ hready t ht hne)
      (fun t ht => ht' ▸ List.mem_append_left _ ht) (fun t ht => ?_) (by simp) (by simp) fun d' hd => ?_
    · rw [ht'] at ht
      rcases List.mem_append.mp ht with ht | ht
      · exact h.timers t ht
      · rw [List.mem_singleton.mp ht]
        exact hdue
    · cases hd
      exact .inl (ht' ▸ List.mem_append_right _ (List.mem_singleton_self _))

theorem wake (h : Orderly w) (t : Task) : Orderly (w.wake t) := by
  cases t with
  | cancel token =>
    have hr : Orderly { w with ready := w.ready.erase (.cancel token) } :=
      h.unready fun _ _ he => (by cases he)
    exact hr.cancelToken token
  | loop id =>
    rcases runLoop_cases { w with ready := w.ready.erase (.loop id) } id with
      ⟨hw, -, hwaits⟩ | ⟨l, ns, hl, -, -, hc, hw⟩ | ⟨l, d, ns, hl, -, hc, -, hw⟩
    · rw [World.wake, runTask, hw]
      refine h.unready fun id' l he hl => ?_
      cases he
      have hp := h.placed id l hl
      refine ⟨hp.interval, hp.expiry, hp.checked, hp.ended, fun hne hc => ?_, fun hf => ?_,
        fun d hd hc => ?_, hp.attached, hp.owned⟩
      · have hw := (hwaits l hl hne).1
        rw [hc] at hw
        cases hw
      · exact absurd hf (hwaits l hl (by rw [hf]; simp)).2.1
      · rcases hp.ticking d hd hc with ht | ⟨hle, -⟩
        · exact .inl ht
        · exact absurd hle ((hwaits l hl (by rw [hd]; simp)).2.2 d hd)
    · rw [World.wake, runTask, hw]
      exact h.endLoop hl hc ns
    · rw [World.wake, runTask, hw]
      exact h.beat hl hc ns d

/-! ### Members -/

section Members
variable {name token : String} {m : Member} {expiry : Duration}

theorem loop_ended (hr : ¬ w.isRunning m = true) (hloop : m.loop = some id)
    (hl : w.loops.get? id = some l) : l.phase = .ended := by
  rw [isRunning, hloop, Option.bind_some, hl] at hr
  simpa using hr

/-- A member that runs no loop starts one, under the next number. -/
theorem spawn (h : Orderly w) (hw : w.Checked) (hm : w.members.get? name = some m)
    (hr : ¬ w.isRunning m = true) (he : m.worker.settings.expiry? = some expiry) :
    Orderly (w.spawn name m token expiry) := by
  have hnew {id : Nat} {l : HeartbeatLoop} (hl : w.loops.get? id = some l) :
      w.loops.entries.length ≠ id := Nat.ne_of_gt (h.numbered id l hl)
  have htoken (t : String) : (w.spawn name m token expiry).token t =
      if token = t then (if (w.token token).cancelled then w.token token
        else { w.token token with loops := (w.token token).loops ++ [w.loops.entries.length] })
      else w.token t := token_insert rfl t
  have hgone (t : String) : (w.spawn name m token expiry).isCancelled t = w.isCancelled t := by
    rw [isCancelled, htoken]
    split
    · next ht => rw [← ht]; split <;> rfl
    · rfl
  have hkept (t : String) (id : Nat) (hid : id ∈ (w.token t).loops) :
      id ∈ ((w.spawn name m token expiry).token t).loops := by
    rw [htoken]
    split
    · next ht =>
      subst ht
      split
      · exact hid
      · exact List.mem_append_left _ hid
    · exact hid
  have hloops := w.spawn_loops name m token expiry
  have hmembers := w.spawn_members name m token expiry
  have hready : .loop w.loops.entries.length ∈ (w.spawn name m token expiry).ready :=
    List.mem_append_right _ (List.mem_singleton_self _)
  refine ⟨fun id l hg => ?_, fun id l hg => ?_, fun t id hid => ?_, fun n m' id hm' hloop => ?_,
    fun n n' m₁ m₂ id hm₁ hm₂ hloop₁ hloop₂ => ?_, h.timers⟩
  · rw [hloops] at hg
    split at hg
    · next hid =>
      cases hg
      subst hid
      refine ⟨rfl, he, hw name m hm, fun hp => (by cases hp), fun _ _ => hready, fun _ => hready,
        fun _ hd => (by cases hd), fun hc => ?_, fun _ => ⟨name, _, by rw [hmembers, if_pos rfl], rfl⟩⟩
      have hc' : (w.token token).cancelled = false := hc
      rw [hgone]
      refine ⟨hc', ?_⟩
      simp [newLoop, htoken, hc']
    · have hp := h.placed id l hg
      refine hp.move (Nat.le_refl _) (List.mem_append_left _) (fun _ hd => .inl hd) (fun hc => ?_)
        fun hc => ?_
      · rw [hgone]
        exact ⟨(hp.attached hc).1, hkept _ _ (hp.attached hc).2⟩
      · obtain ⟨n, m', hm', hloop⟩ := hp.owned hc
        refine ⟨n, m', ?_, hloop⟩
        rw [hmembers, if_neg, hm']
        rintro rfl
        -- the member would have run this loop
        cases hm.symm.trans hm'
        have := hp.ended (loop_ended hr hloop hg)
        rw [hc] at this
        cases this
  · have hlen : (w.spawn name m token expiry).loops.entries.length = w.loops.entries.length + 1 := by
      rw [World.spawn, Table.length_insert]
      cases hx : w.loops.get? w.loops.entries.length with
      | none => rfl
      | some l => exact absurd rfl (hnew hx)
    rw [hlen]
    rw [hloops] at hg
    split at hg
    · next hid => omega
    · have := h.numbered id l hg
      omega
  · rw [hloops]
    by_cases hold : id ∈ (w.token t).loops
    · obtain ⟨l, hl, ht⟩ := h.attached t id hold
      rw [if_neg (hnew hl)]
      exact ⟨l, hl, ht⟩
    · rw [htoken] at hid
      split at hid
      · next ht =>
        subst ht
        split at hid
        · exact absurd hid hold
        · rcases List.mem_append.mp hid with hid | hid
          · exact absurd hid hold
          · rw [if_pos (List.mem_singleton.mp hid).symm]
            exact ⟨_, rfl, rfl⟩
      · exact absurd hid hold
  · rw [hloops]
    rw [hmembers] at hm'
    split at hm'
    · cases hm'
      cases hloop
      rw [if_pos rfl]
      exact ⟨_, rfl, rfl, fun hc => by rw [hgone]; exact hc⟩
    · obtain ⟨l, hl, hworker, hc⟩ := h.engaged n m' id hm' hloop
      rw [if_neg (hnew hl)]
      exact ⟨l, hl, hworker, fun hx => by rw [hgone]; exact hc hx⟩
  · rw [hmembers] at hm₁ hm₂
    split at hm₁ <;> split at hm₂
    · next h₁ h₂ => exact h₁.symm.trans h₂
    · cases hm₁
      cases hloop₁
      obtain ⟨l, hl, -⟩ := h.engaged n' m₂ _ hm₂ hloop₂
      exact absurd rfl (hnew hl)
    · cases hm₂
      cases hloop₂
      obtain ⟨l, hl, -⟩ := h.engaged n m₁ _ hm₁ hloop₁
      exact absurd rfl (hnew hl)
    · exact h.apart n n' m₁ m₂ id hm₁ hm₂ hloop₁ hloop₂

theorem start (h : Orderly w) (hw : w.Checked) (name token : String) :
    Orderly (w.start name token).1 := by
  rcases start_cases w name token with ⟨m, expiry, -, hm, hr, he, hs⟩ | ⟨-, ns, hs⟩
  · rw [hs]
    exact h.spawn hw hm hr he
  · rw [hs]
    exact h.notes ns

/-- A member stops its loop and leaves its name to somebody without one, or to nobody. -/
theorem stopLoop (h : Orderly w) (hm : w.members.get? name = some m) {members : Table String Member}
    (hothers : ∀ n, n ≠ name → members.get? n = w.members.get? n)
    (hself : ∀ m', members.get? name = some m' → m'.loop = none) :
    Orderly { w.stopLoop m with members } := by
  have hc := cancels_stopLoop w m
  obtain ⟨loops, ready, hs⟩ := stopLoop_eq w m
  rw [hs] at hc ⊢
  have hc' : Cancels ((w.members.get? name).bind (·.loop)).toList w { w with loops, ready } := by
    rw [hm]
    exact hc
  exact h.release hc' rfl rfl rfl rfl rfl hothers hself

theorem hire (h : Orderly w) (name id : String) (settings : Settings) (kind : Payload.Kind) :
    Orderly (w.hire name id settings kind).1 := by
  cases hw : Worker.create id settings kind with
  | error fault => simpa only [World.hire, hw] using h
  | ok worker =>
    have hothers {t : Table String Member} (n : String) (hn : n ≠ name) :
        (t.insert name { worker }).get? n = t.get? n := Table.get?_insert_of_ne _ (Ne.symm hn) _
    have hself {t : Table String Member} (m : Member)
        (hm : (t.insert name { worker }).get? name = some m) : m.loop = none := by
      rw [Table.get?_insert_self] at hm
      cases hm
      rfl
    cases hm : w.members.get? name with
    | none =>
      have hc : Cancels ((w.members.get? name).bind (·.loop)).toList w w := by
        rw [hm]
        exact .refl w
      simp only [World.hire, hw, hm]
      exact h.release hc rfl rfl rfl rfl rfl hothers hself
    | some m =>
      simp only [World.hire, hw, hm]
      have hs : (w.stopLoop m).members = w.members := by
        obtain ⟨loops, ready, hs⟩ := stopLoop_eq w m
        rw [hs]
      rw [hs]
      exact h.stopLoop hm hothers hself

theorem stop (h : Orderly w) (name : String) : Orderly (w.stop name).1 := by
  cases hm : w.members.get? name with
  | none => simpa only [World.stop, hm] using h
  | some m =>
    simp only [World.stop, hm]
    refine h.stopLoop hm (fun n hn => Table.get?_insert_of_ne _ (Ne.symm hn) _) fun m' hm' => ?_
    rw [Table.get?_insert_self] at hm'
    cases hm'
    rfl

theorem dismiss (h : Orderly w) (name : String) : Orderly (w.dismiss name).1 := by
  cases hm : w.members.get? name with
  | none => simpa only [World.dismiss, hm] using h
  | some m =>
    simp only [World.dismiss, hm]
    refine h.stopLoop hm (fun n hn => ?_) fun m' hm' => ?_
    · rw [Table.get?_erase, if_neg (Ne.symm hn)]
    · rw [Table.get?_erase, if_pos rfl] at hm'
      cases hm'

end Members

theorem command (h : Orderly w) (r : Request) : Orderly (w.command r) := by
  have hstill (store : Store) : Orderly { w with store } := h.still rfl rfl rfl rfl rfl rfl
  cases r with
  | fail p reason => exact hstill _
  | stall p => exact hstill _
  | clearFaults p => exact hstill _
  | script reply => exact hstill _
  | cancel token => exact h.cancelToken token
  | cancelAfter token millis =>
    by_cases hz : millis = 0
    · simp only [World.command, if_pos hz]
      exact h.pass rfl rfl rfl (Nat.le_refl _) (fun _ ht => List.mem_append_left _ ht)
        (fun _ ht => .inl ht) h.timers
    · simp only [World.command, if_neg hz]
      refine h.pass rfl rfl rfl (Nat.le_refl _) (fun _ ht => ht)
        (fun _ ht => .inl (List.mem_append_left _ ht)) fun t ht => ?_
      rcases List.mem_append.mp ht with ht | ht
      · exact h.timers t ht
      · rw [List.mem_singleton.mp ht]
        have : 0 < millis * Instant.milli := Nat.mul_pos (Nat.pos_of_ne_zero hz) (by decide)
        exact Nat.lt_add_of_pos_right this
  | setClock millis => exact h.still rfl rfl rfl rfl rfl rfl
  | _ => exact h

/-- A new session is in order. -/
theorem new (clock : Clock) : Orderly (World.new clock) where
  placed id l hl := by cases hl
  numbered id l hl := by cases hl
  attached t id hid := by cases hid
  engaged name m id hm := by cases hm
  apart name name' m m' id hm := by cases hm
  timers t ht := by cases ht

/-! ### When nothing is ready -/

/-- A loop that has not ended then was not cancelled, and neither was its token. -/
theorem not_cancelled (h : Orderly w) (hq : w.ready = []) (hl : w.loops.get? id = some l)
    (hp : l.phase ≠ .ended) : l.cancelled = false ∧ w.isCancelled l.token = false := by
  have hplaced := h.placed id l hl
  have hc : l.cancelled = false := by
    cases hc : l.cancelled with
    | false => rfl
    | true =>
      have := hplaced.woken hp hc
      rw [hq] at this
      cases this
  exact ⟨hc, (hplaced.attached hc).1⟩

/-- It belongs to a member that runs it. -/
theorem owner (h : Orderly w) (hq : w.ready = []) (hl : w.loops.get? id = some l)
    (hp : l.phase ≠ .ended) :
    ∃ name m, w.members.get? name = some m ∧ m.loop = some id ∧ m.worker = l.worker ∧
      w.isRunning m = true := by
  obtain ⟨name, m, hm, hloop⟩ := (h.placed id l hl).owned (h.not_cancelled hq hl hp).1
  obtain ⟨l', hl', hw, -⟩ := h.engaged name m id hm hloop
  rw [hl] at hl'
  cases hl'
  refine ⟨name, m, hm, hloop, hw.symm, ?_⟩
  rw [isRunning, hloop, Option.bind_some, hl]
  exact decide_eq_true hp

/-- The loop of a member does not end before its token is cancelled. -/
theorem phase_ne_ended {name : String} {m : Member} (h : Orderly w)
    (hm : w.members.get? name = some m) (hloop : m.loop = some id) (hl : w.loops.get? id = some l)
    (hc : w.isCancelled l.token = false) : l.phase ≠ .ended := by
  intro hp
  obtain ⟨l', hl', -, hgone⟩ := h.engaged name m id hm hloop
  rw [hl] at hl'
  cases hl'
  have := hgone ((h.placed id l hl).ended hp)
  rw [hc] at this
  cases this

theorem isRunning_eq {m : Member} (hloop : m.loop = some id) (hl : w.loops.get? id = some l) :
    w.isRunning m = decide (l.phase ≠ .ended) := by
  rw [isRunning, hloop, Option.bind_some, hl]

/-- A member then runs its loop exactly if the token of the loop is not cancelled. -/
theorem isRunning_iff {name : String} {m : Member} (h : Orderly w) (hq : w.ready = [])
    (hm : w.members.get? name = some m) (hloop : m.loop = some id) (hl : w.loops.get? id = some l) :
    w.isRunning m = true ↔ w.isCancelled l.token = false := by
  rw [isRunning_eq hloop hl, decide_eq_true_eq]
  exact ⟨fun hp => (h.not_cancelled hq hl hp).2, h.phase_ne_ended hm hloop hl⟩

end Orderly

end StreamWorker.World
