import StreamWorker.Proofs.Session.Cancellation
import StreamWorker.Settings.Environment

/-! Addresses in a session. Whatever a session does, it looks at the address of the store only to see
whether there is one. So a session in which every address is taken out goes on just like the one with the
addresses, and two scripts that differ in addresses alone have the same answers, records and counts and
leave the same store behind. Only who asks for the settings of a worker is told its address. -/

namespace StreamWorker

/-! ### Taking addresses out -/

/-- Only whether there is an address is left of it. -/
def Secret.redact (s : Secret) : Secret := if s.expose.isEmpty then ⟨""⟩ else ⟨"redacted"⟩

theorem Secret.isEmpty_redact (s : Secret) : s.redact.expose.isEmpty = s.expose.isEmpty := by
  rw [redact]
  split
  · next h => rw [h]; rfl
  · next h => rw [Bool.eq_false_iff.mpr h]; rfl

def Settings.redact (s : Settings) : Settings := { s with address := s.address.redact }

def Worker.redact (w : Worker) : Worker := { w with settings := w.settings.redact }

def Member.redact (m : Member) : Member := { m with worker := m.worker.redact }

def HeartbeatLoop.redact (l : HeartbeatLoop) : HeartbeatLoop := { l with worker := l.worker.redact }

def Flight.redact (f : Flight) : Flight := { f with worker := f.worker.redact }

theorem Settings.check_redact (s : Settings) : s.redact.check = s.check := by
  simp only [check, redact, Secret.isEmpty_redact]
  rfl

theorem Settings.text_redact (s : Settings) : s.redact.text = s.text := rfl

theorem Worker.create_redact (id : String) (settings : Settings) (kind : Payload.Kind) :
    create id settings.redact kind = (create id settings kind).map redact := by
  rw [create, create, Settings.check_redact]
  cases settings.check <;> rfl

namespace World

def redact (w : World) : World :=
  { w with members := w.members.map Member.redact, loops := w.loops.map HeartbeatLoop.redact }

variable (w : World)

theorem redact_now : w.redact.now = w.now := rfl

theorem redact_nextDue : w.redact.nextDue = w.nextDue := rfl

theorem redact_loop (id : Nat) : w.redact.loops.get? id = (w.loops.get? id).map HeartbeatLoop.redact :=
  Table.get?_map ..

theorem redact_member (name : String) :
    w.redact.members.get? name = (w.members.get? name).map Member.redact := Table.get?_map ..

/-! ### Notes and tokens -/

theorem redact_note (n : Note) : (w.note n).redact = w.redact.note n := by
  cases n <;> rfl

theorem redact_notes (l : List Note) : (w.notes l).redact = w.redact.notes l :=
  (List.foldl_hom redact fun w n => (redact_note w n).symm).symm

theorem redact_setLoop (id : Nat) (l : HeartbeatLoop) :
    ({ w with loops := w.loops.insert id l } : World).redact =
      { w.redact with loops := w.redact.loops.insert id l.redact } := by
  simp only [redact, Table.map_insert]

theorem redact_setMember (name : String) (m : Member) :
    ({ w with members := w.members.insert name m } : World).redact =
      { w.redact with members := w.redact.members.insert name m.redact } := by
  simp only [redact, Table.map_insert]

theorem redact_cancelLoop (id : Nat) : (w.cancelLoop id).redact = w.redact.cancelLoop id := by
  rw [cancelLoop, cancelLoop, redact_loop]
  cases w.loops.get? id with
  | none => rfl
  | some l =>
    rw [Option.map_some]
    cases hc : l.cancelled with
    | true => simp [HeartbeatLoop.redact, hc]
    | false => simp [HeartbeatLoop.redact, hc, redact, Table.map_insert]

theorem redact_cancelToken (name : String) : (w.cancelToken name).redact = w.redact.cancelToken name := by
  have ht : w.redact.token name = w.token name := rfl
  rw [cancelToken, cancelToken, ht]
  dsimp only
  split
  · rfl
  · exact (List.foldl_hom redact fun w id => (redact_cancelLoop w id).symm).symm

/-! ### Heartbeat loops -/

theorem redact_setPhase (id : Nat) (l : HeartbeatLoop) (phase : LoopPhase) :
    (w.setPhase id l phase).redact = w.redact.setPhase id l.redact phase :=
  redact_setLoop w id { l with phase }

theorem redact_endLoop (id : Nat) (l : HeartbeatLoop) :
    (w.endLoop id l).redact = w.redact.endLoop id l.redact := by
  rw [endLoop, endLoop, ← redact_setPhase]
  exact congrArg (fun v : World => ({ v with
    tokens := v.tokens.insert l.token
      { w.token l.token with loops := swapRemove (w.token l.token).loops id }
    timers := v.timers.filter (·.task ≠ .loop id) } : World)) (redact_note ..)

theorem redact_awaitTick (id : Nat) (l : HeartbeatLoop) (deadline : Nat) :
    (w.awaitTick id l deadline).redact = w.redact.awaitTick id l.redact deadline := by
  rw [awaitTick, awaitTick]
  exact congrArg (fun v : World => ({ v with
    ready := if _ ≤ v.now then .loop id :: v.ready else v.ready
    timers := if _ ≤ v.now then v.timers else v.timers ++ [_] } : World)) (redact_setPhase ..)

theorem redact_beat (id : Nat) (l : HeartbeatLoop) (deadline : Nat) :
    (w.beat id l deadline).redact = w.redact.beat id l.redact deadline := by
  rw [beat, beat]
  have hset : w.redact.store.set w.redact.now l.redact.worker.heartbeatKey (toString w.redact.clock)
      l.redact.expiry = w.store.set w.now l.worker.heartbeatKey (toString w.clock) l.expiry := rfl
  rw [hset]
  obtain ⟨store, response⟩ := w.store.set w.now l.worker.heartbeatKey (toString w.clock) l.expiry
  cases response with
  | answer a => exact (redact_awaitTick ..).trans (by rw [redact_note]; rfl)
  | failure f => exact (redact_awaitTick ..).trans (by rw [redact_notes]; rfl)
  | stalled => exact redact_setPhase ..
  | broken b => exact redact_setPhase ..

theorem redact_runLoop (id : Nat) : (w.runLoop id).redact = w.redact.runLoop id := by
  rw [runLoop, runLoop, redact_loop]
  cases w.loops.get? id with
  | none => rfl
  | some l =>
    rw [Option.map_some]
    dsimp only
    rw [show l.redact.phase = l.phase from rfl, show l.redact.cancelled = l.cancelled from rfl]
    cases l.phase with
    | fresh =>
      dsimp only
      split
      · rw [redact_endLoop, redact_note]; rfl
      · rw [redact_beat, redact_note]; rfl
    | ticking deadline =>
      dsimp only
      split
      · exact redact_endLoop ..
      · split
        · next h => rw [if_pos (by exact h)]; exact redact_beat ..
        · next h => rw [if_neg (by exact h)]
    | writing =>
      dsimp only
      split
      · rw [redact_endLoop, redact_notes]; rfl
      · rfl
    | ended => rfl

/-! ### Time -/

theorem redact_runTask (t : Task) : (w.runTask t).redact = w.redact.runTask t := by
  cases t with
  | loop id => exact redact_runLoop w id
  | cancel token => exact redact_cancelToken w token

theorem redact_drain (n : Nat) (w : World) : (drain n w).redact = drain n w.redact := by
  induction n generalizing w with
  | zero => rfl
  | succ n ih =>
    rw [drain, drain, show w.redact.ready = w.ready from rfl]
    cases w.ready with
    | nil => rfl
    | cons t ready => exact (ih _).trans (by rw [redact_runTask]; rfl)

theorem redact_work : w.redact.work = w.work := by
  rw [work, work, show w.redact.loops = w.loops.map HeartbeatLoop.redact from rfl, Table.total_map]
  rfl

theorem redact_settle : w.settle.redact = w.redact.settle := by
  rw [settle, settle, redact_drain, redact_work]

theorem redact_arrive (t : Nat) : (w.arrive t).redact = w.redact.arrive t := rfl

theorem redact_elapse (fuel target : Nat) : (elapse fuel target w).redact = elapse fuel target w.redact := by
  induction fuel generalizing w with
  | zero => exact redact_settle _
  | succ fuel ih =>
    rw [elapse, elapse, redact_nextDue]
    cases w.nextDue with
    | none => exact redact_settle _
    | some t =>
      dsimp only
      split
      · rw [ih, redact_settle, redact_arrive]
      · exact redact_settle _

/-! ### Calls -/

/-- A call with what is around it, without addresses. -/
abbrev redactFlight : World × (Flight ⊕ Ending Success) → World × (Flight ⊕ Ending Success) :=
  Prod.map redact (Sum.map Flight.redact id)

theorem redact_react (f : Flight) (r : Reaction) :
    redactFlight (w.react f r) = w.redact.react f.redact r := by
  obtain ⟨ns, next⟩ := r
  rw [react, react]
  refine Prod.ext (redact_notes w ns) ?_
  cases next <;> rfl

/-- What a call comes to once its operation has ended. -/
def respond (f : Flight) : Response (f.worker.operation f.stage).Answer → World × (Flight ⊕ Ending Success)
  | .answer a => w.react f (f.worker.react f.stage (.ok a))
  | .failure e => w.react f (f.worker.react f.stage (.error e))
  | .stalled => (w, .inl f)
  | .broken b => (w.notes (f.worker.abandoned f.stage), .inr (.broken b))

theorem stepFlight_of_response {f : Flight} {store : Store}
    {response : Response (f.worker.operation f.stage).Answer} (h : ¬ w.isCancelled f.token = true)
    (hp : w.store.perform w.now w.clock (f.worker.operation f.stage) = (store, response)) :
    w.stepFlight f = respond { w with store } f response := by
  rw [stepFlight, if_neg h, hp]
  rfl

theorem redact_respond (worker : Worker) (token : String) (stage : Stage)
    (response : Response (worker.operation stage).Answer) :
    redactFlight (w.respond ⟨worker, token, stage⟩ response) = match response with
      | .answer a => w.redact.react ⟨worker.redact, token, stage⟩ (worker.react stage (.ok a))
      | .failure e => w.redact.react ⟨worker.redact, token, stage⟩ (worker.react stage (.error e))
      | .stalled => (w.redact, .inl ⟨worker.redact, token, stage⟩)
      | .broken b => (w.redact.notes (worker.abandoned stage), .inr (.broken b)) := by
  cases response with
  | answer a => exact redact_react ..
  | failure e => exact redact_react ..
  | stalled => rfl
  | broken b => exact Prod.ext (redact_notes ..) rfl

/-- The operation of a stage does not tell the address, and neither does what follows it. -/
theorem redact_stepFlight (f : Flight) : redactFlight (w.stepFlight f) = w.redact.stepFlight f.redact := by
  by_cases h : w.isCancelled f.token = true
  · rw [stepFlight, stepFlight, if_pos h, if_pos (by exact h)]
    refine (redact_react w _ _).trans ?_
    cases f with
    | mk worker token stage => cases stage <;> rfl
  · cases hp : w.store.perform w.now w.clock (f.worker.operation f.stage) with
    | mk store response =>
      rw [stepFlight_of_response w h hp]
      obtain ⟨worker, token, stage⟩ := f
      rw [redact_respond]
      cases stage
      all_goals
        refine Eq.trans ?_ (Eq.symm (stepFlight_of_response w.redact h hp))
        cases response <;> rfl

/-- A call goes on for the same worker. -/
theorem flight_of_stepFlight {f g : Flight} (h : (w.stepFlight f).2 = .inl g) :
    g = { f with stage := g.stage } := by
  have hreact (v : World) (r : Reaction) (h : (v.react f r).2 = .inl g) :
      g = { f with stage := g.stage } := by
    rw [react] at h
    dsimp only at h
    split at h
    · cases h; rfl
    · cases h
  by_cases hx : w.isCancelled f.token = true
  · rw [stepFlight_of_cancelled hx] at h
    cases h
  · cases hp : w.store.perform w.now w.clock (f.worker.operation f.stage) with
    | mk store response =>
      rw [stepFlight_of_response w hx hp] at h
      cases response with
      | answer a => exact hreact _ _ h
      | failure e => exact hreact _ _ h
      | stalled => cases h; rfl
      | broken b => cases h

theorem redact_runFlight (n : Nat) (f : Flight) :
    redactFlight (runFlight n f w) = runFlight n f.redact w.redact := by
  induction n generalizing f w with
  | zero => rfl
  | succ n ih =>
    rw [runFlight, runFlight, ← redact_stepFlight]
    cases hs : w.stepFlight f with
    | mk v r =>
      cases r with
      | inr e => rfl
      | inl g =>
        have hg : g = { f with stage := g.stage } := flight_of_stepFlight w (by rw [hs])
        have hsame : g.redact = f.redact ↔ g = f := by
          refine ⟨fun h => ?_, congrArg Flight.redact⟩
          have hstage : g.redact.stage = f.redact.stage := congrArg Flight.stage h
          rw [hg]
          exact congrArg (fun stage => { f with stage }) hstage
        simp only [Prod.map, Sum.map_inl, hsame]
        split
        · rfl
        · exact ih v g

theorem redact_begin (worker : Worker) (token : String) (call : Call) :
    redactFlight (w.begin worker token call) = w.redact.begin worker.redact token call := by
  have hstart : worker.redact.start w.redact.clock call = worker.start w.clock call := by
    cases call <;> rfl
  rw [World.begin, World.begin, hstart]
  cases worker.start w.clock call with
  | ok stage => exact redact_runFlight w 2 ⟨worker, token, stage⟩
  | error b => rfl

theorem redact_resume (f : Flight) : redactFlight (w.resume f) = w.redact.resume f.redact := by
  rw [resume, resume]
  split
  · next h => rw [if_pos (by exact h)]; exact redact_runFlight ..
  · next h => rw [if_neg (by exact h)]; rfl

theorem redact_abandon (f : Flight) : (w.abandon f).redact = w.redact.abandon f.redact := by
  obtain ⟨worker, token, stage⟩ := f
  refine (redact_notes ..).trans ?_
  cases stage <;> rfl

end World

/-! ### Requests -/

def Reply.redact : Reply → Reply
  | .settings s => .settings s.redact
  | r => r

def Ending.redact : Ending Reply → Ending Reply
  | .finished (.ok r) => .finished (.ok r.redact)
  | e => e

def World.Slot.redact : Slot → Slot
  | .ended e => .ended e.redact
  | .waiting f deadline => .waiting (f.map Flight.redact) deadline

namespace World

variable (w : World)

theorem redact_isRunning (m : Member) : w.redact.isRunning m.redact = w.isRunning m := by
  rw [isRunning, isRunning, show m.redact.loop = m.loop from rfl]
  cases m.loop with
  | none => rfl
  | some id =>
    rw [Option.bind_some, Option.bind_some, redact_loop]
    cases w.loops.get? id <;> rfl

theorem redact_command (r : Request) : (w.command r).redact = w.redact.command r := by
  cases r with
  | cancel token => exact redact_cancelToken w token
  | cancelAfter token millis =>
    rw [command, command]
    split <;> rfl
  | _ => rfl

/-- The answer to a question about a member. -/
theorem redact_question (name : String) {f f' : Member → Reply} (hf : ∀ m, (f m).redact = f' m.redact) :
    Ending.redact (match w.members.get? name with
      | some m => .finished (.ok (f m))
      | none => .finished (.error (.other s!"there is no worker {name}"))) =
    match w.redact.members.get? name with
      | some m => .finished (.ok (f' m))
      | none => .finished (.error (.other s!"there is no worker {name}")) := by
  rw [redact_member]
  cases w.members.get? name with
  | none => rfl
  | some m => exact congrArg (fun r => Ending.finished (.ok r)) (hf m)

/-- A request with what is around it, without addresses. -/
abbrev redactSlot : World × Slot → World × Slot := Prod.map redact Slot.redact

theorem redact_beginRequest (deadline : Nat) (r : Request) :
    redactSlot (w.beginRequest deadline r) = w.redact.beginRequest deadline r := by
  have hended {v v' : World} {e e' : Ending Reply} (hv : v.redact = v') (he : e.redact = e') :
      redactSlot (v, .ended e) = (v', .ended e') := by
    subst hv he
    rfl
  cases r with
  | call name token call =>
    rw [beginRequest, beginRequest, redact_member]
    cases w.members.get? name with
    | none => rfl
    | some m =>
      rw [Option.map_some]
      dsimp only
      rw [show m.redact.worker = m.worker.redact from rfl, ← redact_begin]
      cases w.begin m.worker token call with
      | mk v r =>
        cases r with
        | inl f =>
          simp only [Prod.map, Sum.map_inl]
          rw [redact_now]
          split
          · exact hended (redact_abandon v f) rfl
          · rfl
        | inr e =>
          refine hended rfl ?_
          cases e with
          | finished r => cases r <;> rfl
          | _ => rfl
  | operation op =>
    have hperform : w.redact.store.perform w.redact.now w.redact.clock op =
        w.store.perform w.now w.clock op := rfl
    rw [beginRequest, beginRequest, hperform]
    obtain ⟨store, response⟩ := w.store.perform w.now w.clock op
    cases response with
    | answer a =>
      refine hended rfl (congrArg (fun r => Ending.finished (.ok r)) ?_)
      cases op <;> rfl
    | failure f => rfl
    | stalled =>
      dsimp only
      rw [redact_now]
      split <;> rfl
    | broken b => rfl
  | isRunning name => exact hended rfl (redact_question w name fun m => congrArg _ (redact_isRunning w m).symm)
  | heartbeatKey name => exact hended rfl (redact_question w name fun _ => rfl)
  | settings name => exact hended rfl (redact_question w name fun _ => rfl)
  | entry key =>
    have hlook : w.redact.store.keys.look w.redact.now key = w.store.keys.look w.now key := rfl
    refine hended rfl ?_
    -- the answer depends on the session only by what the look finds
    conv => lhs; arg 1; whnf
    conv => rhs; whnf
    rw [hlook]
    cases w.store.keys.look w.now key <;> rfl
  | cancel | cancelAfter => exact hended (redact_command ..) rfl
  | _ => rfl

/-! ### Waiting -/

/-- Requests with what is around them, without addresses. -/
abbrev redactSlots : World × List Slot → World × List Slot := Prod.map redact (List.map Slot.redact)

theorem redact_beginAll (rs : List (Request × Nat)) :
    redactSlots (w.beginAll rs) = w.redact.beginAll rs := by
  induction rs generalizing w with
  | nil => rfl
  | cons r rs ih =>
    obtain ⟨r, limit⟩ := r
    rw [beginAll, beginAll, redact_now, ← redact_beginRequest]
    obtain ⟨v, slot⟩ := w.beginRequest (w.now + limit * Instant.milli) r
    dsimp only [Prod.map]
    rw [← ih]
    rfl

theorem redact_look (s : Slot) : redactSlot (w.look s) = w.redact.look s.redact := by
  cases s with
  | ended e => rfl
  | waiting f deadline =>
    cases f with
    | none =>
      refine Prod.ext rfl ?_
      simp only [look, Slot.redact, Option.map_none]
      rw [redact_now]
      split <;> rfl
    | some f =>
      rw [look, Slot.redact, Option.map_some, look, ← redact_resume]
      obtain ⟨v, r⟩ := w.resume f
      cases r with
      | inl f =>
        simp only [redactFlight, Prod.map, Sum.map_inl]
        rw [redact_now]
        split
        · exact Prod.ext (redact_abandon v f) rfl
        · rfl
      | inr e =>
        cases e with
        | finished r => cases r <;> rfl
        | _ => rfl

theorem redact_lookAll (slots : List Slot) :
    redactSlots (w.lookAll slots) = w.redact.lookAll (slots.map Slot.redact) := by
  induction slots generalizing w with
  | nil => rfl
  | cons s slots ih =>
    rw [List.map_cons, lookAll, lookAll, ← redact_look]
    obtain ⟨v, s⟩ := w.look s
    dsimp only [Prod.map]
    rw [← ih]
    rfl

theorem deadline?_redact (slots : List Slot) :
    (slots.map Slot.redact).filterMap Slot.deadline? = slots.filterMap Slot.deadline? := by
  rw [List.filterMap_map]
  exact List.filterMap_congr fun s _ => by cases s <;> rfl

theorem redact_atLimit (slots : List Slot) (limit : Nat) :
    redactSlots (w.atLimit slots limit) = w.redact.atLimit (slots.map Slot.redact) limit := by
  rw [atLimit, atLimit, ← redact_arrive, ← redact_lookAll]
  obtain ⟨v, slots⟩ := (w.arrive limit).lookAll slots
  dsimp only [Prod.map]
  rw [redact_lookAll, redact_settle]

theorem redact_round (slots : List Slot) :
    (w.round slots).map redactSlots = w.redact.round (slots.map Slot.redact) := by
  rw [round, round, firstLimit?, firstLimit?, deadline?_redact, Option.map_map]
  congr 1
  funext limit
  rw [Function.comp_apply, redact_nextDue]
  cases w.nextDue with
  | none => exact redact_atLimit ..
  | some t =>
    dsimp only
    split
    · rw [redact_lookAll, redact_settle, redact_arrive]
    · exact redact_atLimit ..

theorem redact_awaitAll (fuel : Nat) (slots : List Slot) :
    redactSlots (awaitAll fuel w slots) = awaitAll fuel w.redact (slots.map Slot.redact) := by
  induction fuel generalizing w slots with
  | zero => rfl
  | succ fuel ih =>
    rw [awaitAll, awaitAll, ← redact_round]
    cases w.round slots with
    | none => rfl
    | some p => exact ih p.1 p.2

/-- Answers with what is around them, without addresses. -/
abbrev redactEndings : World × List (Ending Reply) → World × List (Ending Reply) :=
  Prod.map redact (List.map Ending.redact)

theorem redact_perform (rs : List (Request × Nat)) :
    redactEndings (w.perform rs) = w.redact.perform rs := by
  rw [perform, perform, ← redact_beginAll]
  obtain ⟨u, slots⟩ := w.beginAll rs
  dsimp only [Prod.map]
  rw [← redact_settle, ← redact_lookAll]
  obtain ⟨u, slots⟩ := u.settle.lookAll slots
  dsimp only [redactSlots, Prod.map]
  rw [deadline?_redact, List.length_map, redact_now, ← redact_awaitAll]
  obtain ⟨v, slots⟩ := awaitAll _ u slots
  refine Prod.ext (redact_settle v) ?_
  dsimp only [redactSlots, redactEndings, Prod.map]
  rw [List.map_map, List.map_map]
  exact List.map_congr_left fun s _ => by cases s <;> rfl

/-! ### Members -/

theorem redact_stopLoop (m : Member) : (w.stopLoop m).redact = w.redact.stopLoop m.redact := by
  rw [stopLoop, stopLoop, show m.redact.loop = m.loop from rfl]
  cases m.loop with
  | none => rfl
  | some id => exact redact_cancelLoop w id

/-- An answer with what is around it, without addresses. -/
abbrev redactEnding : World × Ending Reply → World × Ending Reply := Prod.map redact Ending.redact

theorem redact_hire (name id : String) (settings : Settings) (kind : Payload.Kind) :
    redactEnding (w.hire name id settings kind) = w.redact.hire name id settings.redact kind := by
  rw [hire, hire, Worker.create_redact, redact_member]
  cases Worker.create id settings kind with
  | error fault => rfl
  | ok worker =>
    refine Prod.ext ?_ rfl
    cases w.members.get? name with
    | none => exact redact_setMember w name { worker }
    | some m =>
      refine (redact_setMember (w.stopLoop m) name { worker }).trans ?_
      rw [redact_stopLoop]
      rfl

theorem redact_spawn (name : String) (m : Member) (token : String) (expiry : Duration) :
    (w.spawn name m token expiry).redact = w.redact.spawn name m.redact token expiry := by
  simp only [spawn, redact, Table.map_insert, Table.length_map]
  rfl

theorem redact_start (name token : String) :
    redactEnding (w.start name token) = w.redact.start name token := by
  rw [start, start, redact_member]
  cases w.members.get? name with
  | none => rfl
  | some m =>
    rw [Option.map_some]
    dsimp only
    rw [redact_isRunning]
    split
    · exact Prod.ext (redact_note ..) rfl
    · rw [show m.redact.worker.settings.expiry? = m.worker.settings.expiry? from rfl]
      cases m.worker.settings.expiry? with
      | none => rfl
      | some expiry => exact Prod.ext (redact_spawn ..) rfl

theorem redact_stop (name : String) : redactEnding (w.stop name) = w.redact.stop name := by
  rw [stop, stop, redact_member]
  cases w.members.get? name with
  | none => rfl
  | some m =>
    refine Prod.ext ?_ rfl
    rw [Option.map_some]
    dsimp only [redactEnding, Prod.map]
    rw [← redact_stopLoop]
    simp only [redact, Table.map_insert]
    rfl

theorem redact_dismiss (name : String) : redactEnding (w.dismiss name) = w.redact.dismiss name := by
  rw [dismiss, dismiss, redact_member]
  cases w.members.get? name with
  | none => rfl
  | some m =>
    refine Prod.ext ?_ rfl
    rw [Option.map_some]
    dsimp only [redactEnding, Prod.map]
    rw [← redact_stopLoop]
    simp only [redact, Table.map_erase]

end World

/-! ### Scripts -/

def Step.redact : Step → Step
  | .hire name id settings kind => .hire name id settings.redact kind
  | s => s

namespace World

variable (w : World)

/-- A session from which all addresses were taken out goes on just like the one with the addresses. -/
theorem redact_step (s : Step) : redactEndings (w.step s) = w.redact.step s.redact := by
  have hsettled {p p' : World × Ending Reply} (hp : redactEnding p = p') :
      redactEndings (p.1.settle, [p.2]) = (p'.1.settle, [p'.2]) := by
    subst hp
    exact Prod.ext (redact_settle p.1) rfl
  have hslept (target : Nat) :
      redactEndings (w.elapseTo target,
        [.finished (.ok (.count ((w.elapseTo target).now / Instant.milli)))]) =
      (w.redact.elapseTo target,
        [.finished (.ok (.count ((w.redact.elapseTo target).now / Instant.milli)))]) := by
    rw [show w.redact.elapseTo target = (w.elapseTo target).redact from (redact_elapse ..).symm]
    rfl
  cases s with
  | hire name id settings kind => exact hsettled (redact_hire ..)
  | start name token => exact hsettled (redact_start ..)
  | stop name => exact hsettled (redact_stop ..)
  | dismiss name => exact hsettled (redact_dismiss ..)
  | sleep millis => exact hslept _
  | align millis => exact hslept _
  | request r limit => exact redact_perform w [(r, limit)]
  | together rs => exact redact_perform w rs

theorem redact_steps (steps : List Step) :
    (steps.foldl (fun w s => (w.step s).1) w).redact =
      (steps.map Step.redact).foldl (fun w s => (w.step s).1) w.redact := by
  induction steps generalizing w with
  | nil => rfl
  | cons s steps ih =>
    rw [List.foldl_cons, ih, List.map_cons, List.foldl_cons, ← redact_step]
    rfl

theorem redact_reached (clock : Clock) (steps : List Step) :
    (reached clock steps).redact = reached clock (steps.map Step.redact) :=
  redact_steps (new clock) steps

/-- The answers to steps, in order. -/
def answers : World → List Step → List (List (Ending Reply))
  | _, [] => []
  | w, s :: steps => (w.step s).2 :: answers (w.step s).1 steps

theorem run_eq_answers (clock : Clock) (steps : List Step) :
    run clock steps = answers (new clock) steps := by
  have hfold (w : World) (l : List (List (Ending Reply))) :
      (steps.foldl (fun p s => ((p.1.step s).1, (p.1.step s).2 :: p.2)) (w, l)).2.reverse =
        l.reverse ++ w.answers steps := by
    induction steps generalizing w l with
    | nil => exact (List.append_nil _).symm
    | cons s steps ih =>
      rw [List.foldl_cons, ih, answers, List.reverse_cons, List.append_assoc]
      rfl
  exact hfold _ []

theorem redact_answers (steps : List Step) :
    (w.answers steps).map (List.map Ending.redact) = w.redact.answers (steps.map Step.redact) := by
  induction steps generalizing w with
  | nil => rfl
  | cons s steps ih =>
    rw [List.map_cons, answers, answers, ← redact_step, List.map_cons, ih]
    rfl

end World

/-! ### Sessions that differ in addresses -/

/-- Settings that differ at most in their addresses, of which both or neither are there. -/
structure Settings.Alike (s t : Settings) : Prop where
  rest : { s with address := t.address } = t
  given : s.address.expose.isEmpty = t.address.expose.isEmpty

theorem Settings.alike_iff {s t : Settings} : s.Alike t ↔ s.redact = t.redact := by
  constructor
  · intro ⟨hrest, hgiven⟩
    rw [redact, redact, ← hrest, Secret.redact, Secret.redact, hgiven]
  · intro h
    have haddress : s.address.redact = t.address.redact := congrArg Settings.address h
    refine ⟨?_, ?_⟩
    · exact congrArg (fun u : Settings => { u with address := t.address }) h
    · rw [← s.address.isEmpty_redact, haddress, Secret.isEmpty_redact]

theorem Settings.Alike.text {s t : Settings} (h : s.Alike t) : s.text = t.text := by
  rw [← s.text_redact, alike_iff.mp h, text_redact]

/-- The same step twice, or the same worker with two addresses. -/
inductive Step.Alike : Step → Step → Prop where
  | same (s : Step) : Alike s s
  | hire {name id : String} {s t : Settings} {kind : Payload.Kind} (h : s.Alike t) :
    Alike (.hire name id s kind) (.hire name id t kind)

/-- The same answer twice, or the settings of a worker with two addresses. -/
inductive Ending.Alike : Ending Reply → Ending Reply → Prop where
  | same (e : Ending Reply) : Alike e e
  | settings {s t : Settings} (h : s.Alike t) :
    Alike (.finished (.ok (.settings s))) (.finished (.ok (.settings t)))

theorem Step.Alike.redact {s t : Step} (h : s.Alike t) : s.redact = t.redact := by
  cases h with
  | same s => rfl
  | hire h => exact congrArg (Step.hire _ _ · _) (Settings.alike_iff.mp h)

theorem Ending.redact_cases (e : Ending Reply) :
    (∃ s, e = .finished (.ok (.settings s)) ∧ e.redact = .finished (.ok (.settings s.redact))) ∨
      (e.redact = e ∧ ∀ s, e ≠ .finished (.ok (.settings s))) := by
  cases e with
  | finished r =>
    cases r with
    | ok r =>
      cases r with
      | settings s => exact .inl ⟨s, rfl, rfl⟩
      | _ => exact .inr ⟨rfl, fun s h => by cases h⟩
    | error _ => exact .inr ⟨rfl, fun s h => by cases h⟩
  | _ => exact .inr ⟨rfl, fun s h => by cases h⟩

theorem Ending.alike_of_redact {e e' : Ending Reply} (h : e.redact = e'.redact) : e.Alike e' := by
  rcases e.redact_cases with ⟨s, rfl, hs⟩ | ⟨hs, hother⟩ <;>
    rcases e'.redact_cases with ⟨t, rfl, ht⟩ | ⟨ht, hother'⟩
  all_goals rw [hs, ht] at h
  · injection h with h
    injection h with h
    injection h with h
    exact .settings (Settings.alike_iff.mpr h)
  · exact absurd h.symm (hother' _)
  · exact absurd h (hother _)
  · exact h ▸ .same e

theorem forall₂_of_map_eq {α β : Type} {f : α → β} {R : α → α → Prop} (hf : ∀ a b, f a = f b → R a b)
    {l l' : List α} (h : l.map f = l'.map f) : List.Forall₂ R l l' := by
  rw [← List.forall₂_eq_eq_eq, List.forall₂_map_left_iff, List.forall₂_map_right_iff] at h
  exact h.imp hf

/-- Nothing that can be seen of a session depends on the addresses in its settings. Two scripts that
differ in addresses alone, where one has an address if and only if the other has, have the same answers,
but that the settings of a worker tell its address. They leave the same store behind, and the same records
and counts. Settings with two addresses have the same text, also within the settings of a process, and pass
the check together or fail it with the same fault. -/
theorem address_unseen (clock : Clock) {steps steps' : List Step}
    (h : List.Forall₂ Step.Alike steps steps') :
    List.Forall₂ (List.Forall₂ Ending.Alike) (World.run clock steps) (World.run clock steps') ∧
    (World.reached clock steps).store = (World.reached clock steps').store ∧
    (World.reached clock steps).trace = (World.reached clock steps').trace ∧
    (World.reached clock steps).ledger = (World.reached clock steps').ledger ∧
    ∀ s t : Settings, s.Alike t → s.check = t.check ∧ s.text = t.text ∧
      ∀ exporter filter,
        (ProcessSettings.mk s exporter filter).text = (ProcessSettings.mk t exporter filter).text := by
  have hsteps : steps.map Step.redact = steps'.map Step.redact := by
    rw [← List.forall₂_eq_eq_eq, List.forall₂_map_left_iff, List.forall₂_map_right_iff]
    exact h.imp fun _ _ => Step.Alike.redact
  have hreached : (World.reached clock steps).redact = (World.reached clock steps').redact := by
    rw [World.redact_reached, World.redact_reached, hsteps]
  refine ⟨?_, (congrArg World.store hreached :), (congrArg World.trace hreached :),
    (congrArg World.ledger hreached :), fun s t hst => ?_⟩
  · have hanswers : (World.run clock steps).map (List.map Ending.redact) =
        (World.run clock steps').map (List.map Ending.redact) := by
      rw [World.run_eq_answers, World.run_eq_answers, World.redact_answers, World.redact_answers, hsteps]
    exact forall₂_of_map_eq (fun _ _ h => forall₂_of_map_eq (fun _ _ => Ending.alike_of_redact) h) hanswers
  · refine ⟨?_, hst.text, fun exporter filter => ?_⟩
    · rw [← s.check_redact, Settings.alike_iff.mp hst, Settings.check_redact]
    · unfold ProcessSettings.text
      dsimp only
      rw [hst.text]

/-- A worker with a given address is made, runs, beats once more by itself and tells its settings. -/
private def shift (address : String) : List Step :=
  [.hire "w" "a" { Settings.standard with address := ⟨address⟩ } .text, .start "w" "main",
    .request (.call "w" "main" .heartbeat) 1, .request (.settings "w") 1, .request .trace 1]

/-- A password in the address makes no difference, although the worker holds it. -/
theorem address_unseen_password :
    let steps := shift "redis://:hunter2@localhost"
    let steps' := shift "redis://localhost"
    List.Forall₂ Step.Alike steps steps' ∧
    List.Forall₂ (List.Forall₂ Ending.Alike) (World.run ⟨5, 0⟩ steps) (World.run ⟨5, 0⟩ steps') ∧
    (World.reached ⟨5, 0⟩ steps).store = (World.reached ⟨5, 0⟩ steps').store ∧
    ((World.reached ⟨5, 0⟩ steps).members.get? "w").map (·.worker.settings.address.expose) =
      some "redis://:hunter2@localhost" := by
  intro steps steps'
  have hsteps : List.Forall₂ Step.Alike steps steps' :=
    .cons (.hire ⟨rfl, by decide⟩) (List.forall₂_same.mpr fun s _ => .same s)
  obtain ⟨hanswers, hstore, -⟩ := address_unseen ⟨5, 0⟩ hsteps
  exact ⟨hsteps, hanswers, hstore, by decide +kernel⟩

end StreamWorker
