import Mathlib.Data.List.Chain
import Mathlib.Logic.Relation
import StreamWorker.Failure

/-! Nested failures. A failure around another one adds a context in front of its text and an element in
front of its chain, and nothing else, so text and chain tell the same levels. Being cancelled looks
through a failed read, publication or acknowledgment only: a payload that made no sense hides it, although
its text and its chain go on to the cause like all others. -/

namespace StreamWorker

/-- A text is a context followed by another text. -/
def EndsIn (s t : String) : Prop := ∃ context, s = context ++ t

theorem EndsIn.refl (s : String) : EndsIn s s := ⟨"", by simp⟩

theorem EndsIn.trans {s t u : String} (h : EndsIn s t) (h' : EndsIn t u) : EndsIn s u := by
  obtain ⟨a, rfl⟩ := h
  obtain ⟨b, rfl⟩ := h'
  exact ⟨a ++ b, String.append_assoc.symm⟩

namespace Failure

variable {f c : Failure}

/-! ### Levels -/

/-- The failure around which another one was put. -/
def cause? : Failure → Option Failure
  | .read _ c | .undecodable _ c | .unpublished _ c | .unacknowledged _ c => some c
  | _ => none

/-- How many failures a failure was put around. -/
def depth : Failure → Nat
  | .read _ c | .undecodable _ c | .unpublished _ c | .unacknowledged _ c => c.depth + 1
  | _ => 0

/-- The failure so many levels below. -/
def level : Nat → Failure → Option Failure
  | 0, f => some f
  | n + 1, f => f.cause?.bind (level n)

/-- The failure of the innermost level. -/
def innermost : Failure → Failure
  | .read _ c | .undecodable _ c | .unpublished _ c | .unacknowledged _ c => c.innermost
  | f => f

/-- A failure in the course of a call, as the call's own failure. -/
inductive InCall : Failure → Failure → Prop where
  | read (member : String) (c : Failure) : InCall (.read member c) c
  | unpublished (message : String) (c : Failure) : InCall (.unpublished message c) c
  | unacknowledged (message : String) (c : Failure) : InCall (.unacknowledged message c) c

theorem InCall.cause (h : InCall f c) : f.cause? = some c := by cases h <;> rfl

/-- Neither the client of a server nor the server itself is to blame for the failure. -/
def Serverless (f : Failure) : Prop :=
  ∀ reason, f.innermost ≠ .connection reason ∧ f.innermost ≠ .server reason

/-- What holds of failures by themselves, and of a failure if it does of its cause, holds of all. -/
@[elab_as_elim]
theorem cause_induction {P : Failure → Prop} (single : ∀ f, f.cause? = none → P f)
    (around : ∀ f c, f.cause? = some c → P c → P f) (f : Failure) : P f := by
  induction f with
  | read m c ih => exact around _ c rfl ih
  | undecodable m c ih => exact around _ c rfl ih
  | unpublished m c ih => exact around _ c rfl ih
  | unacknowledged m c ih => exact around _ c rfl ih
  | _ => exact single _ rfl

/-! ### What one level adds -/

section Around
variable (h : f.cause? = some c)
include h

theorem depth_of_cause : f.depth = c.depth + 1 := by
  cases f <;> cases h <;> rfl

theorem innermost_of_cause : f.innermost = c.innermost := by
  cases f <;> cases h <;> rfl

theorem chain_of_cause : f.chain = c.text :: c.chain := by
  cases f <;> cases h <;> rfl

theorem text_of_cause : EndsIn f.text c.text := by
  cases f <;> cases h <;> exact ⟨_, rfl⟩

/-- Being cancelled goes up through every level but that of a payload that made no sense. -/
theorem isCancelled_of_cause :
    f.isCancelled = true ↔ c.isCancelled = true ∧ ∀ m, f ≠ .undecodable m c := by
  cases f <;> cases h <;> simp [isCancelled]

theorem inCall_of_cause : InCall f c ∨ ∃ m, f = .undecodable m c := by
  cases f <;> cases h
  · exact .inl (.read ..)
  · exact .inr ⟨_, rfl⟩
  · exact .inl (.unpublished ..)
  · exact .inl (.unacknowledged ..)

end Around

section Single
variable (h : f.cause? = none)
include h

theorem innermost_of_single : f.innermost = f := by
  cases f <;> first | rfl | cases h

theorem depth_of_single : f.depth = 0 := by
  cases f <;> first | rfl | cases h

theorem chain_of_single (hs : f.Serverless) : f.chain = [] := by
  cases f with
  | connection r => exact absurd rfl (hs r).1
  | server r => exact absurd rfl (hs r).2
  | read | undecodable | unpublished | unacknowledged => cases h
  | _ => rfl

theorem isCancelled_of_single : f.isCancelled = true ↔ f = .cancelled := by
  cases f with
  | read | undecodable | unpublished | unacknowledged => cases h
  | _ => simp [isCancelled]

end Single

theorem Serverless.cause (hs : f.Serverless) (h : f.cause? = some c) : c.Serverless := by
  rwa [Serverless, ← innermost_of_cause h]

/-! ### The chain -/

/-- The elements of the chain are the texts of the levels below. -/
theorem getElem?_chain (hs : f.Serverless) (i : Nat) : f.chain[i]? = (f.level (i + 1)).map text := by
  induction f using cause_induction generalizing i with
  | single f h => simp [chain_of_single h hs, level, h]
  | around f c h ih =>
    rw [chain_of_cause h, level, h, Option.bind_some]
    cases i with
    | zero => rfl
    | succ i => rw [List.getElem?_cons_succ, ih (hs.cause h)]

theorem length_chain (hs : f.Serverless) : f.chain.length = f.depth := by
  induction f using cause_induction with
  | single f h => rw [chain_of_single h hs, depth_of_single h, List.length_nil]
  | around f c h ih =>
    rw [chain_of_cause h, depth_of_cause h, List.length_cons, ih (hs.cause h)]

/-- From level to level, only a context is taken away in front. -/
theorem chain_endsIn (hs : f.Serverless) : (f.text :: f.chain).IsChain EndsIn := by
  induction f using cause_induction with
  | single f h =>
    rw [chain_of_single h hs]
    exact .singleton _
  | around f c h ih =>
    rw [chain_of_cause h]
    exact .cons_cons (text_of_cause h) (ih (hs.cause h))

theorem text_endsIn (hs : f.Serverless) : ∀ t ∈ f.chain, EndsIn f.text t := by
  induction f using cause_induction with
  | single f h => simp [chain_of_single h hs]
  | around f c h ih =>
    intro t ht
    rw [chain_of_cause h] at ht
    rcases List.mem_cons.mp ht with rfl | ht
    · exact text_of_cause h
    · exact (text_of_cause h).trans (ih (hs.cause h) t ht)

theorem getLast_chain (hs : f.Serverless) :
    (f.text :: f.chain).getLast (List.cons_ne_nil _ _) = f.innermost.text := by
  induction f using cause_induction with
  | single f h => simp [chain_of_single h hs, innermost_of_single h]
  | around f c h ih =>
    simp only [chain_of_cause h, innermost_of_cause h]
    rw [List.getLast_cons (List.cons_ne_nil _ _)]
    exact ih (hs.cause h)

/-! ### Being cancelled -/

theorem isCancelled_inCall (h : InCall f c) : f.isCancelled = c.isCancelled := by
  cases h <;> rfl

/-- A call was cancelled exactly if its failure leads to the cancellation without passing a payload that
made no sense. -/
theorem isCancelled_iff : f.isCancelled = true ↔ Relation.ReflTransGen InCall f .cancelled := by
  constructor
  · intro hx
    induction f using cause_induction with
    | single f h => rw [(isCancelled_of_single h).mp hx]
    | around f c h ih =>
      obtain ⟨hc, hne⟩ := (isCancelled_of_cause h).mp hx
      exact .head ((inCall_of_cause h).resolve_right fun ⟨m, he⟩ => hne m he) (ih hc)
  · intro hr
    induction hr using Relation.ReflTransGen.head_induction_on with
    | refl => rfl
    | head hstep _ ih => rwa [isCancelled_inCall hstep]

theorem innermost_of_isCancelled (hx : f.isCancelled = true) : f.innermost = .cancelled := by
  induction f using cause_induction with
  | single f h => rw [innermost_of_single h, (isCancelled_of_single h).mp hx]
  | around f c h ih => rw [innermost_of_cause h, ih ((isCancelled_of_cause h).mp hx).1]

/-- A payload that made no sense hides a cancellation, however deep. -/
theorem not_isCancelled_of_undecodable {m : String} {d : Failure}
    (hr : Relation.ReflTransGen (fun f c => f.cause? = some c) f (.undecodable m d)) :
    f.isCancelled = false := by
  induction hr using Relation.ReflTransGen.head_induction_on with
  | refl => rfl
  | head hstep _ ih =>
    rw [Bool.eq_false_iff] at ih ⊢
    exact fun hx => ih ((isCancelled_of_cause hstep).mp hx).1

/-- Text, chain and cancellation agree on every nesting. The chain has one element for each level below
the failure, which is the text of that level; each text is the end of the one before it, and of the
failure's own. A failure is a cancellation exactly if reads, publications and acknowledgments that failed
lead from it to the cancellation, whatever is put around it by another one of these, and never if a
payload that made no sense is on the way. Its text then ends in that of the cancellation, which is the
innermost one. -/
theorem levels_agree (f : Failure) (hs : f.Serverless) :
    f.chain.length = f.depth ∧
    (∀ i, f.chain[i]? = (f.level (i + 1)).map text) ∧
    (f.text :: f.chain).IsChain EndsIn ∧
    (∀ t ∈ f.chain, EndsIn f.text t) ∧
    (f.isCancelled = true ↔ Relation.ReflTransGen InCall f .cancelled) ∧
    (∀ g, InCall g f → g.isCancelled = f.isCancelled) ∧
    (∀ m d, Relation.ReflTransGen (fun f c => f.cause? = some c) f (.undecodable m d) →
      f.isCancelled = false) ∧
    (f.isCancelled = true → EndsIn f.text "operation cancelled" ∧
      (f.text :: f.chain).getLast (List.cons_ne_nil _ _) = "operation cancelled") := by
  refine ⟨length_chain hs, getElem?_chain hs, chain_endsIn hs, text_endsIn hs, isCancelled_iff,
    fun g => isCancelled_inCall, fun m d => not_isCancelled_of_undecodable, fun hx => ?_⟩
  have hlast : (f.text :: f.chain).getLast (List.cons_ne_nil _ _) = "operation cancelled" := by
    rw [getLast_chain hs, innermost_of_isCancelled hx]
    rfl
  refine ⟨?_, hlast⟩
  -- the innermost text is the failure's own, or an element of the chain
  rcases List.mem_cons.mp (hlast ▸ List.getLast_mem (List.cons_ne_nil f.text f.chain)) with he | hmem
  · exact he ▸ .refl _
  · exact text_endsIn hs _ hmem

/-- Of a publication that was given up inside a failed read, all three views tell two levels. -/
theorem levels_agree_given_up :
    let f : Failure := .read "c" (.unpublished "m" .cancelled)
    f.chain = ["setting result for message m: operation cancelled", "operation cancelled"] ∧
      f.chain.length = f.depth ∧ EndsIn f.text "operation cancelled" := by
  intro f
  have hs : f.Serverless := fun reason => ⟨by simp [f, innermost], by simp [f, innermost]⟩
  obtain ⟨hlength, -, -, -, -, -, -, hend⟩ := levels_agree f hs
  exact ⟨by decide +kernel, hlength, (hend rfl).1⟩

end Failure

end StreamWorker
