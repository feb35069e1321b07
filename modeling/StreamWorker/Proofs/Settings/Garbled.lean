import StreamWorker.Proofs.Settings.Environment

/-! Variables with values that cannot be used. A text that is wrong for its variable is refused, and no
default stands in for a text. Bytes that are no text are refused nowhere, except in the address: only
the legible part of the variables matters, so that a garbled variable is as good as unset. -/

namespace StreamWorker

/-! ### Legible variables -/

namespace Environment

variable {env : Environment} {name value : String}

private theorem get?_foldl_erase (names : List String) (env : Environment) (name : String) :
    Table.get? (names.foldl Table.erase env) name = if name ∈ names then none else env.get? name := by
  induction names generalizing env with
  | nil => simp
  | cons first names ih =>
    rw [List.foldl_cons, ih, Table.get?_erase]
    by_cases hm : name ∈ names
    · simp [hm]
    · by_cases hf : name = first
      · simp [hf]
      · simp [hm, hf, Ne.symm hf]

/-- The variable is set to bytes that are no text. -/
def Garbled (env : Environment) (name : String) : Prop :=
  env.get? name ≠ none ∧ ∀ value, ¬ env.Holds name value

/-- The variables without those that are garbled. -/
def legible (env : Environment) : Environment :=
  (env.keys.filter fun name => env.text? name = none).foldl Table.erase env

theorem text?_eq_none_iff : env.text? name = none ↔ ∀ value, ¬ env.Holds name value := by
  simp only [← text?_eq_some_iff, Option.eq_none_iff_forall_ne_some, ne_eq]

theorem get?_legible (env : Environment) (name : String) :
    Table.get? env.legible name = if env.text? name = none then none else env.get? name := by
  rw [legible, get?_foldl_erase]
  by_cases ht : env.text? name = none
  · by_cases hm : name ∈ env.keys
    · rw [if_pos ht, if_pos (List.mem_filter.mpr ⟨hm, decide_eq_true ht⟩)]
    · rw [Table.mem_keys, Table.contains, Bool.not_eq_true, Option.isSome_eq_false_iff,
        Option.isNone_iff_eq_none] at hm
      simp [hm]
  · have hm : name ∉ env.keys.filter fun name => env.text? name = none :=
      fun hm => ht (of_decide_eq_true (List.mem_filter.mp hm).2)
    rw [if_neg ht, if_neg hm]

@[simp] theorem holds_legible : Holds env.legible name value ↔ env.Holds name value := by
  rw [Holds, get?_legible]
  split
  · next ht => exact iff_of_false (by simp) (text?_eq_none_iff.mp ht value)
  · rfl

@[simp] theorem text?_legible (env : Environment) (name : String) :
    text? env.legible name = env.text? name := by
  ext value
  rw [text?_eq_some_iff, holds_legible, text?_eq_some_iff]

/-- What is not legible is unset or garbled. -/
theorem get?_legible_eq_none_iff :
    Table.get? env.legible name = none ↔ env.get? name = none ∨ env.Garbled name := by
  rw [get?_legible, Garbled, ← text?_eq_none_iff]
  by_cases hnone : env.get? name = none
  · simp [hnone]
  · simp [hnone]

/-- A legible variable is unset or set to a text. -/
theorem says_legible (env : Environment) (name : String) :
    Says env.legible name (fun _ => True) True := by
  cases ht : env.text? name with
  | none => exact .inr ⟨by rw [get?_legible, if_pos ht], trivial⟩
  | some value => exact .inl ⟨value, holds_legible.mpr (text?_eq_some_iff.mp ht), trivial⟩

/-- Taking away a garbled variable changes no text. -/
theorem Garbled.text?_erase (h : env.Garbled name) (other : String) :
    text? (Table.erase env name) other = env.text? other := by
  rw [text?, Table.get?_erase]
  split
  · next he =>
    subst he
    exact (text?_eq_none_iff.mpr h.2).symm
  · rfl

theorem holds_unique {value' : String} (h : env.Holds name value) (h' : env.Holds name value') :
    value = value' :=
  Option.some_inj.mp ((text?_eq_some_iff.mpr h).symm.trans (text?_eq_some_iff.mpr h'))

theorem Says.of_holds {p : String → Prop} {q : Prop} (hs : env.Says name p q)
    (h : env.Holds name value) : p value := by
  rcases hs with ⟨v, hv, hp⟩ | ⟨hnone, -⟩
  · rwa [holds_unique h hv]
  · cases hnone.symm.trans h

end Environment

namespace Settings

open Environment

variable {env env' : Environment} {s : Settings} {name raw url : String} {p : String → Prop}

/-! ### What is refused -/

/-- Settings depend on the texts of the variables alone. -/
theorem ofEnvironment_congr (h : ∀ name, env.text? name = env'.text? name) :
    ofEnvironment env = ofEnvironment env' := by
  simp only [ofEnvironment, span?, h]

theorem ofEnvironment_legible (env : Environment) : ofEnvironment env.legible = ofEnvironment env :=
  ofEnvironment_congr (text?_legible env)

theorem readable_legible (env : Environment) : Readable env.legible :=
  ⟨says_legible .., says_legible .., says_legible .., says_legible .., says_legible ..⟩

/-- The text of a count of 64 bits. -/
def Fits (raw : String) : Prop := ∃ n : UInt64, Numeral.Denotes raw n.toNat

theorem Counts.fits (h : Counts raw) : Fits raw := by
  obtain ⟨n, -, hlt, hn⟩ := h
  exact ⟨.ofNat n, by rwa [UInt64.toNat_ofNat_of_lt' hlt]⟩

/-- The variables that may be left out, each with what it must be if it is set. -/
def optional : List (String × (String → Prop)) :=
  [("RESPONSE_ENTRY_TIMEOUT_SECS", Fits), ("KEEPALIVE_TIMEOUT_MS", Fits),
    ("REDIS_STREAM", (· ≠ "")), ("REDIS_GROUP", (· ≠ ""))]

/-- In runnable variables every text is what it must be. -/
theorem Runnable.suits (h : Runnable env) (hp : (name, p) ∈ optional) (hraw : env.Holds name raw) :
    p raw := by
  simp only [optional, List.mem_cons, List.not_mem_nil, or_false, Prod.mk.injEq] at hp
  rcases hp with ⟨rfl, rfl⟩ | ⟨rfl, rfl⟩ | ⟨rfl, rfl⟩ | ⟨rfl, rfl⟩
  · exact (h.retention.of_holds hraw).fits
  · exact (h.keepalive.of_holds hraw).fits
  · exact h.stream.of_holds hraw
  · exact h.group.of_holds hraw

/-- Which variables give settings: the legible ones alone decide. -/
theorem exists_ofEnvironment_legible_iff :
    (∃ s, ofEnvironment env = .ok s) ↔ Runnable env.legible := by
  rw [← ofEnvironment_legible]
  exact exists_ofEnvironment_iff (readable_legible env)

/-- A text that is not what its variable must be is refused, as a failure of the settings. Settings that
are given have the value of every variable that is set to a text; a default stands only for a variable
that is not legible, which is one that is unset or garbled. A garbled variable is refused nowhere:
without it, the same is given. Settings are given exactly if the legible variables are runnable. -/
theorem unusable_text_refused (haddress : env.Holds "REDIS_URL" url) (hurl : url ≠ "") :
    (∀ name p raw, (name, p) ∈ optional → env.Holds name raw → ¬ p raw →
      ∃ fault reason, ofEnvironment env = .error fault ∧ Failure.ofSettings fault = .settings reason) ∧
    (∀ s, ofEnvironment env = .ok s → Given env.legible s) ∧
    (∀ name, (Table.get? env.legible name = none ↔ env.get? name = none ∨ env.Garbled name) ∧
      ∀ raw, Holds env.legible name raw ↔ env.Holds name raw) ∧
    (∀ name, env.Garbled name → ofEnvironment env = ofEnvironment (Table.erase env name)) ∧
    ((∃ s, ofEnvironment env = .ok s) ↔
      Says env.legible "RESPONSE_ENTRY_TIMEOUT_SECS" Counts True ∧
      Says env.legible "KEEPALIVE_TIMEOUT_MS" Counts True ∧
      Says env.legible "REDIS_STREAM" (· ≠ "") True ∧ Says env.legible "REDIS_GROUP" (· ≠ "") True) := by
  refine ⟨fun name p raw hp hraw hnot => ?_, fun s hs => ?_,
    fun name => ⟨get?_legible_eq_none_iff, fun raw => holds_legible⟩,
    fun name h => (ofEnvironment_congr h.text?_erase).symm, ?_⟩
  · cases hs : ofEnvironment env with
    | ok s =>
      have hrunnable := exists_ofEnvironment_legible_iff.mp ⟨s, hs⟩
      exact absurd (hrunnable.suits hp (holds_legible.mpr hraw)) hnot
    | error fault => exact ⟨fault, fault.message, rfl, rfl⟩
  · rw [← ofEnvironment_legible] at hs
    exact ((ofEnvironment_iff_given (readable_legible env)).mp hs).1
  · rw [exists_ofEnvironment_legible_iff]
    constructor
    · intro h
      exact ⟨h.retention, h.keepalive, h.stream, h.group⟩
    · rintro ⟨hretention, hkeepalive, hstream, hgroup⟩
      exact ⟨hretention, hkeepalive, ⟨url, holds_legible.mpr haddress, hurl⟩, hstream, hgroup⟩

/-- An address, a keepalive that is no text, and a stream whose name is empty. -/
def smudged : Environment := .ofList
  [("REDIS_URL", Utf8.encode "redis://h"), ("KEEPALIVE_TIMEOUT_MS", [0xff]), ("REDIS_STREAM", [])]

theorem garbled_smudged : smudged.Garbled "KEEPALIVE_TIMEOUT_MS" := by
  have ht : smudged.text? "KEEPALIVE_TIMEOUT_MS" = none := by decide +kernel
  exact ⟨by decide +kernel, text?_eq_none_iff.mp ht⟩

/-- The empty name is refused, and the keepalive is not: without the name, the default stands in. -/
theorem smudged_refused : smudged.Holds "REDIS_URL" "redis://h" ∧ smudged.Holds "REDIS_STREAM" "" ∧
    smudged.Garbled "KEEPALIVE_TIMEOUT_MS" ∧
    (∃ fault reason, ofEnvironment smudged = .error fault ∧
      Failure.ofSettings fault = .settings reason) ∧
    ofEnvironment smudged = ofEnvironment (Table.erase smudged "KEEPALIVE_TIMEOUT_MS") := by
  have haddress : smudged.Holds "REDIS_URL" "redis://h" := by decide +kernel
  have hstream : smudged.Holds "REDIS_STREAM" "" := by decide +kernel
  obtain ⟨hrefused, -, -, hgarbled, -⟩ := unusable_text_refused haddress (by decide)
  exact ⟨haddress, hstream, garbled_smudged,
    hrefused "REDIS_STREAM" (· ≠ "") "" (by simp [optional]) hstream (by simp),
    hgarbled _ garbled_smudged⟩

/-- A keepalive that is no text is not refused: the default stands in for it. -/
theorem garbled_keepalive_passed_over :
    let env : Environment := .ofList
      [("REDIS_URL", Utf8.encode "redis://h"), ("KEEPALIVE_TIMEOUT_MS", [0xff])]
    env.Holds "REDIS_URL" "redis://h" ∧ env.Garbled "KEEPALIVE_TIMEOUT_MS" ∧
      ofEnvironment env = .ok { standard with address := ⟨"redis://h"⟩ } := by
  intro env
  have ht : env.text? "KEEPALIVE_TIMEOUT_MS" = none := by decide +kernel
  refine ⟨by decide +kernel, ⟨by decide +kernel, text?_eq_none_iff.mp ht⟩,
    ofEnvironment_eq_ok_iff.mpr ⟨⟨none, ?_, rfl⟩, ⟨none, ?_, rfl⟩, by decide +kernel,
      by decide +kernel, by decide +kernel, check_eq_ok_iff.mpr (by decide)⟩⟩
  · exact span?_of_unset (by decide +kernel)
  · rw [span?, ht]

end Settings

end StreamWorker
