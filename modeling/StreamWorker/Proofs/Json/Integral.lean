import StreamWorker.Proofs.Json.RoundTrip

/-! Documents in which every number is an integer that is kept exactly. Whatever blanks, escapes and
repeated names such a document has, its value is one that its own text spells, so reading that text gives
the same value again. -/

namespace StreamWorker.Json

/-- Bytes whose numerals, outside strings, are integers that are kept exactly. -/
inductive Integral : Bytes → Prop where
  | nil : Integral []
  | other {b : UInt8} {s : Bytes} : b ≠ byte '"' → b ≠ byte '-' → isDigit b = false → Integral s →
    Integral (b :: s)
  | string {s rest : Bytes} {t : String} : Json.string s = .ok (t, rest) → Integral rest →
    Integral (byte '"' :: s)
  | numeral {i : Int} {rest : Bytes} : Fits i → Ends rest → Integral rest →
    Integral (bytes (integerText i) ++ rest)

namespace Integral

variable {b : UInt8} {s rest : Bytes} {t : String}

/-- What the first byte begins: a string, a number or something that is neither. -/
theorem cons_cases (h : Integral (b :: s)) :
    (b ≠ byte '"' ∧ b ≠ byte '-' ∧ isDigit b = false ∧ Integral s) ∨
      (b = byte '"' ∧ ∃ t rest, Json.string s = .ok (t, rest) ∧ Integral rest) ∨
      (b = byte '-' ∧ ∃ i rest, Fits i ∧ number true s = .ok (.integer i, rest) ∧ Integral rest) ∨
      (isDigit b = true ∧
        ∃ i rest, Fits i ∧ number false (b :: s) = .ok (.integer i, rest) ∧ Integral rest) := by
  generalize hl : b :: s = l at h
  cases h with
  | nil => cases hl
  | other hq hm hd hs =>
    cases hl
    exact .inl ⟨hq, hm, hd, hs⟩
  | string hstring hrest =>
    cases hl
    exact .inr (.inl ⟨rfl, _, _, hstring, hrest⟩)
  | numeral hi hr hrest =>
    rcases number_integerText hi hr with ⟨tail, htail, hnumber⟩ | ⟨c, tail, htail, hc, hnumber⟩
    · cases hl.trans htail
      exact .inr (.inr (.inl ⟨rfl, _, _, hi, hnumber, hrest⟩))
    · rw [htail]
      cases hl.trans htail
      exact .inr (.inr (.inr ⟨hc, _, _, hi, hnumber, hrest⟩))

theorem tail (h : Integral (b :: s)) (hq : b ≠ byte '"') (hm : b ≠ byte '-') (hd : isDigit b = false) :
    Integral s := by
  rcases h.cons_cases with ⟨-, -, -, hs⟩ | ⟨rfl, -⟩ | ⟨rfl, -⟩ | ⟨hb, -⟩
  · exact hs
  · exact absurd rfl hq
  · exact absurd rfl hm
  · rw [hb] at hd
    cases hd

theorem after_string (h : Integral (byte '"' :: s)) (hs : Json.string s = .ok (t, rest)) : Integral rest := by
  rcases h.cons_cases with ⟨hq, -⟩ | ⟨-, t', rest', hs', hrest⟩ | ⟨hm, -⟩ | ⟨hd, -⟩
  · exact absurd rfl hq
  · rw [hs'] at hs
    cases hs
    exact hrest
  · exact absurd hm (by decide)
  · exact absurd hd (by decide)

/-- A number with a sign is an integer. -/
theorem after_minus (h : Integral (byte '-' :: s)) :
    ∃ i rest, Fits i ∧ number true s = .ok (.integer i, rest) ∧ Integral rest := by
  rcases h.cons_cases with ⟨-, hm, -⟩ | ⟨hq, -⟩ | ⟨-, hnumber⟩ | ⟨hd, -⟩
  · exact absurd rfl hm
  · exact absurd hq (by decide)
  · exact hnumber
  · exact absurd hd (by decide)

/-- A number without a sign is an integer. -/
theorem of_digit (h : Integral (b :: s)) (hb : isDigit b = true) :
    ∃ i rest, Fits i ∧ number false (b :: s) = .ok (.integer i, rest) ∧ Integral rest := by
  rcases h.cons_cases with ⟨-, -, hd, -⟩ | ⟨hq, -⟩ | ⟨hm, -⟩ | ⟨-, hnumber⟩
  · rw [hb] at hd
    cases hd
  · exact absurd hq (ne_of_isDigit hb (by decide))
  · exact absurd hm (ne_of_isDigit hb (by decide))
  · exact hnumber

theorem skipBlanks (h : Integral s) : Integral (skipBlanks s) := by
  induction s with
  | nil => exact h
  | cons b s ih =>
    cases hb : isBlank b with
    | false => rwa [skipBlanks_cons hb]
    | true =>
      rw [Json.skipBlanks, List.dropWhile_cons_of_pos hb]
      simp only [isBlank, Bool.or_eq_true, decide_eq_true_eq] at hb
      rcases hb with ((rfl | rfl) | rfl) | rfl <;> exact ih (h.tail (by decide) (by decide) (by decide))

theorem follows {first : Bool} {t : Bytes} (h : Integral s) (hf : Follows first s t) : Integral t := by
  cases first with
  | true =>
    have hs : Json.skipBlanks s = t := hf
    exact hs ▸ h.skipBlanks
  | false =>
    obtain ⟨u, hs, rfl⟩ := hf
    have hskip := h.skipBlanks
    rw [hs] at hskip
    exact (hskip.tail (by decide) (by decide) (by decide)).skipBlanks

/-- What ends a list or an object is no number. -/
theorem after_mark {b : UInt8} (h : Integral s) (hs : Json.skipBlanks s = b :: rest)
    (hb : b ≠ byte '"' ∧ b ≠ byte '-' ∧ isDigit b = false) : Integral rest := by
  have hskip := h.skipBlanks
  rw [hs] at hskip
  exact hskip.tail hb.1 hb.2.1 hb.2.2

theorem after_colon (h : Integral s) {u : Unit} (hc : colon s = .ok (u, rest)) : Integral rest := by
  rw [colon] at hc
  split at hc
  · cases hc
  next b tail hs =>
  split at hc
  · next hmark =>
    subst hmark
    cases hc
    exact h.after_mark hs (by decide)
  · cases hc

/-- The letters of a word are no numbers. -/
theorem after_word {α : Type} {v v' : α} {l : List UInt8}
    (hl : l.all (fun b => b ≠ byte '"' && b ≠ byte '-' && !isDigit b) = true) (h : Integral s)
    (hw : word v l s = .ok (v', rest)) : Integral rest := by
  induction l generalizing s with
  | nil => cases hw; exact h
  | cons e es ih =>
    cases s with
    | nil => cases hw
    | cons b s =>
      rw [word] at hw
      split at hw
      · next he =>
        subst he
        simp only [List.all_cons, Bool.and_eq_true, decide_eq_true_eq, Bool.not_eq_true'] at hl
        obtain ⟨⟨⟨hq, hm⟩, hd⟩, hl⟩ := hl
        exact ih hl (h.tail hq hm hd) hw
      · cases hw

end Integral

/-! ### Members by increasing name -/

theorem mem_bind {k : String} {v : Value} {ms : List (String × Value)} {m : String × Value}
    (h : m ∈ bind k v ms) : m = (k, v) ∨ m ∈ ms := by
  induction ms with
  | nil => exact .inl (List.mem_singleton.mp h)
  | cons m' ms ih =>
    rw [bind] at h
    split at h
    · exact (List.mem_cons.mp h).imp_right (List.mem_cons_of_mem _)
    · split at h
      · exact List.mem_cons.mp h
      · rcases List.mem_cons.mp h with rfl | h
        · exact .inr List.mem_cons_self
        · exact (ih h).imp_right (List.mem_cons_of_mem _)

/-- Binding a name keeps members by increasing name. -/
theorem pairwise_bind {ms : List (String × Value)} (h : ms.Pairwise fun m m' => m.1 < m'.1) (k : String)
    (v : Value) : (bind k v ms).Pairwise fun m m' => m.1 < m'.1 := by
  induction ms with
  | nil => exact List.pairwise_singleton _ _
  | cons m ms ih =>
    obtain ⟨hm, hms⟩ := List.pairwise_cons.mp h
    rw [bind]
    split
    · next he =>
      subst he
      exact List.pairwise_cons.mpr ⟨hm, hms⟩
    · next hne =>
      split
      · next hlt =>
        refine List.pairwise_cons.mpr ⟨fun m' hm' => ?_, h⟩
        rcases List.mem_cons.mp hm' with rfl | hm'
        · exact hlt
        · exact String.lt_trans hlt (hm m' hm')
      · next hge =>
        refine List.pairwise_cons.mpr ⟨fun m' hm' => ?_, ih hms⟩
        rcases mem_bind hm' with rfl | hm'
        · exact Std.lt_of_le_of_ne (String.not_lt.mp hge) (Ne.symm hne)
        · exact hm m' hm'

/-! ### Reading -/

section Reading

variable {depth : Nat}

/-- What reading a value from such bytes leads to. -/
def ReadsCanonical (depth : Nat) : Prop :=
  ∀ s v rest, value depth s = .ok (v, rest) → Integral s → v.Canonical depth ∧ Integral rest

theorem ReadsCanonical.items (hvalue : ReadsCanonical depth) {fuel : Nat} {first : Bool} {s rest : Bytes}
    {vs : List Value} (h : items (value depth) fuel first s = .ok (vs, rest)) (hs : Integral s) :
    (∀ v ∈ vs, v.Canonical depth) ∧ Integral rest := by
  induction fuel generalizing first s vs with
  | zero =>
    rw [Json.items] at h
    cases h
  | succ fuel ih =>
    rcases items_ok_iff.mp h with ⟨hend, rfl⟩ | ⟨b, tail, v, mid, vs', hf, -, hv, hmore, rfl⟩
    · exact ⟨fun v hv => (by cases hv), hs.after_mark hend (by decide)⟩
    · obtain ⟨hcanonical, hmid⟩ := hvalue _ _ _ hv (hs.follows hf)
      obtain ⟨hall, hrest⟩ := ih hmore hmid
      exact ⟨List.forall_mem_cons.mpr ⟨hcanonical, hall⟩, hrest⟩

/-- Members that can stand in an object. -/
def Bound (depth : Nat) (ms : List (String × Value)) : Prop :=
  (∀ m ∈ ms, m.2.Canonical depth) ∧ ms.Pairwise fun m m' => m.1 < m'.1

theorem Bound.bind {ms : List (String × Value)} (h : Bound depth ms) (k : String) {v : Value}
    (hv : v.Canonical depth) : Bound depth (bind k v ms) := by
  refine ⟨fun m hm => ?_, pairwise_bind h.2 k v⟩
  rcases mem_bind hm with rfl | hm
  · exact hv
  · exact h.1 m hm

theorem ReadsCanonical.members (hvalue : ReadsCanonical depth) {fuel : Nat} {first : Bool} {s rest : Bytes}
    {ms ms' : List (String × Value)}
    (h : members (bindMember (value depth)) fuel first ms s = .ok (ms', rest))
    (hms : Bound depth ms) (hs : Integral s) : Bound depth ms' ∧ Integral rest := by
  induction fuel generalizing first s ms with
  | zero =>
    rw [Json.members] at h
    cases h
  | succ fuel ih =>
    rcases members_ok_iff.mp h with ⟨hend, rfl⟩ | ⟨tail, name, mid, ms₁, after, hf, hname, hmember, hmore⟩
    · exact ⟨hms, hs.after_mark hend (by decide)⟩
    · obtain ⟨u, v, hcolon, hv, rfl⟩ := bindMember_ok_iff.mp hmember
      have hmid : Integral mid := (hs.follows hf).after_string hname
      obtain ⟨hcanonical, hafter⟩ := hvalue _ _ _ hv (hmid.after_colon hcolon)
      exact ih hmore (hms.bind name hcanonical) hafter

/-- One value, whose items and members are read with fewer brackets around them. -/
theorem value_step (hdeep : ∀ d, depth = d + 1 → ReadsCanonical d) : ReadsCanonical depth := by
  intro s v rest h hs
  have hskip := hs.skipBlanks
  rw [value.eq_def] at h
  dsimp only at h
  split at h
  · cases h
  next b tail hb =>
  rw [hb] at hskip
  have hplain (hb : b ≠ byte '"' ∧ b ≠ byte '-' ∧ isDigit b = false) : Integral tail :=
    hskip.tail hb.1 hb.2.1 hb.2.2
  split at h
  · next hn =>
    obtain ⟨u, hu, rfl⟩ := mapValue_ok_iff.mp h
    exact ⟨.null, (hplain (by rw [hn]; decide)).after_word (by decide) hu⟩
  split at h
  · next ht =>
    obtain ⟨u, hu, rfl⟩ := mapValue_ok_iff.mp h
    exact ⟨.bool u, (hplain (by rw [ht]; decide)).after_word (by decide) hu⟩
  split at h
  · next hf =>
    obtain ⟨u, hu, rfl⟩ := mapValue_ok_iff.mp h
    exact ⟨.bool u, (hplain (by rw [hf]; decide)).after_word (by decide) hu⟩
  split at h
  · next hm =>
    subst hm
    obtain ⟨n, hn, rfl⟩ := mapValue_ok_iff.mp h
    obtain ⟨i, after, hi, hnumber, hafter⟩ := hskip.after_minus
    rw [hnumber] at hn
    cases hn
    exact ⟨.integer hi, hafter⟩
  split at h
  · next hd =>
    obtain ⟨n, hn, rfl⟩ := mapValue_ok_iff.mp h
    obtain ⟨i, after, hi, hnumber, hafter⟩ := hskip.of_digit hd
    rw [hnumber] at hn
    cases hn
    exact ⟨.integer hi, hafter⟩
  split at h
  · next hq =>
    subst hq
    obtain ⟨t, ht, rfl⟩ := mapValue_ok_iff.mp h
    exact ⟨.string t, hskip.after_string ht⟩
  split at h
  · next hl =>
    subst hl
    split at h
    · cases h
    · next d =>
      obtain ⟨vs, hvs, rfl⟩ := mapValue_ok_iff.mp h
      obtain ⟨hall, hrest⟩ := (hdeep d rfl).items hvs (hplain (by decide))
      exact ⟨.array hall, hrest⟩
  split at h
  · next ho =>
    subst ho
    split at h
    · cases h
    · next d =>
      obtain ⟨ms, hms, rfl⟩ := mapValue_ok_iff.mp h
      obtain ⟨⟨hall, hsorted⟩, hrest⟩ := (hdeep d rfl).members hms
        ⟨fun m hm => (by cases hm), List.Pairwise.nil⟩ (hplain (by decide))
      exact ⟨.object hall (hsorted.imp Utf8.encode_lt_encode.mpr), hrest⟩
  · cases h

/-- What is read from such bytes is spelled by its own text. -/
theorem readsCanonical (depth : Nat) : ReadsCanonical depth := by
  induction depth with
  | zero => exact value_step fun d hd => absurd hd (Nat.zero_ne_add_one d)
  | succ depth ih =>
    refine value_step fun d hd => ?_
    obtain rfl := Nat.succ.inj hd
    exact ih

end Reading

/-! ### Documents -/

theorem canonical_of_read {p : Bytes} {v : Value} (hp : Integral p) (h : Value.read p = .ok v) :
    v.Canonical maxDepth := by
  rw [Value.read, document] at h
  split at h
  · next v' rest hfinish =>
    cases h
    cases hv : value maxDepth p with
    | error stop =>
      rw [hv] at hfinish
      cases hfinish
    | ok r =>
      obtain ⟨v', rest'⟩ := r
      obtain ⟨hcanonical, -⟩ := readsCanonical maxDepth p v' rest' hv hp
      rw [hv, finish] at hfinish
      split at hfinish
      · cases hfinish
        exact hcanonical
      · cases hfinish
  · cases h

/-- The text of such a document is read back as the same value. -/
theorem read_render_of_read {p : Bytes} {v : Value} (hp : Integral p) (h : Value.read p = .ok v) :
    Value.read (Utf8.encode v.render) = .ok v :=
  read_render (canonical_of_read hp h)

end StreamWorker.Json
