import Std.Data.String.ToNat
import StreamWorker.Text.Blank
import StreamWorker.Text.Numeral

/-! Which texts are counts, and which counts they are: an optional plus, then digits, of a number that
fits, with white space around them where it is trimmed. The reader stops at the first digit that makes
the number too large; as digits never make a number smaller, it takes exactly the texts whose number
fits. -/

namespace StreamWorker

/-! ### Trimming -/

namespace Text

theorem dropWhile_blank {before l : List Char} (hb : ∀ c ∈ before, blank c = true)
    (hl : ∀ c ∈ l.head?, blank c = false) : (before ++ l).dropWhile blank = l := by
  rw [List.dropWhile_append_of_pos hb]
  cases l with
  | nil => rfl
  | cons c l => exact List.dropWhile_cons_of_neg (by simp [hl c rfl])

/-- White space at both ends goes, and nothing else. -/
theorem trimList_append {before l after : List Char} (hb : ∀ c ∈ before, blank c = true)
    (ha : ∀ c ∈ after, blank c = true) (hne : l ≠ []) (hl : ∀ c ∈ l, blank c = false) :
    trimList (before ++ l ++ after) = l := by
  have hfirst : ∀ c ∈ (l ++ after).head?, blank c = false := by
    cases l with
    | nil => exact absurd rfl hne
    | cons c l =>
      intro d hd
      cases hd
      exact hl c List.mem_cons_self
  have hlast : ∀ c ∈ l.reverse.head?, blank c = false := fun c hc =>
    hl c (List.mem_reverse.mp (List.mem_of_mem_head? hc))
  rw [trimList, List.append_assoc, dropWhile_blank hb hfirst, List.reverse_append,
    dropWhile_blank (fun c hc => ha c (List.mem_reverse.mp hc)) hlast, List.reverse_reverse]

/-- A text is what is left of it by trimming, with white space around. -/
theorem exists_trimList (l : List Char) : ∃ before after, l = before ++ trimList l ++ after ∧
    (∀ c ∈ before, blank c = true) ∧ ∀ c ∈ after, blank c = true := by
  have hrest := List.takeWhile_append_dropWhile (p := blank) (l := (l.dropWhile blank).reverse)
  refine ⟨l.takeWhile blank, ((l.dropWhile blank).reverse.takeWhile blank).reverse, ?_,
    fun c hc => List.all_eq_true.mp List.all_takeWhile c hc,
    fun c hc => List.all_eq_true.mp List.all_takeWhile c (List.mem_reverse.mp hc)⟩
  rw [List.append_assoc, trimList, ← List.reverse_append, hrest, List.reverse_reverse,
    List.takeWhile_append_dropWhile]

end Text

namespace Numeral

variable {bound n m : Nat} {c : Char} {l : List Char}

/-! ### Digits -/

/-- Digits after a number make it no smaller. -/
theorem le_ofDigitChars (ds : List Char) (n : Nat) : n ≤ Nat.ofDigitChars 10 ds n := by
  induction ds generalizing n with
  | nil => exact Nat.le_refl n
  | cons c ds ih =>
    refine Nat.le_trans ?_ (ih (10 * n + (c.toNat - '0'.toNat)))
    omega

theorem digit?_of_isDigit (h : c.isDigit = true) : digit? c = some (c.toNat - '0'.toNat) := by
  have h' : '0' ≤ c ∧ c ≤ '9' := by simpa [Char.isDigit, Char.le_def] using h
  rw [digit?, if_pos h']

theorem digit?_of_not_isDigit (h : ¬ c.isDigit = true) : digit? c = none := by
  have h' : ¬ ('0' ≤ c ∧ c ≤ '9') := by simpa [Char.isDigit, Char.le_def] using h
  rw [digit?, if_neg h']

theorem readDigits_eq_ok_iff (hn : n < bound) : readDigits bound n l = .ok m ↔
    (∀ c ∈ l, c.isDigit = true) ∧ Nat.ofDigitChars 10 l n = m ∧ m < bound := by
  induction l generalizing n with
  | nil =>
    have hnil : readDigits bound n [] = .ok n := rfl
    rw [hnil]
    constructor
    · intro h
      cases h
      exact ⟨fun c hc => (by cases hc), rfl, hn⟩
    · rintro ⟨-, rfl, -⟩
      rfl
  | cons c l ih =>
    rw [readDigits]
    by_cases hc : c.isDigit = true
    · have hcons : Nat.ofDigitChars 10 (c :: l) n =
        Nat.ofDigitChars 10 l (n * 10 + (c.toNat - '0'.toNat)) := by rw [Nat.mul_comm]; rfl
      rw [digit?_of_isDigit hc, hcons, List.forall_mem_cons]
      dsimp only
      split
      · next hfit => simp only [ih hfit, hc, true_and]
      · next hlarge =>
        refine ⟨fun h => (by cases h), fun ⟨_, hm, hlt⟩ => absurd ?_ hlarge⟩
        exact Nat.lt_of_le_of_lt (hm ▸ le_ofDigitChars l _) hlt
    · rw [digit?_of_not_isDigit hc]
      exact ⟨fun h => (by cases h), fun h => absurd (h.1 c List.mem_cons_self) hc⟩

/-! ### Counts -/

/-- An optional plus, then digits of the number. -/
def Spells (l : List Char) (n : Nat) : Prop :=
  ∃ sign digits, l = sign ++ digits ∧ (sign = [] ∨ sign = ['+']) ∧ digits ≠ [] ∧
    (∀ c ∈ digits, c.isDigit = true) ∧ Nat.ofDigitChars 10 digits 0 = n

theorem spells_plus : Spells ('+' :: l) n ↔
    l ≠ [] ∧ (∀ c ∈ l, c.isDigit = true) ∧ Nat.ofDigitChars 10 l 0 = n := by
  constructor
  · rintro ⟨sign, digits, hl, rfl | rfl, h⟩
    · rw [List.nil_append] at hl
      subst hl
      exact absurd (h.2.1 '+' List.mem_cons_self) (by decide)
    · cases hl
      exact h
  · exact fun h => ⟨['+'], l, rfl, .inr rfl, h⟩

theorem spells_cons (hc : c ≠ '+') : Spells (c :: l) n ↔
    (∀ x ∈ c :: l, x.isDigit = true) ∧ Nat.ofDigitChars 10 (c :: l) 0 = n := by
  constructor
  · rintro ⟨sign, digits, hl, rfl | rfl, -, h⟩
    · rw [List.nil_append] at hl
      rwa [hl]
    · exact absurd (List.cons.inj hl).1 hc
  · exact fun h => ⟨[], c :: l, rfl, .inl rfl, List.cons_ne_nil c l, h⟩

/-- Whatever spells a count has no white space in it. -/
theorem Spells.not_blank (h : Spells l n) : l ≠ [] ∧ ∀ c ∈ l, Text.blank c = false := by
  have hdigit {c : Char} (hc : c.isDigit = true) : Text.blank c = false := by
    obtain ⟨hlow, hhigh⟩ : 48 ≤ c.toNat ∧ c.toNat ≤ 57 := Char.isDigit_iff_toNat.mp hc
    simp only [Text.blank, Bool.or_eq_false_iff, Bool.and_eq_false_iff, decide_eq_false_iff_not]
    omega
  obtain ⟨sign, digits, rfl, hsign, hne, hdigits, -⟩ := h
  refine ⟨fun hnil => hne (List.append_eq_nil_iff.mp hnil).2, fun c hc => ?_⟩
  rcases List.mem_append.mp hc with hc | hc
  · rcases hsign with rfl | rfl
    · cases hc
    · rw [List.mem_singleton.mp hc]
      decide
  · exact hdigit (hdigits c hc)

theorem readBelow_eq_ok_iff {s : String} (hb : 0 < bound) :
    readBelow bound s = .ok n ↔ Spells s.toList n ∧ n < bound := by
  rw [readBelow]
  split
  · next hl =>
    rw [hl]
    refine ⟨fun h => (by cases h), fun h => absurd rfl h.1.not_blank.1⟩
  · next hl =>
    rw [hl]
    exact ⟨fun h => (by cases h), fun h => absurd rfl (spells_plus.mp h.1).1⟩
  · next cs hne hl =>
    have hcs : cs ≠ [] := fun hnil => hne (by rw [hnil])
    rw [hl, spells_plus, readDigits_eq_ok_iff hb]
    simp only [ne_eq, hcs, not_false_eq_true, true_and, and_assoc]
  · next cs hnil _ hplus =>
    cases hl : s.toList with
    | nil => exact absurd hl hnil
    | cons c cs =>
      have hc : c ≠ '+' := fun hc => hplus cs (by rw [hl, hc])
      rw [spells_cons hc, readDigits_eq_ok_iff hb, and_assoc]

/-- White space around an optional plus and digits of the number. -/
def Denotes (s : String) (n : Nat) : Prop :=
  ∃ before l after, s.toList = before ++ l ++ after ∧ (∀ c ∈ before, Text.blank c = true) ∧
    (∀ c ∈ after, Text.blank c = true) ∧ Spells l n

theorem denotes_iff {s : String} : Denotes s n ↔ Spells (Text.trim s).toList n := by
  rw [Text.trim, String.toList_ofList]
  constructor
  · rintro ⟨before, l, after, hs, hb, ha, h⟩
    obtain ⟨hne, hl⟩ := h.not_blank
    rwa [hs, Text.trimList_append hb ha hne hl]
  · intro h
    obtain ⟨before, after, hs, hb, ha⟩ := Text.exists_trimList s.toList
    exact ⟨before, _, after, hs, hb, ha, h⟩

/-- A trimmed text is read as a count exactly if that is what it denotes. -/
theorem read_trim_eq_ok_iff {s : String} {n : UInt64} :
    read (Text.trim s) = .ok n ↔ Denotes s n.toNat := by
  have hsize : 0 < UInt64.size := by decide
  rw [denotes_iff, read]
  constructor
  · intro h
    cases hr : readBelow UInt64.size (Text.trim s) with
    | error fault => rw [hr] at h; cases h
    | ok m =>
      rw [hr] at h
      cases h
      obtain ⟨hm, hlt⟩ := (readBelow_eq_ok_iff hsize).mp hr
      rwa [UInt64.toNat_ofNat_of_lt' hlt]
  · intro h
    rw [(readBelow_eq_ok_iff hsize).mpr ⟨h, n.toNat_lt_size⟩]
    exact congrArg Except.ok (UInt64.ofNat_toNat)

/-- A number in decimal denotes itself. -/
theorem denotes_toString (n : Nat) : Denotes (toString n) n := by
  refine ⟨[], Nat.toDigits 10 n, [], ?_, fun c hc => (by cases hc), fun c hc => (by cases hc),
    [], Nat.toDigits 10 n, rfl, .inl rfl, Nat.toDigits_ne_nil, fun c hc => ?_, ?_⟩
  · rw [Nat.toString_eq_ofList_toDigits, String.toList_ofList, List.nil_append, List.append_nil]
  · exact Nat.isDigit_of_mem_toDigits (by decide) (by decide) hc
  · exact Nat.ofDigitChars_toDigits (by decide) (by decide)

end Numeral

end StreamWorker
