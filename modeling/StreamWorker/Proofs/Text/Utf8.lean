import StreamWorker.Text.Utf8

/-! A text survives being written as UTF-8, and its bytes are the only ones that it is read from. The
bytes of one character are read back as that character, whatever comes after them: the lead byte tells
how many bytes follow, and the ranges that are kept from the byte after it are those of overlong forms
and of numbers that are no characters, so no other bytes spell it either. A whole text follows by
induction over its characters, and so does that texts are ordered like their bytes. -/

namespace StreamWorker.Utf8

theorem tail_iff (b : UInt8) : tail b = true ↔ 128 ≤ b.toNat ∧ b.toNat ≤ 191 := by
  simp [tail, UInt8.le_iff_toNat_le]

/-- A second byte is a continuation byte that the lead byte does not rule out. -/
theorem second_of_toNat {lead b : UInt8} (hb : 128 ≤ b.toNat ∧ b.toNat ≤ 191)
    (hE0 : lead.toNat = 224 → 160 ≤ b.toNat) (hED : lead.toNat = 237 → b.toNat ≤ 159)
    (hF0 : lead.toNat = 240 → 144 ≤ b.toNat) (hF4 : lead.toNat = 244 → b.toNat ≤ 143) :
    second lead b = true := by
  simp only [second, secondRange, UInt8.le_iff_toNat_le, Bool.and_eq_true, decide_eq_true_eq]
  repeat' split
  · next h => exact ⟨hE0 (congrArg UInt8.toNat h), hb.2⟩
  · next h => exact ⟨hb.1, hED (congrArg UInt8.toNat h)⟩
  · next h => exact ⟨hF0 (congrArg UInt8.toNat h), hb.2⟩
  · next h => exact ⟨hb.1, hF4 (congrArg UInt8.toNat h)⟩
  · exact hb

private theorem not_lt_of_le {a n : UInt8} {m : Nat} (hn : n.toNat ≤ m) (ha : m ≤ a.toNat) : ¬ a < n := by
  rw [UInt8.lt_iff_toNat_lt]
  omega

section Sequence

variable {a b c d : UInt8} (rest : Bytes)

theorem sequence_one (ha : a.toNat < 128) : sequence a rest = .char (Char.ofNat a.toNat) 0 := by
  rw [sequence.eq_def, if_pos (UInt8.lt_iff_toNat_lt.mpr ha)]

theorem sequence_two (ha : 194 ≤ a.toNat) (ha' : a.toNat < 224) (hb : tail b = true) :
    sequence a (b :: rest) = .char (Char.ofNat (a.toNat % 32 * 64 + bits b)) 1 := by
  rw [sequence.eq_def, if_neg (not_lt_of_le (by decide) ha), if_neg (not_lt_of_le (by decide) ha),
    if_pos (UInt8.lt_iff_toNat_lt.mpr ha')]
  exact if_pos hb

theorem sequence_three (ha : 224 ≤ a.toNat) (ha' : a.toNat < 240) (hb : second a b = true)
    (hc : tail c = true) : sequence a (b :: c :: rest) =
      .char (Char.ofNat (a.toNat % 16 * 4096 + bits b * 64 + bits c)) 2 := by
  rw [sequence.eq_def, if_neg (not_lt_of_le (by decide) ha), if_neg (not_lt_of_le (by decide) ha),
    if_neg (not_lt_of_le (by decide) ha), if_pos (UInt8.lt_iff_toNat_lt.mpr ha')]
  exact (if_pos hb).trans (if_pos hc)

theorem sequence_four (ha : 240 ≤ a.toNat) (ha' : a.toNat < 245) (hb : second a b = true)
    (hc : tail c = true) (hd : tail d = true) : sequence a (b :: c :: d :: rest) =
      .char (Char.ofNat (a.toNat % 8 * 262144 + bits b * 4096 + bits c * 64 + bits d)) 3 := by
  rw [sequence.eq_def, if_neg (not_lt_of_le (by decide) ha), if_neg (not_lt_of_le (by decide) ha),
    if_neg (not_lt_of_le (by decide) ha), if_neg (not_lt_of_le (by decide) ha),
    if_pos (UInt8.lt_iff_toNat_lt.mpr ha')]
  exact (if_pos hb).trans ((if_pos hc).trans (if_pos hd))

end Sequence

/-- The bytes of a character are read back as that character, whatever follows them. -/
theorem sequence_encode (c : Char) :
    ∃ lead cont, String.utf8EncodeChar c = lead :: cont ∧
      ∀ rest, sequence lead (cont ++ rest) = .char c cont.length := by
  have hv : c.val.toNat.isValidChar := c.valid
  have hc : Char.ofNat c.val.toNat = c := Char.ofNat_toNat c
  simp only [Nat.isValidChar] at hv
  rw [String.utf8EncodeChar]
  generalize c.val.toNat = v at hv hc ⊢
  have toNat {n : Nat} (h : n < 256) : (UInt8.ofNat n).toNat = n := UInt8.toNat_ofNat_of_lt' h
  have tail (n : Nat) : tail (UInt8.ofNat (n % 64 + 128)) = true ∧
      bits (UInt8.ofNat (n % 64 + 128)) = n % 64 := by
    have hn := toNat (n := n % 64 + 128) (by omega)
    rw [tail_iff, bits, hn]
    omega
  by_cases h1 : v ≤ 127
  · have ha := toNat (n := v) (by omega)
    refine ⟨_, [], if_pos h1, fun rest => ?_⟩
    rw [sequence_one _ (by omega), ha, hc]
    rfl
  by_cases h2 : v ≤ 2047
  · have ha := toNat (n := v / 64 % 32 + 192) (by omega)
    have hx : (v / 64 % 32 + 192) % 32 * 64 + v % 64 = v := by omega
    refine ⟨_, [_], by rw [if_neg h1, if_pos h2], fun rest => ?_⟩
    rw [List.singleton_append, sequence_two _ (by omega) (by omega) (tail v).1, ha,
      (tail v).2, hx, hc]
    rfl
  by_cases h3 : v ≤ 65535
  · have ha := toNat (n := v / 4096 % 16 + 224) (by omega)
    have hb := toNat (n := v / 64 % 64 + 128) (by omega)
    have hx : (v / 4096 % 16 + 224) % 16 * 4096 + v / 64 % 64 * 64 + v % 64 = v := by omega
    have hs : second (UInt8.ofNat (v / 4096 % 16 + 224)) (UInt8.ofNat (v / 64 % 64 + 128)) = true := by
      apply second_of_toNat <;> omega
    refine ⟨_, [_, _], by rw [if_neg h1, if_neg h2, if_pos h3], fun rest => ?_⟩
    rw [List.cons_append, List.singleton_append, sequence_three _ (by omega) (by omega) hs (tail v).1,
      ha, (tail v).2, (tail (v / 64)).2, hx, hc]
    rfl
  · have ha := toNat (n := v / 262144 % 8 + 240) (by omega)
    have hb := toNat (n := v / 4096 % 64 + 128) (by omega)
    have hx : (v / 262144 % 8 + 240) % 8 * 262144 + v / 4096 % 64 * 4096 + v / 64 % 64 * 64 + v % 64
      = v := by omega
    have hs : second (UInt8.ofNat (v / 262144 % 8 + 240)) (UInt8.ofNat (v / 4096 % 64 + 128)) = true := by
      apply second_of_toNat <;> omega
    refine ⟨_, [_, _, _], by rw [if_neg h1, if_neg h2, if_neg h3], fun rest => ?_⟩
    rw [List.cons_append, List.cons_append, List.singleton_append,
      sequence_four _ (by omega) (by omega) hs (tail (v / 64)).1 (tail v).1,
      ha, (tail v).2, (tail (v / 64)).2, (tail (v / 4096)).2, hx, hc]
    rfl

/-! ### Bytes that spell a character -/

/-- What a lead byte allows the byte after it to be. -/
theorem second_iff (lead b : UInt8) : second lead b = true ↔ (128 ≤ b.toNat ∧ b.toNat ≤ 191) ∧
    (lead.toNat = 224 → 160 ≤ b.toNat) ∧ (lead.toNat = 237 → b.toNat ≤ 159) ∧
    (lead.toNat = 240 → 144 ≤ b.toNat) ∧ (lead.toNat = 244 → b.toNat ≤ 143) := by
  constructor
  · unfold second secondRange
    repeat' split
    all_goals
      simp only [← UInt8.toNat_inj, UInt8.le_iff_toNat_le, UInt8.reduceToNat, Bool.and_eq_true,
        decide_eq_true_eq] at *
      omega
  · rintro ⟨hb, hE0, hED, hF0, hF4⟩
    exact second_of_toNat hb hE0 hED hF0 hF4

theorem ofNat_eq_of_mod {n : Nat} (b : UInt8) (h : n % 256 = b.toNat) : UInt8.ofNat n = b :=
  UInt8.toNat_inj.mp (by rw [UInt8.toNat_ofNat', ← h])

section Spelling

variable {a b c d : UInt8}

theorem val_ofNat {v : Nat} (hv : v.isValidChar) : (Char.ofNat v).val.toNat = v := by
  rw [Char.ofNat, dif_pos hv]
  rfl

theorem spelled_one (ha : a.toNat < 128) : String.utf8EncodeChar (Char.ofNat a.toNat) = [a] := by
  have hv : a.toNat.isValidChar := .inl (by omega)
  rw [String.utf8EncodeChar, val_ofNat hv, if_pos (by omega), ofNat_eq_of_mod a (by omega)]

theorem spelled_two (ha : 194 ≤ a.toNat) (ha' : a.toNat < 224) (hb : tail b = true) :
    String.utf8EncodeChar (Char.ofNat (a.toNat % 32 * 64 + bits b)) = [a, b] := by
  rw [tail_iff] at hb
  rw [bits]
  generalize hx : a.toNat % 32 * 64 + b.toNat % 64 = v
  have hv : v.isValidChar := .inl (by omega)
  rw [String.utf8EncodeChar, val_ofNat hv, if_neg (by omega), if_pos (by omega),
    ofNat_eq_of_mod a (by omega), ofNat_eq_of_mod b (by omega)]

theorem spelled_three (ha : 224 ≤ a.toNat) (ha' : a.toNat < 240) (hb : second a b = true)
    (hc : tail c = true) :
    String.utf8EncodeChar (Char.ofNat (a.toNat % 16 * 4096 + bits b * 64 + bits c)) = [a, b, c] := by
  rw [tail_iff] at hc
  obtain ⟨hb, hE0, hED, -, -⟩ := (second_iff a b).mp hb
  rw [bits, bits]
  generalize hx : a.toNat % 16 * 4096 + b.toNat % 64 * 64 + c.toNat % 64 = v
  have hv : v.isValidChar := by
    simp only [Nat.isValidChar]
    omega
  rw [String.utf8EncodeChar, val_ofNat hv, if_neg (by omega), if_neg (by omega), if_pos (by omega),
    ofNat_eq_of_mod a (by omega), ofNat_eq_of_mod b (by omega), ofNat_eq_of_mod c (by omega)]

theorem spelled_four (ha : 240 ≤ a.toNat) (ha' : a.toNat < 245) (hb : second a b = true)
    (hc : tail c = true) (hd : tail d = true) :
    String.utf8EncodeChar
      (Char.ofNat (a.toNat % 8 * 262144 + bits b * 4096 + bits c * 64 + bits d)) = [a, b, c, d] := by
  rw [tail_iff] at hc hd
  obtain ⟨hb, -, -, hF0, hF4⟩ := (second_iff a b).mp hb
  rw [bits, bits, bits]
  generalize hx : a.toNat % 8 * 262144 + b.toNat % 64 * 4096 + c.toNat % 64 * 64 + d.toNat % 64 = v
  have hv : v.isValidChar := by
    simp only [Nat.isValidChar]
    omega
  rw [String.utf8EncodeChar, val_ofNat hv, if_neg (by omega), if_neg (by omega), if_neg (by omega),
    ofNat_eq_of_mod a (by omega), ofNat_eq_of_mod b (by omega), ofNat_eq_of_mod c (by omega),
    ofNat_eq_of_mod d (by omega)]

end Spelling

/-- What is read as a character is spelled by that character. -/
theorem spelled_of_sequence {lead : UInt8} {rest : Bytes} {c : Char} {n : Nat}
    (h : sequence lead rest = .char c n) :
    ∃ cont more, rest = cont ++ more ∧ cont.length = n ∧ String.utf8EncodeChar c = lead :: cont := by
  have hlt (a n : UInt8) : ¬ a < n → n.toNat ≤ a.toNat := fun h => by
    rw [UInt8.lt_iff_toNat_lt] at h
    omega
  rw [sequence.eq_def] at h
  split at h
  · next h1 =>
    cases h
    exact ⟨[], rest, rfl, rfl, spelled_one h1⟩
  next h1 =>
  split at h
  · cases h
  next h2 =>
  split at h
  · next h3 =>
    split at h
    · cases h
    next b more =>
    split at h
    · next hb =>
      cases h
      exact ⟨[b], more, rfl, rfl, spelled_two (hlt _ _ h2) h3 hb⟩
    · cases h
  next h3 =>
  split at h
  · next h4 =>
    split at h
    · cases h
    next b more =>
    split at h
    · next hb =>
      split at h
      · cases h
      next c' more =>
      split at h
      · next hc =>
        cases h
        exact ⟨[b, c'], more, rfl, rfl, spelled_three (hlt _ _ h3) h4 hb hc⟩
      · cases h
    · cases h
  next h4 =>
  split at h
  · next h5 =>
    split at h
    · cases h
    next b more =>
    split at h
    · next hb =>
      split at h
      · cases h
      next c' more =>
      split at h
      · next hc =>
        split at h
        · cases h
        next d more =>
        split at h
        · next hd =>
          cases h
          exact ⟨[b, c', d], more, rfl, rfl, spelled_four (hlt _ _ h4) h5 hb hc hd⟩
        · cases h
      · cases h
    · cases h
  · cases h

/-! ### Texts -/

/-- The bytes that are left of a character are passed over. -/
theorem decodeFrom_skip (cont rest : Bytes) (acc : List Char) (pos : Nat) :
    decodeFrom pos cont.length acc (cont ++ rest) = decodeFrom (pos + cont.length) 0 acc rest := by
  induction cont generalizing pos with
  | nil => rfl
  | cons b cont ih =>
    rw [List.cons_append, List.length_cons, decodeFrom, ih, Nat.add_right_comm, Nat.add_assoc]

theorem decodeFrom_encode (l : List Char) (acc : List Char) (pos : Nat) :
    decodeFrom pos 0 acc (l.flatMap String.utf8EncodeChar) = .ok (acc.reverse ++ l) := by
  induction l generalizing acc pos with
  | nil => rw [List.flatMap_nil, decodeFrom, List.append_nil]
  | cons c l ih =>
    obtain ⟨lead, cont, hc, hs⟩ := sequence_encode c
    rw [List.flatMap_cons, hc, List.cons_append, decodeFrom, hs]
    simp only [decodeFrom_skip, ih, List.reverse_cons, List.append_assoc, List.singleton_append]

theorem decode_encode (s : String) : decode (encode s) = .ok s := by
  rw [decode, encode, decodeFrom_encode]
  exact congrArg Except.ok String.ofList_toList

@[simp] theorem decode?_encode (s : String) : decode? (encode s) = some s := by
  rw [decode?, decode_encode]
  rfl

/-- Bytes that are read as characters are the bytes of those characters. -/
theorem decodeFrom_ok {pos : Nat} {acc l : List Char} {b : Bytes}
    (h : decodeFrom pos 0 acc b = .ok l) :
    ∃ l', l = acc.reverse ++ l' ∧ l'.flatMap String.utf8EncodeChar = b := by
  induction hn : b.length using Nat.strongRecOn generalizing pos acc b with
  | ind n ih =>
    cases b with
    | nil =>
      cases h
      exact ⟨[], (List.append_nil _).symm, rfl⟩
    | cons lead rest =>
      rw [decodeFrom] at h
      split at h
      · next c n' hs =>
        obtain ⟨cont, more, rfl, rfl, hc⟩ := spelled_of_sequence hs
        rw [decodeFrom_skip] at h
        obtain ⟨l', rfl, rfl⟩ := ih _ (by simp only [← hn, List.length_cons, List.length_append]; omega) h rfl
        refine ⟨c :: l', by simp, ?_⟩
        rw [List.flatMap_cons, hc, List.cons_append]
      · cases h
      · cases h

theorem encode_of_decode {b : Bytes} {s : String} (h : decode b = .ok s) : encode s = b := by
  rw [decode] at h
  cases hd : decodeFrom 0 0 [] b with
  | error f => rw [hd] at h; cases h
  | ok l =>
    rw [hd] at h
    cases h
    obtain ⟨l', rfl, hb⟩ := decodeFrom_ok hd
    rw [encode, String.toList_ofList]
    exact hb

/-- A text is read from its own bytes only. -/
theorem decode_eq_ok_iff {b : Bytes} {s : String} : decode b = .ok s ↔ encode s = b :=
  ⟨encode_of_decode, fun h => h ▸ decode_encode s⟩

/-- Reading fails exactly where the bytes are not those of a text. -/
theorem decode_error_iff {b : Bytes} : (∃ f, decode b = .error f) ↔ ¬ b.toByteArray.IsValidUTF8 := by
  constructor
  · rintro ⟨f, hf⟩ ⟨l, hl⟩
    have hb : b = encode (String.ofList l) := by
      rw [encode, String.toList_ofList]
      exact List.toByteArray_inj.mp hl
    rw [hb, decode_encode] at hf
    cases hf
  · intro hn
    cases hd : decode b with
    | error f => exact ⟨f, rfl⟩
    | ok s => exact absurd ⟨s.toList, congrArg _ (encode_of_decode hd).symm⟩ hn

/-! ### Order -/

theorem cons_ofNat_lt {a b : Nat} {s t : Bytes} : UInt8.ofNat a :: s < UInt8.ofNat b :: t ↔
    a % 256 < b % 256 ∨ a % 256 = b % 256 ∧ s < t := by
  rw [List.cons_lt_cons_iff, UInt8.lt_iff_toNat_lt, ← UInt8.toNat_inj, UInt8.toNat_ofNat',
    UInt8.toNat_ofNat']

/-- The bytes of characters are in the order of the characters, whatever follows them. -/
theorem utf8EncodeChar_lt {c d : Char} (h : c < d) (r r' : Bytes) :
    String.utf8EncodeChar c ++ r < String.utf8EncodeChar d ++ r' := by
  have hlt : c.val.toNat < d.val.toNat := h
  have hd : d.val.toNat < 1114112 := by
    have hv : d.val.toNat.isValidChar := d.valid
    simp only [Nat.isValidChar] at hv
    omega
  rw [String.utf8EncodeChar, String.utf8EncodeChar]
  generalize c.val.toNat = v at hlt ⊢
  generalize d.val.toNat = w at hlt hd ⊢
  have hv : v / 4096 = v / 64 / 64 ∧ v / 262144 = v / 64 / 64 / 64 := by omega
  have hw : w / 4096 = w / 64 / 64 ∧ w / 262144 = w / 64 / 64 / 64 := by omega
  -- what `omega` does not find by itself: the numbers are compared digit by digit, in base 64
  have hdigit (x y : Nat) (h : x < y) : x / 64 < y / 64 ∨ x / 64 = y / 64 ∧ x % 64 < y % 64 := by omega
  have h₁ := hdigit v w hlt
  have h₂ := hdigit (v / 64) (w / 64)
  have h₃ := hdigit (v / 64 / 64) (w / 64 / 64)
  have hfew : v / 64 / 64 / 64 % 8 = v / 64 / 64 / 64 ∧ w / 64 / 64 / 64 % 8 = w / 64 / 64 / 64 := by omega
  have h64 (x : Nat) : (x % 64 + 128) % 256 = x % 64 + 128 := by omega
  have h32 (x : Nat) : (x % 32 + 192) % 256 = x % 32 + 192 := by omega
  have h16 (x : Nat) : (x % 16 + 224) % 256 = x % 16 + 224 := by omega
  have h8 (x : Nat) : (x % 8 + 240) % 256 = x % 8 + 240 := by omega
  repeat' split
  all_goals
    simp only [List.cons_append, List.nil_append, cons_ofNat_lt, h64, h32, h16, h8, hv, hw]
    omega

theorem flatMap_lt_of_lt {l l' : List Char} (h : l < l') :
    l.flatMap String.utf8EncodeChar < l'.flatMap String.utf8EncodeChar := by
  induction l generalizing l' with
  | nil =>
    cases l' with
    | nil => exact absurd h (List.lt_irrefl [])
    | cons d l' =>
      obtain ⟨lead, cont, hd, -⟩ := sequence_encode d
      rw [List.flatMap_nil, List.flatMap_cons, hd]
      exact List.nil_lt_cons ..
  | cons c l ih =>
    cases l' with
    | nil => exact absurd h (List.not_lt_nil _)
    | cons d l' =>
      rw [List.flatMap_cons, List.flatMap_cons]
      rcases List.cons_lt_cons_iff.mp h with hlt | ⟨rfl, hlt⟩
      · exact utf8EncodeChar_lt hlt _ _
      · exact List.append_left_lt (ih hlt)

/-- Texts are in the order of their bytes. -/
theorem encode_lt_encode {s t : String} : encode s < encode t ↔ s < t := by
  constructor
  · intro h
    rcases Std.lt_trichotomy s t with hlt | rfl | hgt
    · exact hlt
    · exact absurd h (List.lt_irrefl _)
    · exact absurd h (List.lt_asymm (flatMap_lt_of_lt (String.lt_iff.mp hgt)))
  · exact fun h => flatMap_lt_of_lt (String.lt_iff.mp h)

end StreamWorker.Utf8
