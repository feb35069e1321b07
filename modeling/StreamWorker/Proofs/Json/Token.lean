import Std.Data.String.ToNat
import StreamWorker.Json.Token
import StreamWorker.Json.Writer
import StreamWorker.Proofs.Text.Numeral
import StreamWorker.Proofs.Text.Utf8

/-! Words, strings and integers of JSON are read back from the bytes that they are written as, whatever
follows a string, and wherever the digits of an integer end. -/

namespace StreamWorker.Json

/-! ### Bytes -/

/-- The bytes that spell some characters. -/
def bytes (l : List Char) : Bytes := l.flatMap String.utf8EncodeChar

@[simp] theorem bytes_nil : bytes [] = [] := rfl

@[simp] theorem bytes_append (l l' : List Char) : bytes (l ++ l') = bytes l ++ bytes l' :=
  List.flatMap_append

theorem bytes_cons (c : Char) (l : List Char) : bytes (c :: l) = String.utf8EncodeChar c ++ bytes l :=
  List.flatMap_cons

theorem encode_ofList (l : List Char) : Utf8.encode (String.ofList l) = bytes l := by
  rw [Utf8.encode, String.toList_ofList, bytes]

theorem toNat_byte {c : Char} (h : c.toNat < 256) : (byte c).toNat = c.toNat := UInt8.toNat_ofNat_of_lt' h

theorem utf8EncodeChar_ascii {c : Char} (h : c.toNat < 128) : String.utf8EncodeChar c = [byte c] := by
  have h127 : c.val.toNat ≤ 127 := Nat.le_of_lt_succ h
  rw [String.utf8EncodeChar, if_pos h127]
  rfl

/-- A character of seven bits is one byte. -/
theorem bytes_cons_ascii {c : Char} (h : c.toNat < 128) (l : List Char) :
    bytes (c :: l) = byte c :: bytes l := by
  rw [bytes_cons, utf8EncodeChar_ascii h, List.singleton_append]

theorem bytes_ascii {l : List Char} (h : ∀ c ∈ l, c.toNat < 128) : bytes l = l.map byte := by
  induction l with
  | nil => rfl
  | cons c l ih =>
    rw [bytes_cons_ascii (h c List.mem_cons_self), List.map_cons,
      ih fun d hd => h d (List.mem_cons_of_mem _ hd)]

/-! ### Words -/

theorem word_bytes {α : Type} (v : α) (l : List UInt8) (rest : Bytes) :
    word v l (l ++ rest) = .ok (v, rest) := by
  induction l with
  | nil => rfl
  | cons b l ih => rw [List.cons_append, word, if_pos rfl, ih]

/-! ### Strings -/

/-- What is left of an escape or of a character is passed over. -/
theorem stringChars_skip (acc : List Char) (e s : Bytes) :
    stringChars acc e.length (e ++ s) = stringChars acc 0 s := by
  induction e with
  | nil => rfl
  | cons b e ih => rw [List.cons_append, List.length_cons, stringChars, ih]

/-- An escape stands for its character. -/
theorem stringChars_escape {c : Char} {e s r : Bytes} (acc : List Char)
    (he : escape (e ++ s) = .ok (c, r)) (hl : escapeLength (e ++ s).head? c = e.length) :
    stringChars acc 0 (byte '\\' :: (e ++ s)) = stringChars (c :: acc) 0 s := by
  rw [stringChars, if_neg (by decide), if_pos rfl, he]
  dsimp only
  rw [hl, stringChars_skip]

theorem stringChars_letter {c l : Char} (acc : List Char) (s : Bytes) (hu : byte l ≠ byte 'u')
    (hl : letterEscape? (byte l) = some c) :
    stringChars acc 0 (byte '\\' :: byte l :: s) = stringChars (c :: acc) 0 s := by
  refine stringChars_escape (e := [byte l]) (r := s) acc ?_ ?_
  · rw [List.singleton_append, escape, if_neg hu, hl]
  · rw [List.singleton_append, List.head?_cons, escapeLength, if_neg fun h => hu (Option.some.inj h)]
    rfl

theorem hexValue?_nibble (n : Nat) : hexValue? (byte (nibble n)) = some (n % 16) := by
  have h : ∀ m < 16, hexValue? (byte (Nat.digitChar m)) = some m := by decide
  exact h (n % 16) (Nat.mod_lt _ (by decide))

/-- A control character is written by its number. -/
theorem stringChars_control {c : Char} (acc : List Char) (s : Bytes) (hc : c.toNat < 0x20) :
    stringChars acc 0 (byte '\\' :: byte 'u' :: byte '0' :: byte '0' :: byte (nibble (c.toNat / 16)) ::
      byte (nibble c.toNat) :: s) = stringChars (c :: acc) 0 s := by
  have hunit : hexUnit (byte '0' :: byte '0' :: byte (nibble (c.toNat / 16)) :: byte (nibble c.toNat) :: s) =
      .ok (c.toNat, s) := by
    have hzero : hexValue? (byte '0') = some 0 := by decide
    have hvalue : ((0 * 16 + 0) * 16 + c.toNat / 16 % 16) * 16 + c.toNat % 16 = c.toNat := by omega
    rw [hexUnit]
    simp only [hexValue?_nibble, hzero, hvalue]
  refine stringChars_escape (r := s) acc
    (e := [byte 'u', byte '0', byte '0', byte (nibble (c.toNat / 16)), byte (nibble c.toNat)]) ?_ ?_
  · have hlow : ¬ (0xDC00 ≤ c.toNat ∧ c.toNat ≤ 0xDFFF) := by omega
    have hplain : c.toNat < 0xD800 ∨ 0xDFFF < c.toNat := by omega
    simp only [List.cons_append, List.nil_append, escape, if_pos, unicodeEscape, hunit, Bind.bind, Except.bind,
      if_neg hlow, if_pos hplain, Char.ofNat_toNat]
  · have hsmall : c.toNat < 0x10000 := by omega
    simp only [List.cons_append, List.nil_append, List.head?_cons, escapeLength, if_true, if_pos hsmall,
      List.length_cons, List.length_nil]

/-- A byte of a character that is written as it is does not end a string, nor begin an escape. -/
theorem lead_of_plain {c : Char} {lead : UInt8} {cont : Bytes} (hc : String.utf8EncodeChar c = lead :: cont)
    {d : Char} (hd : d.toNat < 128) (hne : c ≠ d) : lead ≠ byte d := by
  rintro rfl
  obtain ⟨lead', cont', hc', hs⟩ := Utf8.sequence_encode c
  obtain ⟨rfl, rfl⟩ := List.cons.inj (hc.symm.trans hc')
  have hlow : (byte d).toNat < 128 := by rw [toNat_byte (by omega)]; exact hd
  have hone := (Utf8.sequence_one _ hlow).symm.trans (hs [])
  rw [toNat_byte (by omega), Char.ofNat_toNat] at hone
  exact hne (Utf8.Sequence.char.inj hone).1.symm

/-- A character that is written as it is. -/
theorem stringChars_plain {c : Char} (acc : List Char) (s : Bytes) (hq : c ≠ '"') (hb : c ≠ '\\')
    (hc : ¬ c.toNat < 0x20) :
    stringChars acc 0 (String.utf8EncodeChar c ++ s) = stringChars (c :: acc) 0 s := by
  obtain ⟨lead, cont, hcode, hs⟩ := Utf8.sequence_encode c
  have hcontrol : ¬ lead < 0x20 := fun hlt => by
    have hlow : lead.toNat < 0x20 := UInt8.lt_iff_toNat_lt.mp hlt
    have hone := (Utf8.sequence_one _ (by omega)).symm.trans (hs [])
    have hall : ∀ n < 0x20, (Char.ofNat n).toNat < 0x20 := by decide
    exact hc ((Utf8.Sequence.char.inj hone).1 ▸ hall _ hlow)
  rw [hcode, List.cons_append, stringChars, if_neg (lead_of_plain hcode (by decide) hq),
    if_neg (lead_of_plain hcode (by decide) hb), if_neg hcontrol, hs]
  exact stringChars_skip _ cont s

/-- Every character is read as it was written. -/
theorem stringChars_char (acc : List Char) (c : Char) (s : Bytes) :
    stringChars acc 0 (bytes (stringChar c) ++ s) = stringChars (c :: acc) 0 s := by
  have hletter (l : Char) (hl : l.toNat < 128) (hu : byte l ≠ byte 'u')
      (he : letterEscape? (byte l) = some c) :
      stringChars acc 0 (bytes ['\\', l] ++ s) = stringChars (c :: acc) 0 s := by
    rw [bytes_cons_ascii (by decide), bytes_cons_ascii hl]
    exact stringChars_letter acc s hu he
  have hcode {n : Nat} (h : c.toNat = n) : c = Char.ofNat n := by rw [← h, Char.ofNat_toNat]
  unfold stringChar
  split
  · next h => subst h; exact hletter '"' (by decide) (by decide) (by decide)
  split
  · next h => subst h; exact hletter '\\' (by decide) (by decide) (by decide)
  split
  · next h => rw [hcode h] at hletter ⊢; exact hletter 'b' (by decide) (by decide) (by decide)
  split
  · next h => rw [hcode h] at hletter ⊢; exact hletter 't' (by decide) (by decide) (by decide)
  split
  · next h => rw [hcode h] at hletter ⊢; exact hletter 'n' (by decide) (by decide) (by decide)
  split
  · next h => rw [hcode h] at hletter ⊢; exact hletter 'f' (by decide) (by decide) (by decide)
  split
  · next h => rw [hcode h] at hletter ⊢; exact hletter 'r' (by decide) (by decide) (by decide)
  split
  · next h =>
    have hnibble (n : Nat) : (nibble n).toNat < 128 := by
      have hall : ∀ m < 16, (Nat.digitChar m).toNat < 128 := by decide
      exact hall (n % 16) (Nat.mod_lt _ (by decide))
    rw [bytes_ascii (by simp [hnibble])]
    exact stringChars_control acc s h
  · next hq hb _ _ _ _ _ hc =>
    rw [bytes_cons, bytes_nil, List.append_nil]
    exact stringChars_plain acc s hq hb hc

theorem stringChars_text (l acc : List Char) (rest : Bytes) :
    stringChars acc 0 (bytes (l.flatMap stringChar) ++ byte '"' :: rest) =
      .ok (String.ofList (acc.reverse ++ l), rest) := by
  induction l generalizing acc with
  | nil => rw [List.flatMap_nil, bytes_nil, List.nil_append, stringChars, if_pos rfl, List.append_nil]
  | cons c l ih =>
    rw [List.flatMap_cons, bytes_append, List.append_assoc, stringChars_char, ih, List.reverse_cons,
      List.append_assoc, List.singleton_append]

/-- A string is read back from what is written after its opening quote. -/
theorem string_text (s : String) (rest : Bytes) :
    ∃ tail, bytes (stringText s) ++ rest = byte '"' :: tail ∧ string tail = .ok (s, rest) := by
  refine ⟨bytes (s.toList.flatMap stringChar) ++ byte '"' :: rest, ?_, ?_⟩
  · rw [stringText, List.cons_append, bytes_cons_ascii (by decide), bytes_append,
      bytes_cons_ascii (by decide), bytes_nil, List.cons_append, List.append_assoc, List.singleton_append]
  · rw [string, stringChars_text, List.reverse_nil, List.nil_append, String.ofList_toList]

/-! ### Integers -/

theorem isDigit_byte {c : Char} (h : c.isDigit = true) :
    isDigit (byte c) = true ∧ digitValue (byte c) = c.toNat - '0'.toNat := by
  obtain ⟨hlow, hhigh⟩ : 48 ≤ c.toNat ∧ c.toNat ≤ 57 := Char.isDigit_iff_toNat.mp h
  have hb := toNat_byte (c := c) (by omega)
  constructor
  · simp only [isDigit, Bool.and_eq_true, decide_eq_true_eq, UInt8.le_iff_toNat_le, hb]
    exact ⟨hlow, hhigh⟩
  · rw [digitValue, hb]
    rfl

theorem toNat_lt_of_isDigit {c : Char} (h : c.isDigit = true) : c.toNat < 128 := by
  have hhigh : c.toNat ≤ 57 := (Char.isDigit_iff_toNat.mp h).2
  omega

/-- Digits of a number that fits are all taken. -/
theorem absorb_digits {ds : List Char} (hd : ∀ c ∈ ds, c.isDigit = true) {n : Nat}
    (h : Nat.ofDigitChars 10 ds n < UInt64.size) :
    absorb n (ds.map byte) = (Nat.ofDigitChars 10 ds n, 0) := by
  induction ds generalizing n with
  | nil => rfl
  | cons c ds ih =>
    have hc := (isDigit_byte (hd c List.mem_cons_self)).2
    have hle := Numeral.le_ofDigitChars ds (10 * n + (c.toNat - '0'.toNat))
    have hcons : Nat.ofDigitChars 10 (c :: ds) n =
      Nat.ofDigitChars 10 ds (10 * n + (c.toNat - '0'.toNat)) := rfl
    rw [hcons] at h ⊢
    rw [List.map_cons, absorb, hc, Nat.mul_comm, if_pos (Nat.lt_of_le_of_lt hle h)]
    exact ih (fun d hd' => hd d (List.mem_cons_of_mem _ hd')) h

/-- No digit, point or exponent follows. -/
def Ends (rest : Bytes) : Prop :=
  ∀ b ∈ rest.head?, isDigit b = false ∧ b ≠ byte '.' ∧ isExponentMark b = false

theorem span_digits {ds : List Char} (hd : ∀ c ∈ ds, c.isDigit = true) {rest : Bytes} (h : Ends rest) :
    (ds.map byte ++ rest).takeWhile isDigit = ds.map byte ∧
      (ds.map byte ++ rest).dropWhile isDigit = rest := by
  have hmap : ∀ b ∈ ds.map byte, isDigit b = true := fun b hb => by
    obtain ⟨c, hc, rfl⟩ := List.mem_map.mp hb
    exact (isDigit_byte (hd c hc)).1
  rw [List.takeWhile_append_of_pos hmap, List.dropWhile_append_of_pos hmap]
  cases rest with
  | nil => exact ⟨List.append_nil _, rfl⟩
  | cons b rest =>
    have hb : ¬ isDigit b = true := by simp [(h b rfl).1]
    rw [List.takeWhile_cons_of_neg hb, List.dropWhile_cons_of_neg hb]
    exact ⟨List.append_nil _, rfl⟩

/-- Digits without a leading zero are a whole number if it fits and they end there. -/
theorem number_digits {c : Char} {ds : List Char} (hd : ∀ x ∈ c :: ds, x.isDigit = true)
    (hzero : c = '0' → ds = []) {rest : Bytes} (h : Ends rest) (negative : Bool)
    (hfit : Nat.ofDigitChars 10 (c :: ds) 0 < UInt64.size) :
    number negative ((c :: ds).map byte ++ rest) =
      .ok (wholeNumber negative (Nat.ofDigitChars 10 (c :: ds) 0), rest) := by
  have hfirst : isDigit (byte c) = true := (isDigit_byte (hd c List.mem_cons_self)).1
  have hlead : ¬ (byte c = byte '0' ∧ ((ds.map byte ++ rest).head?.map isDigit).getD false = true) := by
    rintro ⟨hc, hnext⟩
    have hcode := congrArg UInt8.toNat hc
    have hsmall := toNat_lt_of_isDigit (hd c List.mem_cons_self)
    rw [toNat_byte (by omega), toNat_byte (by decide)] at hcode
    rw [hzero (Char.toNat_inj.mp hcode), List.map_nil, List.nil_append] at hnext
    cases rest with
    | nil => cases hnext
    | cons b rest => simp [(h b rfl).1] at hnext
  obtain ⟨htake, hdrop⟩ := span_digits hd h
  rw [List.map_cons, List.cons_append] at htake hdrop ⊢
  rw [number, if_neg (not_not_intro hfirst), if_neg hlead]
  simp only [htake, hdrop]
  rw [← List.map_cons, absorb_digits hd hfit]
  cases rest with
  | nil => rfl
  | cons b rest =>
    obtain ⟨-, hpoint, hmark⟩ := h b rfl
    simp only [if_neg hpoint, hmark]
    rfl

/-- Only the numeral of zero begins with a zero. -/
theorem eq_zero_of_toDigits {n : Nat} {ds : List Char} (h : Nat.toDigits 10 n = '0' :: ds) : n = 0 := by
  induction n using Nat.strongRecOn generalizing ds with
  | ind n ih =>
    rcases Nat.lt_or_ge n 10 with hlt | hge
    · rw [Nat.toDigits_of_lt_base hlt] at h
      have hall : ∀ m < 10, Nat.digitChar m = '0' → m = 0 := by decide
      exact hall n hlt (List.cons.inj h).1
    · rw [Nat.toDigits_of_base_le (by decide) hge] at h
      cases hd : Nat.toDigits 10 (n / 10) with
      | nil => exact absurd hd Nat.toDigits_ne_nil
      | cons c cs =>
        rw [hd, List.cons_append] at h
        rw [(List.cons.inj h).1] at hd
        have := ih (n / 10) (by omega) hd
        omega

/-- A natural number is read back from its digits, wherever they end. -/
theorem number_toDigits {n : Nat} (hn : n < UInt64.size) {rest : Bytes} (h : Ends rest) (negative : Bool) :
    ∃ b tail, bytes (Nat.toDigits 10 n) ++ rest = b :: tail ∧ isDigit b = true ∧
      number negative (b :: tail) = .ok (wholeNumber negative n, rest) := by
  have hd : ∀ c ∈ Nat.toDigits 10 n, c.isDigit = true := fun c hc =>
    Nat.isDigit_of_mem_toDigits (by decide) (by decide) hc
  have hvalue : Nat.ofDigitChars 10 (Nat.toDigits 10 n) 0 = n :=
    Nat.ofDigitChars_toDigits (by decide) (by decide)
  rw [bytes_ascii fun c hc => toNat_lt_of_isDigit (hd c hc)]
  cases hds : Nat.toDigits 10 n with
  | nil => exact absurd hds Nat.toDigits_ne_nil
  | cons c ds =>
    rw [hds] at hd hvalue
    have hzero (hc : c = '0') : ds = [] := by
      have hn0 : n = 0 := eq_zero_of_toDigits (hc ▸ hds)
      rw [hn0, Nat.toDigits_of_lt_base (by decide)] at hds
      exact (List.cons.inj hds).2.symm
    refine ⟨byte c, ds.map byte ++ rest, rfl, (isDigit_byte (hd c List.mem_cons_self)).1, ?_⟩
    have hnumber := number_digits hd hzero h negative (by rw [hvalue]; exact hn)
    rw [hvalue] at hnumber
    exact hnumber

/-- The integers that are kept exactly. -/
def Fits (i : Int) : Prop := -(UInt64.size / 2 : Nat) ≤ i ∧ i < UInt64.size

/-- An integer is read back from what it is written as, wherever that ends. -/
theorem number_integerText {i : Int} (hi : Fits i) {rest : Bytes} (h : Ends rest) :
    (∃ tail, bytes (integerText i) ++ rest = byte '-' :: tail ∧
        number true tail = .ok (.integer i, rest)) ∨
      ∃ b tail, bytes (integerText i) ++ rest = b :: tail ∧ isDigit b = true ∧
        number false (b :: tail) = .ok (.integer i, rest) := by
  obtain ⟨hlow, hhigh⟩ := hi
  have hsize : UInt64.size = 2 ^ 64 := rfl
  have hfit : i.natAbs < UInt64.size := by omega
  rw [integerText]
  split
  · next hneg =>
    obtain ⟨b, tail, hb, -, hnumber⟩ := number_toDigits hfit h true
    refine .inl ⟨b :: tail, ?_, ?_⟩
    · rw [bytes_cons_ascii (by decide), List.cons_append, hb]
    · rw [hnumber, wholeNumber, if_pos rfl, if_pos (by omega), Int.ofNat_natAbs_of_nonpos (by omega),
        Int.neg_neg]
  · next hpos =>
    obtain ⟨b, tail, hb, hdigit, hnumber⟩ := number_toDigits hfit h false
    refine .inr ⟨b, tail, hb, hdigit, ?_⟩
    rw [hnumber, wholeNumber, if_neg (by decide), Int.natAbs_of_nonneg (by omega)]

end StreamWorker.Json
