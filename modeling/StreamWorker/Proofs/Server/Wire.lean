import Mathlib
import StreamWorker.Proofs.Text.Utf8
import StreamWorker.Server.Wire

/-! Replies that arrive whole. `Carries` describes the bytes by which a server sends texts, lists and
nothing at all; a text and a list tell their length beforehand, so that what is inside them is never
looked at to find their end. Whatever is sent so is read back as the reply that it is, and what comes
after it is left over. Refusals, numbers and one-line texts, which no read of entries is answered with,
are left out. -/

namespace StreamWorker.Server.Wire

/-! ### Lengths -/

theorem toNat_of_mem_digit {c : Char} (hc : c.isDigit) {b : UInt8}
    (hb : b ∈ String.utf8EncodeChar c) : 48 ≤ b.toNat := by
  have hlow : 48 ≤ c.val.toNat := (Char.isDigit_iff_toNat.mp hc).1
  have hhigh : c.val.toNat ≤ 57 := (Char.isDigit_iff_toNat.mp hc).2
  have h127 : c.val.toNat ≤ 127 := by omega
  simp only [String.utf8EncodeChar, if_pos h127, List.mem_singleton] at hb
  rw [hb, UInt8.toNat_ofNat_of_lt' (show c.val.toNat < 256 by omega)]
  exact hlow

/-- A numeral holds no byte that could end its line. -/
theorem no_return_in_numeral (n : Nat) : ∀ b ∈ Utf8.encode (toString n), b ≠ 13 := by
  intro b hb
  obtain ⟨c, hc, hb⟩ := List.mem_flatMap.mp hb
  have hdigit : c.isDigit := by
    refine Nat.isDigit_of_mem_toDigits (b := 10) (n := n) (by decide) (by decide) ?_
    rwa [← Nat.toList_repr]
  have h48 := toNat_of_mem_digit hdigit hb
  rintro rfl
  exact absurd h48 (by decide)

theorem line?_of_no_return {l : Bytes} (h : ∀ b ∈ l, b ≠ 13) (rest : Bytes) :
    line? (l ++ (lineEnd ++ rest)) = some (l, rest) := by
  induction l with
  | nil => rfl
  | cons b l ih =>
    have hb : b ≠ 13 := h b List.mem_cons_self
    rw [List.cons_append, line?, ih fun x hx => h x (List.mem_cons_of_mem _ hx)]
    · rfl
    · rintro _ rfl
      exact absurd rfl hb

theorem whole?_numeral (n : Nat) : whole? (Utf8.encode (toString n)) = some (n : Int) := by
  rw [whole?, Utf8.decode?_encode]
  exact Int.toInt?_repr n

/-- Where a text or a list would tell its length, this tells that there is none. -/
def noLength : Bytes := Utf8.encode "-1" ++ lineEnd

theorem whole?_minus_one : whole? (Utf8.encode "-1") = some (-1) := by
  rw [whole?, Utf8.decode?_encode]
  exact Int.toInt?_repr (-1)

theorem line?_noLength (rest : Bytes) : line? (noLength ++ rest) = some (Utf8.encode "-1", rest) := by
  rw [noLength, List.append_assoc]
  exact line?_of_no_return (by decide +kernel) rest

theorem header_append (mark : Char) (n : Nat) (s rest : Bytes) : header mark n ++ s ++ rest =
    code mark :: (Utf8.encode (toString n) ++ lineEnd ++ (s ++ rest)) := by
  simp [header]

theorem line?_numeral (n : Nat) (rest : Bytes) :
    line? (Utf8.encode (toString n) ++ lineEnd ++ rest) = some (Utf8.encode (toString n), rest) := by
  rw [List.append_assoc]
  exact line?_of_no_return (no_return_in_numeral n) rest

/-! ### Replies -/

mutual

/-- The bytes by which a server sends a reply that is made of texts, lists and nothing. -/
inductive Carries : Bytes → Reply → Prop
  | noText : Carries (code '$' :: noLength) .nil
  | noList : Carries (code '*' :: noLength) .nil
  | text (b : Bytes) : Carries (header '$' b.length ++ (b ++ lineEnd)) (.bulk b)
  | list {s : Bytes} {items : List Reply} (h : CarriesAll s items) :
      Carries (header '*' items.length ++ s) (.array items)

/-- The bytes of several replies, one after another. -/
inductive CarriesAll : Bytes → List Reply → Prop
  | nil : CarriesAll [] []
  | cons {s rest : Bytes} {r : Reply} {rs : List Reply} (h : Carries s r) (hs : CarriesAll rest rs) :
      CarriesAll (s ++ rest) (r :: rs)

end

theorem Carries.length_pos {s : Bytes} {r : Reply} (h : Carries s r) : 0 < s.length := by
  cases h <;> simp [header]

section Marks

variable {s l rest : Bytes} (h : line? s = some (l, rest)) (fuel : Nat)
include h

theorem readReply_text : readReply (fuel + 1) (code '$' :: s) = bulk l rest := by
  rw [readReply, h]
  rfl

theorem readReply_list {n : Nat} (hn : whole? l = some (n : Int)) :
    readReply (fuel + 1) (code '*' :: s) = readItems fuel n [] rest := by
  rw [readReply, h]
  simp only [hn]
  rfl

theorem readReply_noList (hn : whole? l = some (-1)) :
    readReply (fuel + 1) (code '*' :: s) = .reply .nil rest := by
  rw [readReply, h]
  simp only [hn]
  rfl

end Marks

theorem bulk_text (b rest : Bytes) :
    bulk (Utf8.encode (toString b.length)) (b ++ lineEnd ++ rest) = .reply (.bulk b) rest := by
  have hlen : ¬ (b ++ lineEnd ++ rest).length < b.length + 2 := by simp [lineEnd]
  have hend : ((b ++ lineEnd ++ rest).drop b.length).take 2 = lineEnd := by simp [lineEnd]
  have htext : (b ++ lineEnd ++ rest).take b.length = b := by simp
  have hrest : (b ++ lineEnd ++ rest).drop (b.length + 2) = rest := by simp [lineEnd]
  rw [bulk, whole?_numeral]
  simp only [hlen, hend, htext, hrest, if_false, if_true]

mutual

/-- A reply is read back from its bytes, and no more than its bytes are used up. The fuel is enough
because every part of a list is shorter than the list by more than its header. -/
theorem readReply_carries {s : Bytes} {r : Reply} {fuel : Nat} (rest : Bytes)
    (h : Carries s r) (hf : 2 * s.length ≤ fuel) : readReply fuel (s ++ rest) = .reply r rest := by
  match fuel, h with
  | 0, h => have := h.length_pos; omega
  | fuel + 1, .noText =>
    rw [List.cons_append, readReply_text (line?_noLength rest), bulk, whole?_minus_one]
    rfl
  | fuel + 1, .noList =>
    rw [List.cons_append, readReply_noList (line?_noLength rest) fuel whole?_minus_one]
  | fuel + 1, .text b =>
    rw [header_append, readReply_text (line?_numeral b.length _), bulk_text]
  | fuel + 1, @Carries.list s items h =>
    have hs : 2 * s.length < fuel := by
      simp only [header, List.length_cons, List.length_append, lineEnd] at hf
      omega
    rw [header_append, readReply_list (line?_numeral items.length _) fuel (whole?_numeral _)]
    exact readItems_carries [] rest h hs

theorem readItems_carries {s : Bytes} {rs : List Reply} {fuel : Nat} (before : List Reply)
    (rest : Bytes) (h : CarriesAll s rs) (hf : 2 * s.length < fuel) :
    readItems fuel rs.length before (s ++ rest) = .reply (.array (before.reverse ++ rs)) rest := by
  match fuel, h with
  | fuel + 1, .nil => rw [List.append_nil]; rfl
  | fuel + 1, @CarriesAll.cons s s' r rs h hs =>
    have hpos := h.length_pos
    rw [List.length_append] at hf
    have hr : readReply fuel (s ++ (s' ++ rest)) = .reply r (s' ++ rest) :=
      readReply_carries (s' ++ rest) h (by omega)
    have hrs := readItems_carries (r :: before) rest hs (show 2 * s'.length < fuel by omega)
    rw [List.length_cons, List.append_assoc, readItems, hr]
    simpa using hrs

end

/-- A reply that has arrived is read as what it is, whatever has arrived after it. -/
theorem read_of_carries {s : Bytes} {r : Reply} (h : Carries s r) (rest : Bytes) :
    read (s ++ rest) = .reply r rest :=
  readReply_carries rest h (by rw [List.length_append]; omega)

end StreamWorker.Server.Wire
