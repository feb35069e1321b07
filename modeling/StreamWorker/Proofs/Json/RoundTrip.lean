import StreamWorker.Proofs.Json.Reader
import StreamWorker.Proofs.Json.Token

/-! Documents whose text spells them. The text of a value with integers only, and with the members of
every object by increasing name, is read back as that value, as long as it does not nest too deep. The
proof follows the value; lists and objects come down to texts with commas between them. -/

namespace StreamWorker.Json

/-- A value that its own text spells, with at most `depth` brackets around one another. -/
inductive Value.Canonical : Nat → Value → Prop where
  | null {depth : Nat} : Canonical depth .null
  | bool {depth : Nat} (b : Bool) : Canonical depth (.bool b)
  | integer {depth : Nat} {i : Int} : Fits i → Canonical depth (.number (.integer i))
  | string {depth : Nat} (s : String) : Canonical depth (.string s)
  | array {depth : Nat} {items : List Value} : (∀ v ∈ items, Canonical depth v) →
    Canonical (depth + 1) (.array items)
  | object {depth : Nat} {members : List (String × Value)} : (∀ m ∈ members, Canonical depth m.2) →
    members.Pairwise (fun m m' => Utf8.encode m.1 < Utf8.encode m'.1) →
    Canonical (depth + 1) (.object members)

/-! ### First bytes -/

theorem skipBlanks_cons {b : UInt8} (h : isBlank b = false) (s : Bytes) : skipBlanks (b :: s) = b :: s :=
  List.dropWhile_cons_of_neg (by simp [h])

theorem ne_of_isDigit {b c : UInt8} (hb : isDigit b = true) (hc : isDigit c = false) : b ≠ c := by
  rintro rfl
  rw [hb] at hc
  cases hc

theorem isBlank_of_isDigit {b : UInt8} (hb : isDigit b = true) : isBlank b = false := by
  simp [isBlank, ne_of_isDigit hb (show isDigit 32 = false from rfl),
    ne_of_isDigit hb (show isDigit 10 = false from rfl),
    ne_of_isDigit hb (show isDigit 9 = false from rfl),
    ne_of_isDigit hb (show isDigit 13 = false from rfl)]

section Dispatch

variable (depth : Nat) (s : Bytes)

theorem value_null : value depth (byte 'n' :: s) = Reading.mapValue (fun _ => .null) (nullWord s) := by
  rw [value, skipBlanks_cons (by decide)]
  rfl

theorem value_true : value depth (byte 't' :: s) = Reading.mapValue .bool (trueWord s) := by
  rw [value, skipBlanks_cons (by decide)]
  rfl

theorem value_false : value depth (byte 'f' :: s) = Reading.mapValue .bool (falseWord s) := by
  rw [value, skipBlanks_cons (by decide)]
  rfl

theorem value_minus : value depth (byte '-' :: s) = Reading.mapValue .number (number true s) := by
  rw [value, skipBlanks_cons (by decide)]
  rfl

theorem value_quote : value depth (byte '"' :: s) = Reading.mapValue .string (string s) := by
  rw [value, skipBlanks_cons (by decide)]
  rfl

theorem value_bracket : value (depth + 1) (byte '[' :: s) =
    Reading.mapValue .array (items (value depth) s.length.succ true s) := by
  rw [value, skipBlanks_cons (by decide)]
  rfl

theorem value_brace : value (depth + 1) (byte '\x7b' :: s) =
    Reading.mapValue .object (members (bindMember (value depth)) s.length.succ true [] s) := by
  rw [value, skipBlanks_cons (by decide)]
  rfl

theorem value_digit {b : UInt8} (hb : isDigit b = true) :
    value depth (b :: s) = Reading.mapValue .number (number false (b :: s)) := by
  rw [value, skipBlanks_cons (isBlank_of_isDigit hb)]
  dsimp only
  rw [if_neg (ne_of_isDigit hb (by decide)), if_neg (ne_of_isDigit hb (by decide)),
    if_neg (ne_of_isDigit hb (by decide)), if_neg (ne_of_isDigit hb (by decide)), if_pos hb]

end Dispatch

/-! ### Texts with commas between them -/

theorem commaSeparated_cons (t : List Char) (ts : List (List Char)) :
    commaSeparated (t :: ts) = t ++ ts.flatMap (',' :: ·) := by
  induction ts generalizing t with
  | nil => rw [commaSeparated, List.flatMap_nil, List.append_nil]
  | cons t' ts ih =>
    have hstep : commaSeparated (t :: t' :: ts) = t ++ ',' :: commaSeparated (t' :: ts) := rfl
    rw [hstep, ih, List.flatMap_cons, List.cons_append]

theorem itemTexts_eq (vs : List Value) : itemTexts vs = vs.map Value.text := by
  induction vs with
  | nil => rfl
  | cons v vs ih => rw [itemTexts, ih, List.map_cons]

/-- The text of a member. -/
def memberText (m : String × Value) : List Char := stringText m.1 ++ ':' :: m.2.text

theorem memberTexts_eq (ms : List (String × Value)) : memberTexts ms = ms.map memberText := by
  induction ms with
  | nil => rfl
  | cons m ms ih => rw [memberTexts, ih, List.map_cons, memberText]

/-- Every character takes a byte. -/
theorem length_le_bytes (l : List Char) : l.length ≤ (bytes l).length := by
  induction l with
  | nil => exact Nat.le_refl 0
  | cons c l ih =>
    obtain ⟨lead, cont, hc, -⟩ := Utf8.sequence_encode c
    rw [bytes_cons, hc, List.length_append, List.length_cons, List.length_cons]
    omega

/-- There are enough bytes for the texts after the first one. -/
theorem length_lt_commaSeparated (t : List Char) (ts : List (List Char)) (b : UInt8) (rest : Bytes) :
    ts.length < (bytes (commaSeparated (t :: ts)) ++ b :: rest).length := by
  have hcommas : ts.length ≤ (ts.flatMap (',' :: ·)).length := by
    induction ts with
    | nil => exact Nat.le_refl 0
    | cons t ts ih =>
      rw [List.flatMap_cons, List.length_append, List.length_cons, List.length_cons]
      omega
  have hbytes := length_le_bytes (commaSeparated (t :: ts))
  rw [commaSeparated_cons, List.length_append] at hbytes
  rw [List.length_append, List.length_cons, commaSeparated_cons]
  omega

/-- What does not begin with a blank, nor with the end of a list. -/
def Opens (s : Bytes) : Prop := ∃ b tail, s = b :: tail ∧ isBlank b = false ∧ b ≠ byte ']'

theorem ends_cons {c : Char} (h : isDigit (byte c) = false ∧ byte c ≠ byte '.' ∧
    isExponentMark (byte c) = false) (s : Bytes) : Ends (byte c :: s) := by
  rintro b hb
  cases hb
  exact h

section Items

variable {α : Type} {item : Bytes → Reading α} {text : α → List Char} {vs : List α}

/-- Items after a comma or at the end of a list. -/
theorem items_more (h : ∀ v ∈ vs, ∀ rest, Ends rest →
      Opens (bytes (text v) ++ rest) ∧ item (bytes (text v) ++ rest) = .ok (v, rest))
    {fuel : Nat} (hf : vs.length < fuel) (rest : Bytes) :
    Ends (bytes ((vs.map text).flatMap (',' :: ·)) ++ byte ']' :: rest) ∧
      items item fuel false (bytes ((vs.map text).flatMap (',' :: ·)) ++ byte ']' :: rest) =
        .ok (vs, rest) := by
  induction vs generalizing fuel with
  | nil =>
    obtain ⟨n, rfl⟩ := Nat.exists_eq_succ_of_ne_zero (Nat.ne_zero_of_lt hf)
    exact ⟨ends_cons (by decide) _, items_ok_iff.mpr (.inl ⟨skipBlanks_cons (by decide) rest, rfl⟩)⟩
  | cons v vs ih =>
    obtain ⟨n, rfl⟩ := Nat.exists_eq_succ_of_ne_zero (Nat.ne_zero_of_lt hf)
    obtain ⟨hends, hmore⟩ := ih (fun v' hv' => h v' (List.mem_cons_of_mem _ hv')) (Nat.lt_of_succ_lt_succ hf)
    obtain ⟨⟨b, tail, hb, hblank, hend⟩, hitem⟩ := h v List.mem_cons_self _ hends
    rw [List.map_cons, List.flatMap_cons, bytes_append, bytes_cons_ascii (by decide), List.cons_append,
      List.cons_append, List.append_assoc]
    rw [hb] at hitem ⊢
    have hfollows : Follows false (byte ',' :: b :: tail) (b :: tail) :=
      ⟨b :: tail, skipBlanks_cons (by decide) _, skipBlanks_cons hblank tail⟩
    exact ⟨ends_cons (by decide) _,
      items_ok_iff.mpr (.inr ⟨b, tail, v, _, vs, hfollows, hend, hitem, hmore, rfl⟩)⟩

/-- A list of items is read back from their texts. -/
theorem items_text (h : ∀ v ∈ vs, ∀ rest, Ends rest →
      Opens (bytes (text v) ++ rest) ∧ item (bytes (text v) ++ rest) = .ok (v, rest)) (rest : Bytes) :
    items item (bytes (commaSeparated (vs.map text)) ++ byte ']' :: rest).length.succ true
      (bytes (commaSeparated (vs.map text)) ++ byte ']' :: rest) = .ok (vs, rest) := by
  cases vs with
  | nil => exact items_ok_iff.mpr (.inl ⟨skipBlanks_cons (by decide) rest, rfl⟩)
  | cons v vs =>
    have hlength := length_lt_commaSeparated (text v) (vs.map text) (byte ']') rest
    rw [List.length_map, ← List.map_cons] at hlength
    obtain ⟨hends, hmore⟩ := items_more (fun v' hv' => h v' (List.mem_cons_of_mem _ hv')) hlength rest
    obtain ⟨⟨b, tail, hb, hblank, hend⟩, hitem⟩ := h v List.mem_cons_self _ hends
    generalize (bytes (commaSeparated ((v :: vs).map text)) ++ byte ']' :: rest).length = n at hmore ⊢
    rw [List.map_cons, commaSeparated_cons, bytes_append, List.append_assoc]
    rw [hb] at hitem ⊢
    exact items_ok_iff.mpr
      (.inr ⟨b, tail, v, _, vs, skipBlanks_cons hblank tail, hend, hitem, hmore, rfl⟩)

end Items

/-! ### Members -/

/-- A name that comes after all others is bound behind them. -/
theorem bind_last {k : String} {ms : List (String × Value)} (h : ∀ m ∈ ms, m.1 < k) (v : Value) :
    bind k v ms = ms ++ [(k, v)] := by
  induction ms with
  | nil => rfl
  | cons m ms ih =>
    have hm : m.1 < k := h m List.mem_cons_self
    rw [bind, if_neg fun he => String.lt_irrefl _ (he ▸ hm), if_neg (String.lt_asymm hm),
      ih fun m' hm' => h m' (List.mem_cons_of_mem _ hm'), List.cons_append]

section Members

variable {depth : Nat} {ms : List (String × Value)}

theorem colon_cons (s : Bytes) : colon (byte ':' :: s) = .ok ((), s) := by
  rw [colon, skipBlanks_cons (by decide)]
  exact if_pos rfl

/-- A member is read from its name on and bound behind the members before it. -/
theorem member_text (acc : List (String × Value)) {m : String × Value} {rest : Bytes}
    (hvalue : value depth (bytes m.2.text ++ rest) = .ok (m.2, rest)) (hacc : ∀ m' ∈ acc, m'.1 < m.1) :
    ∃ tail mid, bytes (memberText m) ++ rest = byte '"' :: tail ∧ string tail = .ok (m.1, mid) ∧
      bindMember (value depth) acc m.1 mid = .ok (acc ++ [m], rest) := by
  obtain ⟨tail, htail, hname⟩ := string_text m.1 (byte ':' :: (bytes m.2.text ++ rest))
  refine ⟨tail, _, ?_, hname, bindMember_ok_iff.mpr ⟨_, m.2, ?_, hvalue, (bind_last hacc m.2).symm⟩⟩
  · rw [memberText, bytes_append, bytes_cons_ascii (by decide), List.append_assoc, List.cons_append, htail]
  · exact colon_cons _

/-- Members after a comma or at the end of an object. -/
theorem members_more (h : ∀ m ∈ ms, ∀ rest, Ends rest →
      value depth (bytes m.2.text ++ rest) = .ok (m.2, rest))
    (acc : List (String × Value)) (hsorted : (acc ++ ms).Pairwise fun m m' => m.1 < m'.1)
    {fuel : Nat} (hf : ms.length < fuel) (rest : Bytes) :
    Ends (bytes ((ms.map memberText).flatMap (',' :: ·)) ++ byte '\x7d' :: rest) ∧
      members (bindMember (value depth)) fuel false acc
          (bytes ((ms.map memberText).flatMap (',' :: ·)) ++ byte '\x7d' :: rest) =
        .ok (acc ++ ms, rest) := by
  induction ms generalizing fuel acc with
  | nil =>
    obtain ⟨n, rfl⟩ := Nat.exists_eq_succ_of_ne_zero (Nat.ne_zero_of_lt hf)
    rw [List.append_nil]
    exact ⟨ends_cons (by decide) _, members_ok_iff.mpr (.inl ⟨skipBlanks_cons (by decide) rest, rfl⟩)⟩
  | cons m ms ih =>
    obtain ⟨n, rfl⟩ := Nat.exists_eq_succ_of_ne_zero (Nat.ne_zero_of_lt hf)
    rw [← List.singleton_append, ← List.append_assoc] at hsorted
    obtain ⟨hends, hmore⟩ :=
      ih (fun m' hm' => h m' (List.mem_cons_of_mem _ hm')) _ hsorted (Nat.lt_of_succ_lt_succ hf)
    have hacc : ∀ m' ∈ acc, m'.1 < m.1 := fun m' hm' =>
      (List.pairwise_append.mp (List.pairwise_append.mp hsorted).1).2.2 m' hm' m (List.mem_singleton_self m)
    obtain ⟨tail, mid, htail, hname, hmember⟩ := member_text acc (h m List.mem_cons_self _ hends) hacc
    rw [List.map_cons, List.flatMap_cons, bytes_append, bytes_cons_ascii (by decide), List.cons_append,
      List.cons_append, List.append_assoc, htail, ← List.singleton_append (x := m), ← List.append_assoc]
    have hfollows : Follows false (byte ',' :: byte '"' :: tail) (byte '"' :: tail) :=
      ⟨byte '"' :: tail, skipBlanks_cons (by decide) _, skipBlanks_cons (by decide) tail⟩
    exact ⟨ends_cons (by decide) _,
      members_ok_iff.mpr (.inr ⟨tail, m.1, mid, _, _, hfollows, hname, hmember, hmore⟩)⟩

/-- The members of an object are read back from their texts. -/
theorem members_text (h : ∀ m ∈ ms, ∀ rest, Ends rest →
      value depth (bytes m.2.text ++ rest) = .ok (m.2, rest))
    (hsorted : ms.Pairwise fun m m' => m.1 < m'.1) (rest : Bytes) :
    members (bindMember (value depth))
      (bytes (commaSeparated (ms.map memberText)) ++ byte '\x7d' :: rest).length.succ true []
      (bytes (commaSeparated (ms.map memberText)) ++ byte '\x7d' :: rest) = .ok (ms, rest) := by
  cases ms with
  | nil => exact members_ok_iff.mpr (.inl ⟨skipBlanks_cons (by decide) rest, rfl⟩)
  | cons m ms =>
    have hlength := length_lt_commaSeparated (memberText m) (ms.map memberText) (byte '\x7d') rest
    rw [List.length_map, ← List.map_cons] at hlength
    obtain ⟨hends, hmore⟩ := members_more
      (fun m' hm' => h m' (List.mem_cons_of_mem _ hm')) [m] hsorted hlength rest
    obtain ⟨tail, mid, htail, hname, hmember⟩ := member_text [] (h m List.mem_cons_self _ hends)
      (fun m' hm' => by cases hm')
    generalize (bytes (commaSeparated ((m :: ms).map memberText)) ++ byte '\x7d' :: rest).length = n
      at hmore ⊢
    rw [List.map_cons, commaSeparated_cons, bytes_append, List.append_assoc, htail]
    exact members_ok_iff.mpr
      (.inr ⟨tail, m.1, mid, [m], _, skipBlanks_cons (by decide) tail, hname, hmember, hmore⟩)

end Members

/-! ### Values -/

/-- What the text of a value begins with. -/
theorem opens_text {depth : Nat} {v : Value} (h : v.Canonical depth) {rest : Bytes} (hr : Ends rest) :
    Opens (bytes v.text ++ rest) := by
  have hascii {c : Char} {l : List Char} (hc : c.toNat < 128) (hb : isBlank (byte c) = false)
      (hne : byte c ≠ byte ']') : Opens (bytes (c :: l) ++ rest) :=
    ⟨byte c, bytes l ++ rest, by rw [bytes_cons_ascii hc, List.cons_append], hb, hne⟩
  cases h with
  | null => exact hascii (by decide) (by decide) (by decide)
  | bool b => cases b <;> exact hascii (by decide) (by decide) (by decide)
  | integer hi =>
    rw [Value.text, Number.text]
    rcases number_integerText hi hr with ⟨tail, htail, -⟩ | ⟨b, tail, htail, hb, -⟩
    · exact ⟨_, tail, htail, by decide, by decide⟩
    · exact ⟨b, tail, htail, isBlank_of_isDigit hb, ne_of_isDigit hb (by decide)⟩
  | string s => exact hascii (by decide) (by decide) (by decide)
  | array _ => exact hascii (by decide) (by decide) (by decide)
  | object _ _ => exact hascii (by decide) (by decide) (by decide)

/-- The text of a value is read back as that value. -/
theorem value_text {depth : Nat} {v : Value} (h : v.Canonical depth) {rest : Bytes} (hr : Ends rest) :
    value depth (bytes v.text ++ rest) = .ok (v, rest) := by
  induction h generalizing rest with
  | null =>
    have hword : bytes "null".toList = byte 'n' :: "ull".toList.map byte := by decide
    rw [Value.text, hword, List.cons_append, value_null, nullWord, word_bytes]
    rfl
  | bool b =>
    cases b with
    | true =>
      have hword : bytes "true".toList = byte 't' :: "rue".toList.map byte := by decide
      rw [Value.text, hword, List.cons_append, value_true, trueWord, word_bytes]
      rfl
    | false =>
      have hword : bytes "false".toList = byte 'f' :: "alse".toList.map byte := by decide
      rw [Value.text, hword, List.cons_append, value_false, falseWord, word_bytes]
      rfl
  | integer hi =>
    rw [Value.text, Number.text]
    rcases number_integerText hi hr with ⟨tail, htail, hnumber⟩ | ⟨b, tail, htail, hb, hnumber⟩
    · rw [htail, value_minus, hnumber]
      rfl
    · rw [htail, value_digit _ _ hb, hnumber]
      rfl
  | string s =>
    obtain ⟨tail, htail, hstring⟩ := string_text s rest
    rw [Value.text, htail, value_quote, hstring]
    rfl
  | array hitems ih =>
    have hread := items_text (fun v hv rest hr => ⟨opens_text (hitems v hv) hr, ih v hv hr⟩) rest
    rw [Value.text, itemTexts_eq, List.cons_append, bytes_cons_ascii (by decide), bytes_append,
      bytes_cons_ascii (by decide), bytes_nil, List.cons_append, List.append_assoc, List.singleton_append,
      value_bracket, hread]
    rfl
  | object hmembers hsorted ih =>
    have hread := members_text (fun m hm rest hr => ih m hm hr)
      (hsorted.imp Utf8.encode_lt_encode.mp) rest
    rw [Value.text, memberTexts_eq, List.cons_append, bytes_cons_ascii (by decide), bytes_append,
      bytes_cons_ascii (by decide), bytes_nil, List.cons_append, List.append_assoc, List.singleton_append,
      value_brace, hread]
    rfl

/-- A value that is written out is read back. -/
theorem read_render {v : Value} (h : v.Canonical maxDepth) : Value.read (Utf8.encode v.render) = .ok v := by
  have hread := @value_text maxDepth v h [] (fun b hb => by cases hb)
  rw [List.append_nil] at hread
  rw [Value.read, Value.render, encode_ofList, document, hread]
  rfl

end StreamWorker.Json
