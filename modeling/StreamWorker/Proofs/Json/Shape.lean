import StreamWorker.Json.Shape
import StreamWorker.Proofs.Json.RoundTrip

/-! Documents of a known shape are read back from what they are written as: texts, numbers of 32 bits,
lists of texts, and jobs, which are written as objects with their two fields in order. A number has to
be followed by something that is no part of it; everything else can be followed by anything. -/

namespace StreamWorker.Json

theorem textShape_text (s : String) (rest : Bytes) :
    textShape (bytes (stringText s) ++ rest) = .ok (s, rest) := by
  obtain ⟨tail, htail, hstring⟩ := string_text s rest
  rw [htail, textShape, skipBlanks_cons (by decide)]
  exact (if_pos rfl).trans hstring

theorem wordShape_text (n : UInt32) {rest : Bytes} (h : Ends rest) :
    wordShape (bytes (Nat.toDigits 10 n.toNat) ++ rest) = .ok (n, rest) := by
  have hn : n.toNat < UInt32.size := n.toNat_lt_size
  have hsize : UInt32.size < UInt64.size := by decide
  obtain ⟨b, tail, hb, hdigit, hnumber⟩ := number_toDigits (Nat.lt_trans hn hsize) h false
  have hword : (0 : Int) ≤ n.toNat ∧ ((n.toNat : Int)).toNat < UInt32.size :=
    ⟨Int.natCast_nonneg _, hn⟩
  rw [hb, wordShape, skipBlanks_cons (isBlank_of_isDigit hdigit)]
  dsimp only
  rw [if_neg (ne_of_isDigit hdigit (by decide)), if_pos hdigit, hnumber, wholeNumber,
    if_neg (by decide)]
  dsimp only
  rw [if_pos hword, Int.toNat_natCast, UInt32.ofNat_toNat]

/-! ### Lists -/

theorem opens_stringText (s : String) (rest : Bytes) : Opens (bytes (stringText s) ++ rest) := by
  obtain ⟨tail, htail, -⟩ := string_text s rest
  exact ⟨byte '"', tail, htail, by decide, by decide⟩

theorem listShape_texts (l : List String) (rest : Bytes) :
    listShape textShape (bytes ('[' :: commaSeparated (l.map stringText) ++ [']']) ++ rest) =
      .ok (l, rest) := by
  have hread := @items_text _ textShape stringText l
    (fun s _ rest _ => ⟨opens_stringText s rest, textShape_text s rest⟩) rest
  rw [List.cons_append, bytes_cons_ascii (by decide), bytes_append, bytes_cons_ascii (by decide), bytes_nil,
    List.cons_append, List.append_assoc, List.singleton_append, listShape, skipBlanks_cons (by decide)]
  exact (if_pos rfl).trans hread

/-! ### Jobs -/

/-- The name of a job comes first. -/
theorem jobMember_name (t : String) (rest : Bytes) :
    jobMember {} "name" (byte ':' :: (bytes (stringText t) ++ rest)) = .ok ({ name := some t }, rest) := by
  rw [jobMember, if_neg (by decide), if_neg (by decide), colon_cons]
  dsimp only
  rw [if_pos rfl, textShape_text]
  rfl

/-- The weight of a job comes after its name. -/
theorem jobMember_weight (t : String) (n : UInt32) {rest : Bytes} (h : Ends rest) :
    jobMember { name := some t } "weight" (byte ':' :: (bytes (Nat.toDigits 10 n.toNat) ++ rest)) =
      .ok ({ name := some t, weight := some n }, rest) := by
  rw [jobMember, if_neg (by simp), if_neg (by simp), colon_cons]
  dsimp only
  rw [if_neg (by decide), if_pos rfl, wordShape_text n h]
  rfl

/-- The text of a job, with the names of its fields as strings. -/
def jobMembers (j : Job) : List (List Char) :=
  [stringText "name" ++ ':' :: stringText j.name,
    stringText "weight" ++ ':' :: Nat.toDigits 10 j.weight.toNat]

theorem jobShape_text (j : Job) (rest : Bytes) :
    jobShape (bytes ('\x7b' :: commaSeparated (jobMembers j) ++ ['\x7d']) ++ rest) = .ok (j, rest) := by
  have hends : Ends (byte '\x7d' :: rest) := ends_cons (by decide) rest
  obtain ⟨second, hsecond, hweight⟩ := string_text "weight"
    (byte ':' :: (bytes (Nat.toDigits 10 j.weight.toNat) ++ byte '\x7d' :: rest))
  obtain ⟨first, hfirst, hname⟩ := string_text "name"
    (byte ':' :: (bytes (stringText j.name) ++ byte ',' :: byte '"' :: second))
  have hbytes : bytes ('\x7b' :: commaSeparated (jobMembers j) ++ ['\x7d']) ++ rest =
      byte '\x7b' :: byte '"' :: first := by
    rw [← hfirst, ← hsecond]
    simp [jobMembers, commaSeparated, bytes_cons_ascii (c := '\x7b') (by decide),
      bytes_cons_ascii (c := '\x7d') (by decide), bytes_cons_ascii (c := ',') (by decide),
      bytes_cons_ascii (c := ':') (by decide)]
  have hread : members jobMember ((byte '"' :: first).length.succ) true {} (byte '"' :: first) =
      .ok ({ name := some j.name, weight := some j.weight }, rest) := by
    obtain ⟨n, hn⟩ : ∃ n, (byte '"' :: first).length.succ = n + 3 := by
      cases first with
      | nil => cases hname
      | cons b tail => exact ⟨tail.length, rfl⟩
    rw [hn]
    refine members_ok_iff.mpr (.inr ⟨first, "name", _, _, _, skipBlanks_cons (by decide) first, hname,
      jobMember_name j.name _, ?_⟩)
    refine members_ok_iff.mpr (.inr ⟨second, "weight", _, _, _,
      ⟨_, skipBlanks_cons (by decide) _, skipBlanks_cons (by decide) _⟩, hweight,
      jobMember_weight j.name j.weight hends, ?_⟩)
    exact members_ok_iff.mpr (.inl ⟨skipBlanks_cons (by decide) rest, rfl⟩)
  rw [hbytes, jobShape, skipBlanks_cons (by decide)]
  dsimp only
  rw [if_neg (by decide), if_pos rfl, jobFromObject, hread]

end StreamWorker.Json
