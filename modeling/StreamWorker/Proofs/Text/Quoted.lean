import StreamWorker.Proofs.Text.Digits
import StreamWorker.Text.Quoted

/-! Texts in quotes can be read back. Between quotes no character is written so that it begins with the
quote that ends them, and none is written as the beginning of another. So texts that are written alike are
the same, whatever follows them, and so are lists of them. -/

namespace StreamWorker.Text

variable {c c' : Char} {l l' : List Char}

/-! ### Characters -/

/-- A character that stands for itself between quotes. -/
def Plain (c : Char) : Prop := c ≠ '"' ∧ c ≠ '\\' ∧ unshown c = false

instance (c : Char) : Decidable (Plain c) := inferInstanceAs (Decidable (_ ∧ _ ∧ _))

theorem quotedChar_of_plain (h : Plain c) : quotedChar c = c.toString := by
  obtain ⟨hquote, hslash, hshown⟩ := h
  have hne {d : Char} (hd : unshown d = true) : c ≠ d := by
    rintro rfl
    rw [hd] at hshown
    cases hshown
  have hzero : c.toNat ≠ 0 := fun h => hne (d := Char.ofNat 0) (by decide) (Char.toNat_inj.mp h)
  rw [quotedChar, if_neg hquote, if_neg hslash, if_neg (hne (by decide)), if_neg (hne (by decide)),
    if_neg (hne (by decide)), if_neg hzero, if_neg (by rw [hshown]; decide)]

/-- What a character stands for behind a backslash. -/
def unescaped : Char → Char
  | 'n' => '\n'
  | 'r' => '\r'
  | 't' => '\t'
  | '0' => Char.ofNat 0
  | c => c

/-- The three ways of writing a character. -/
inductive Written : Char → List Char → Prop where
  | short {x : Char} : x ≠ 'u' → Written (unescaped x) ['\\', x]
  | number (c : Char) : Written c ('\\' :: 'u' :: '\x7b' :: (Nat.toDigits 16 c.toNat ++ ['\x7d']))
  | plain {c : Char} : c ≠ '"' → c ≠ '\\' → Written c [c]

theorem written (c : Char) : Written c (quotedChar c).toList := by
  unfold quotedChar
  split
  · next h => subst h; exact .short (x := '"') (by decide)
  · next hquote =>
    split
    · next h => subst h; exact .short (x := '\\') (by decide)
    · next hslash =>
      split
      · next h => subst h; exact .short (x := 'n') (by decide)
      split
      · next h => subst h; exact .short (x := 'r') (by decide)
      split
      · next h => subst h; exact .short (x := 't') (by decide)
      split
      · next h =>
        obtain rfl : c = Char.ofNat 0 := Char.toNat_inj.mp h
        exact .short (x := '0') (by decide)
      split
      · simpa [hexDigits] using Written.number c
      · simpa using Written.plain hquote hslash

/-- How a character is written tells which one it is, and where it ends. -/
theorem Written.append_inj {w w' : List Char} (h : Written c w) (h' : Written c' w')
    (heq : w ++ l = w' ++ l') : c = c' ∧ l = l' := by
  cases h with
  | short hx =>
    cases h' with
    | short => simp at heq; simp [heq]
    | number => simp at heq; exact absurd heq.1 hx
    | plain _ hslash => simp at heq; exact absurd heq.1.symm hslash
  | number =>
    cases h' with
    | short hx => simp at heq; exact absurd heq.1.symm hx
    | number =>
      have hclose (n : Nat) : '\x7d' ∉ Nat.toDigits 16 n := notMem_toDigits (by decide) (by decide) n
      simp only [List.cons_append, List.append_assoc, List.nil_append, List.cons.injEq, true_and] at heq
      obtain ⟨hdigits, hl⟩ := append_cons_inj (hclose _) (hclose _) heq
      exact ⟨Char.toNat_inj.mp (toDigits_inj (by decide) (by decide) hdigits), hl⟩
    | plain _ hslash => simp at heq; exact absurd heq.1.symm hslash
  | plain _ hslash =>
    cases h' with
    | short => simp at heq; exact absurd heq.1 hslash
    | number => simp at heq; exact absurd heq.1 hslash
    | plain => simpa using heq

/-- No character is written so that it begins with a quote. -/
theorem Written.head_ne {w : List Char} (h : Written c w) (l l' : List Char) : '"' :: l ≠ w ++ l' := by
  intro heq
  cases h with
  | short => cases heq
  | number => cases heq
  | plain hquote => exact hquote (List.cons.inj heq).1.symm

/-! ### Texts -/

theorem toList_quoted (s : String) :
    (quoted s).toList = '"' :: (s.toList.flatMap fun c => (quotedChar c).toList) ++ ['"'] := by
  have hfold (l : List Char) (out : String) :
      (l.foldl (fun out c => out ++ quotedChar c) out).toList =
        out.toList ++ l.flatMap fun c => (quotedChar c).toList := by
    induction l generalizing out with
    | nil => simp
    | cons c l ih => rw [List.foldl_cons, ih]; simp
  rw [quoted]
  simp [hfold]

/-- A text of plain characters stands between the quotes as it is. -/
theorem quoted_of_plain {s : String} (h : ∀ c ∈ s.toList, Plain c) : quoted s = "\"" ++ s ++ "\"" := by
  have hsame (l : List Char) (h : ∀ c ∈ l, Plain c) :
      (l.flatMap fun c => (quotedChar c).toList) = l := by
    induction l with
    | nil => rfl
    | cons c l ih =>
      rw [List.flatMap_cons, quotedChar_of_plain (h c List.mem_cons_self),
        ih fun d hd => h d (List.mem_cons_of_mem c hd)]
      simp
  refine String.toList_inj.mp ?_
  rw [toList_quoted, hsame _ h]
  simp

/-- A text in quotes tells which one it is, and where it ends. -/
theorem quoted_append_inj {s s' : String} (h : (quoted s).toList ++ l = (quoted s').toList ++ l') :
    s = s' ∧ l = l' := by
  rw [toList_quoted, toList_quoted] at h
  simp only [List.cons_append, List.append_assoc, List.nil_append, List.cons.injEq, true_and] at h
  have hbody (t t' : List Char)
      (h : (t.flatMap fun c => (quotedChar c).toList) ++ '"' :: l =
        (t'.flatMap fun c => (quotedChar c).toList) ++ '"' :: l') : t = t' ∧ l = l' := by
    induction t generalizing t' with
    | nil =>
      cases t' with
      | nil => exact ⟨rfl, (List.cons.inj h).2⟩
      | cons c' t' =>
        rw [List.flatMap_cons, List.append_assoc] at h
        exact absurd h ((written c').head_ne _ _)
    | cons c t ih =>
      cases t' with
      | nil =>
        rw [List.flatMap_cons, List.append_assoc] at h
        exact absurd h.symm ((written c).head_ne _ _)
      | cons c' t' =>
        rw [List.flatMap_cons, List.append_assoc, List.flatMap_cons, List.append_assoc] at h
        obtain ⟨rfl, hrest⟩ := (written c).append_inj (written c') h
        obtain ⟨rfl, hl⟩ := ih t' hrest
        exact ⟨rfl, hl⟩
  obtain ⟨hs, hl⟩ := hbody _ _ h
  exact ⟨String.toList_inj.mp hs, hl⟩

/-! ### Lists -/

theorem toList_quotedList_cons (s : String) (names : List String) :
    (quotedList (s :: names)).toList =
      '[' :: (quoted s).toList ++ (names.flatMap fun t => ',' :: ' ' :: (quoted t).toList) ++ [']'] := by
  have hrest (s : String) : (", ".intercalate ((s :: names).map quoted)).toList =
      (quoted s).toList ++ names.flatMap fun t => ',' :: ' ' :: (quoted t).toList := by
    induction names generalizing s with
    | nil => simp
    | cons t names ih =>
      have h := ih t
      rw [List.map_cons] at h
      rw [List.map_cons, List.map_cons, String.intercalate_cons_cons]
      simp [h]
  rw [quotedList, String.toList_append, String.toList_append, hrest]
  simp

theorem quotedList_cons_ne_nil (s : String) (names : List String) :
    quotedList (s :: names) ≠ quotedList [] := by
  intro h
  have hl := congrArg String.toList h
  rw [toList_quotedList_cons, toList_quoted] at hl
  simp [quotedList] at hl

/-- A list of texts in quotes tells which they are, in order. -/
theorem quotedList_inj {names names' : List String} (h : quotedList names = quotedList names') :
    names = names' := by
  have hrest (names names' : List String)
      (h : (names.flatMap fun t => ',' :: ' ' :: (quoted t).toList) ++ [']'] =
        (names'.flatMap fun t => ',' :: ' ' :: (quoted t).toList) ++ [']']) : names = names' := by
    induction names generalizing names' with
    | nil =>
      cases names' with
      | nil => rfl
      | cons t names' => simp at h
    | cons s names ih =>
      cases names' with
      | nil => simp at h
      | cons t names' =>
        simp only [List.flatMap_cons, List.cons_append, List.append_assoc, List.cons.injEq, true_and] at h
        obtain ⟨rfl, hnames⟩ := quoted_append_inj h
        rw [ih names' hnames]
  cases names with
  | nil =>
    cases names' with
    | nil => rfl
    | cons t names' => exact absurd h.symm (quotedList_cons_ne_nil t names')
  | cons s names =>
    cases names' with
    | nil => exact absurd h (quotedList_cons_ne_nil s names)
    | cons t names' =>
      have hl := congrArg String.toList h
      rw [toList_quotedList_cons, toList_quotedList_cons] at hl
      simp only [List.cons_append, List.append_assoc, List.cons.injEq, true_and] at hl
      obtain ⟨rfl, hnames⟩ := quoted_append_inj hl
      rw [hrest names names' hnames]

end StreamWorker.Text
