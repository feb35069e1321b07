import Std.Data.String.ToNat

/-! Numbers in digits, up to the base of sixteen. The digits tell the number, and what stands behind them
can be told from them if it begins with a character that is no digit. -/

namespace StreamWorker.Text

variable {b m n : Nat}

theorem digitChar_inj (hm : m < 16) (hn : n < 16) (h : m.digitChar = n.digitChar) : m = n := by
  have hall : ∀ i : Fin 16, ∀ j : Fin 16, i.val.digitChar = j.val.digitChar → i = j := by decide
  exact congrArg Fin.val (hall ⟨m, hm⟩ ⟨n, hn⟩ h)

/-- Numbers with the same digits are the same: the last digits are, and what is left in front of them. -/
theorem toDigits_inj (hb : 1 < b) (hb' : b ≤ 16) (h : Nat.toDigits b m = Nat.toDigits b n) : m = n := by
  -- a number of one digit is told from others by its length
  have hlong {k : Nat} (hk : b ≤ k) (d : Char) : Nat.toDigits b k ≠ [d] := by
    rw [Nat.toDigits_of_base_le hb hk]
    intro hd
    rcases List.append_eq_singleton_iff.mp hd with ⟨hnil, -⟩ | ⟨-, hlast⟩
    · exact Nat.toDigits_ne_nil hnil
    · cases hlast
  induction m using Nat.strongRecOn generalizing n with
  | ind m ih =>
    rcases Nat.lt_or_ge m b with hm | hm <;> rcases Nat.lt_or_ge n b with hn | hn
    · rw [Nat.toDigits_of_lt_base hm, Nat.toDigits_of_lt_base hn] at h
      exact digitChar_inj (by omega) (by omega) (List.singleton_inj.mp h)
    · rw [Nat.toDigits_of_lt_base hm] at h
      exact absurd h.symm (hlong hn _)
    · rw [Nat.toDigits_of_lt_base hn] at h
      exact absurd h (hlong hm _)
    · rw [Nat.toDigits_of_base_le hb hm, Nat.toDigits_of_base_le hb hn] at h
      obtain ⟨hfront, hlast⟩ := List.append_inj' h rfl
      have hdiv : m / b = n / b := ih (m / b) (Nat.div_lt_self (by omega) hb) hfront
      have hmod : m % b = n % b :=
        digitChar_inj (Nat.lt_of_lt_of_le (Nat.mod_lt _ (by omega)) hb')
          (Nat.lt_of_lt_of_le (Nat.mod_lt _ (by omega)) hb') (List.singleton_inj.mp hlast)
      rw [← Nat.div_add_mod m b, ← Nat.div_add_mod n b, hdiv, hmod]

theorem exists_of_mem_toDigits (hb : 1 < b) {c : Char} (h : c ∈ Nat.toDigits b n) :
    ∃ d < b, c = d.digitChar := by
  induction n using Nat.strongRecOn with
  | ind n ih =>
    rcases Nat.lt_or_ge n b with hn | hn
    · rw [Nat.toDigits_of_lt_base hn] at h
      exact ⟨n, hn, List.mem_singleton.mp h⟩
    · rw [Nat.toDigits_of_base_le hb hn] at h
      rcases List.mem_append.mp h with h | h
      · exact ih (n / b) (Nat.div_lt_self (by omega) hb) h
      · exact ⟨n % b, Nat.mod_lt _ (by omega), List.mem_singleton.mp h⟩

theorem notMem_toDigits {c : Char} (hb : 1 < b) (hc : ∀ d < b, d.digitChar ≠ c) (n : Nat) :
    c ∉ Nat.toDigits b n := by
  intro h
  obtain ⟨d, hd, rfl⟩ := exists_of_mem_toDigits hb h
  exact hc d hd rfl

/-- Two lists that are cut at their first occurrence of an element. -/
theorem append_cons_inj {α : Type} {a a' b b' : List α} {c : α} (ha : c ∉ a) (ha' : c ∉ a')
    (h : a ++ c :: b = a' ++ c :: b') : a = a' ∧ b = b' := by
  rcases List.append_eq_append_iff.mp h with ⟨x, rfl, hx⟩ | ⟨x, rfl, hx⟩
  · cases x with
    | nil => simpa using hx
    | cons y x =>
      rw [List.cons_append, List.cons.injEq] at hx
      simp [hx.1] at ha'
  · cases x with
    | nil => simpa using hx.symm
    | cons y x =>
      rw [List.cons_append, List.cons.injEq] at hx
      simp [hx.1] at ha

/-- Two lists that are cut at their last occurrence of an element. -/
theorem append_cons_inj' {α : Type} {a a' b b' : List α} {c : α} (hb : c ∉ b) (hb' : c ∉ b')
    (h : a ++ c :: b = a' ++ c :: b') : a = a' ∧ b = b' := by
  have hreverse : b.reverse ++ c :: a.reverse = b'.reverse ++ c :: a'.reverse := by
    simpa using congrArg List.reverse h
  obtain ⟨hb, ha⟩ := append_cons_inj (mt List.mem_reverse.mp hb) (mt List.mem_reverse.mp hb') hreverse
  exact ⟨List.reverse_inj.mp ha, List.reverse_inj.mp hb⟩

end StreamWorker.Text
