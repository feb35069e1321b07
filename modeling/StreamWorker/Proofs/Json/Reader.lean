import StreamWorker.Json.Reader

/-! Lists and objects are read one item or member after another. What a single step of it comes to is
said once, in both directions, so nothing that follows opens the readers again. An object ends up with
the last of the values that its text gives a name. -/

namespace StreamWorker.Json

theorem mapValue_ok_iff {α β : Type} {f : α → β} {r : Reading α} {v : β} {rest : Bytes} :
    Reading.mapValue f r = .ok (v, rest) ↔ ∃ a, r = .ok (a, rest) ∧ v = f a := by
  constructor
  · intro h
    cases r with
    | error stop => cases h
    | ok p =>
      cases h
      exact ⟨p.1, rfl, rfl⟩
  · rintro ⟨a, rfl, rfl⟩
    rfl

/-- What comes next in a list or an object, behind a comma unless it is the first. -/
def Follows : Bool → Bytes → Bytes → Prop
  | true, s, t => skipBlanks s = t
  | false, s, t => ∃ u, skipBlanks s = byte ',' :: u ∧ skipBlanks u = t

/-! ### Items -/

section Items

variable {α : Type} {item : Bytes → Reading α} {fuel : Nat} {first : Bool} {s rest : Bytes} {vs : List α}

theorem items_next_ok_iff {more : Bytes → Reading (List α)} :
    items.next item more s = .ok (vs, rest) ↔
      ∃ v mid vs', item s = .ok (v, mid) ∧ more mid = .ok (vs', rest) ∧ vs = v :: vs' := by
  rw [items.next]
  constructor
  · intro h
    split at h
    · cases h
    next v mid hv =>
    split at h
    · cases h
    next vs' after hmore =>
    cases h
    exact ⟨v, mid, vs', hv, hmore, rfl⟩
  · rintro ⟨v, mid, vs', hv, hmore, rfl⟩
    simp only [hv, hmore]

/-- A list has ended, or it goes on with an item. -/
theorem items_ok_iff : items item (fuel + 1) first s = .ok (vs, rest) ↔
    (skipBlanks s = byte ']' :: rest ∧ vs = []) ∨
      ∃ b tail v mid vs', Follows first s (b :: tail) ∧ b ≠ byte ']' ∧ item (b :: tail) = .ok (v, mid) ∧
        items item fuel false mid = .ok (vs', rest) ∧ vs = v :: vs' := by
  have hcomma : byte ',' ≠ byte ']' := by decide
  rw [items]
  constructor
  · intro h
    split at h
    · cases h
    next b tail hs =>
    split at h
    · next hend =>
      subst hend
      cases h
      exact .inl ⟨hs, rfl⟩
    next hend =>
    split at h
    · next hfirst =>
      subst hfirst
      obtain ⟨v, mid, vs', hread⟩ := items_next_ok_iff.mp h
      exact .inr ⟨b, tail, v, mid, vs', hs, hend, hread⟩
    next hfirst =>
    rw [Bool.not_eq_true] at hfirst
    subst hfirst
    split at h
    · next hb =>
      subst hb
      split at h
      · cases h
      next c after hafter =>
      split at h
      · cases h
      next hc =>
      obtain ⟨v, mid, vs', hread⟩ := items_next_ok_iff.mp h
      exact .inr ⟨c, after, v, mid, vs', ⟨tail, hs, hafter⟩, hc, hread⟩
    · cases h
  · rintro (⟨hs, rfl⟩ | ⟨b, tail, v, mid, vs', hfollows, hb, hread⟩)
    · simp only [hs, if_true]
    · have hnext := items_next_ok_iff.mpr ⟨v, mid, vs', hread⟩
      cases first with
      | true =>
        have hs : skipBlanks s = b :: tail := hfollows
        simp only [hs, if_neg hb, if_true, hnext]
      | false =>
        obtain ⟨u, hs, hu⟩ := hfollows
        simp only [hs, if_neg hcomma, Bool.false_eq_true, if_false, if_true, hu, if_neg hb, hnext]

end Items

/-! ### Members -/

section Members

variable {σ τ : Type} {member : σ → String → Bytes → Reading σ} {member' : τ → String → Bytes → Reading τ}
  {fuel : Nat} {first : Bool} {s rest : Bytes} {x x' : σ}

theorem members_next_ok_iff {more : σ → Bytes → Reading σ} :
    members.next member more x s = .ok (x', rest) ↔
      ∃ name mid y after, string s = .ok (name, mid) ∧ member x name mid = .ok (y, after) ∧
        more y after = .ok (x', rest) := by
  rw [members.next]
  constructor
  · intro h
    split at h
    · cases h
    next name mid hname =>
    split at h
    · cases h
    next y after hmember => exact ⟨name, mid, y, after, hname, hmember, h⟩
  · rintro ⟨name, mid, y, after, hname, hmember, hmore⟩
    simp only [hname, hmember, hmore]

/-- An object has ended, or it goes on with a name and its member. -/
theorem members_ok_iff : members member (fuel + 1) first x s = .ok (x', rest) ↔
    (skipBlanks s = byte '\x7d' :: rest ∧ x' = x) ∨
      ∃ tail name mid y after, Follows first s (byte '"' :: tail) ∧ string tail = .ok (name, mid) ∧
        member x name mid = .ok (y, after) ∧ members member fuel false y after = .ok (x', rest) := by
  have hquote : byte '"' ≠ byte '\x7d' := by decide
  have hcomma : byte ',' ≠ byte '\x7d' := by decide
  rw [members]
  constructor
  · intro h
    split at h
    · cases h
    next b tail hs =>
    split at h
    · next hend =>
      subst hend
      cases h
      exact .inl ⟨hs, rfl⟩
    split at h
    · next hfirst =>
      subst hfirst
      split at h
      · next hq =>
        subst hq
        obtain ⟨name, mid, y, after, hread⟩ := members_next_ok_iff.mp h
        exact .inr ⟨tail, name, mid, y, after, hs, hread⟩
      · cases h
    next hfirst =>
    rw [Bool.not_eq_true] at hfirst
    subst hfirst
    split at h
    · next hb =>
      subst hb
      split at h
      · cases h
      next c u hu =>
      split at h
      · next hq =>
        subst hq
        obtain ⟨name, mid, y, after, hread⟩ := members_next_ok_iff.mp h
        exact .inr ⟨u, name, mid, y, after, ⟨tail, hs, hu⟩, hread⟩
      · split at h <;> cases h
    · cases h
  · rintro (⟨hs, rfl⟩ | ⟨tail, name, mid, y, after, hfollows, hread⟩)
    · simp only [hs, if_true]
    · have hnext := members_next_ok_iff.mpr ⟨name, mid, y, after, hread⟩
      cases first with
      | true =>
        have hs : skipBlanks s = byte '"' :: tail := hfollows
        simp only [hs, if_neg hquote, if_true, hnext]
      | false =>
        obtain ⟨u, hs, hu⟩ := hfollows
        simp only [hs, if_neg hcomma, Bool.false_eq_true, if_false, if_true, hu, hnext]

/-- Members that are taken in two ways which go together lead to states that go together. -/
theorem members_together {R : σ → τ → Prop}
    (hmember : ∀ x z name s y rest, R x z → member x name s = .ok (y, rest) →
      ∃ z', member' z name s = .ok (z', rest) ∧ R y z')
    {z : τ} (hR : R x z) (h : members member fuel first x s = .ok (x', rest)) :
    ∃ z', members member' fuel first z s = .ok (z', rest) ∧ R x' z' := by
  induction fuel generalizing first x z s with
  | zero =>
    rw [members] at h
    cases h
  | succ fuel ih =>
    rcases members_ok_iff.mp h with ⟨hs, rfl⟩ | ⟨tail, name, mid, y, after, hf, hname, hy, hmore⟩
    · exact ⟨z, members_ok_iff.mpr (.inl ⟨hs, rfl⟩), hR⟩
    · obtain ⟨z', hz, hR'⟩ := hmember _ _ _ _ _ _ hR hy
      obtain ⟨z'', hrest, hR''⟩ := ih hR' hmore
      exact ⟨z'', members_ok_iff.mpr (.inr ⟨tail, name, mid, z', after, hf, hname, hz, hrest⟩), hR''⟩

end Members

/-! ### Names that are bound again -/

section Names

variable {item : Bytes → Reading Value} {ms ms' : List (String × Value)} {name : String} {s rest : Bytes}

theorem bindMember_ok_iff : bindMember item ms name s = .ok (ms', rest) ↔
    ∃ u v, colon s = .ok ((), u) ∧ item u = .ok (v, rest) ∧ ms' = bind name v ms := by
  rw [bindMember]
  cases colon s with
  | error stop => simp
  | ok p =>
    obtain ⟨⟨⟩, u⟩ := p
    simp [mapValue_ok_iff]

theorem lookup_cons (m : String × Value) :
    (m :: ms).lookup name = if name = m.1 then some m.2 else ms.lookup name := by
  obtain ⟨k, v⟩ := m
  rw [List.lookup_cons]
  by_cases h : name = k
  · simp [h]
  · simp [h, beq_false_of_ne h]

/-- A name that is bound stands for the value, and all others for what they stood for. -/
theorem lookup_bind (k : String) (v : Value) :
    (bind k v ms).lookup name = if name = k then some v else ms.lookup name := by
  induction ms with
  | nil => exact lookup_cons (k, v)
  | cons m ms ih =>
    rw [bind]
    split
    · next he =>
      subst he
      rw [lookup_cons, lookup_cons]
      by_cases h : name = m.1 <;> simp [h]
    split
    · exact lookup_cons (k, v)
    · next hne _ =>
      rw [lookup_cons, lookup_cons, ih]
      by_cases h : name = k
      · simp [h, hne]
      · simp [h]

/-- A member's colon and value, kept behind the members read so far. -/
def keepMember (value : Bytes → Reading Value) (ms : List (String × Value)) (name : String)
    (s : Bytes) : Reading (List (String × Value)) :=
  match colon s with
  | .error stop => .error stop
  | .ok (_, s) => Reading.mapValue (fun v => ms ++ [(name, v)]) (value s)

/-- Of the values that are given to a name, an object has the last. -/
theorem members_last {fuel : Nat} {first : Bool}
    (h : members (bindMember item) fuel first [] s = .ok (ms, rest)) :
    ∃ kept, members (keepMember item) fuel first [] s = .ok (kept, rest) ∧
      ∀ name, ms.lookup name = kept.reverse.lookup name := by
  refine members_together (z := ([] : List (String × Value)))
    (R := fun ms kept => ∀ name, ms.lookup name = kept.reverse.lookup name)
    (fun ms kept name s ms' rest hsame hread => ?_) (fun name => rfl) h
  obtain ⟨u, v, hcolon, hv, rfl⟩ := bindMember_ok_iff.mp hread
  refine ⟨kept ++ [(name, v)], ?_, fun name' => ?_⟩
  · rw [keepMember, hcolon]
    exact mapValue_ok_iff.mpr ⟨v, hv, rfl⟩
  · rw [lookup_bind, List.reverse_append, List.reverse_singleton, List.singleton_append, lookup_cons, hsame]

end Names

end StreamWorker.Json
