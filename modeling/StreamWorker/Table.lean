/-! Finite tables from keys to values, listed in the order in which keys were first bound. Binding a
key again replaces its value in place, so the order of a table never depends on how often a key was
written. The lemmas give every operation by what a look-up sees afterwards. -/

namespace StreamWorker

/-- Bindings in order of first insertion. -/
structure Table (κ α : Type) where
  entries : List (κ × α) := []
  deriving Repr, DecidableEq

namespace Table

variable {κ α : Type} [DecidableEq κ]

instance : Inhabited (Table κ α) := ⟨⟨[]⟩⟩

def empty : Table κ α := ⟨[]⟩

private def find (k : κ) : List (κ × α) → Option α
  | [] => none
  | (k', v) :: rest => if k' = k then some v else find k rest

private def put (k : κ) (v : α) : List (κ × α) → List (κ × α)
  | [] => [(k, v)]
  | (k', v') :: rest => if k' = k then (k, v) :: rest else (k', v') :: put k v rest

def get? (t : Table κ α) (k : κ) : Option α := find k t.entries

/-- Binds `k` to `v`, in the place of its old binding if it has one. -/
def insert (t : Table κ α) (k : κ) (v : α) : Table κ α := ⟨put k v t.entries⟩

private def drop (k : κ) : List (κ × α) → List (κ × α)
  | [] => []
  | (k', v) :: rest => if k' = k then drop k rest else (k', v) :: drop k rest

def erase (t : Table κ α) (k : κ) : Table κ α := ⟨drop k t.entries⟩

def getD (t : Table κ α) (k : κ) (d : α) : α := (t.get? k).getD d

def contains (t : Table κ α) (k : κ) : Bool := (t.get? k).isSome

def keys (t : Table κ α) : List κ := t.entries.map Prod.fst

/-- The same keys, each bound to what `f` makes of its value. -/
def map {β : Type} (f : α → β) (t : Table κ α) : Table κ β := ⟨t.entries.map fun e => (e.1, f e.2)⟩

/-- The sum of what `f` makes of the values. -/
def total (f : α → Nat) (t : Table κ α) : Nat := t.entries.foldr (fun e n => f e.2 + n) 0

/-- The table of a list of bindings, later ones winning. -/
def ofList (l : List (κ × α)) : Table κ α := l.foldl (fun t e => t.insert e.1 e.2) empty

@[simp] theorem get?_empty (k : κ) : (empty : Table κ α).get? k = none := rfl

private theorem find_put (k k' : κ) (v : α) (l : List (κ × α)) :
    find k (put k' v l) = if k' = k then some v else find k l := by
  induction l with
  | nil => simp [put, find]
  | cons e l ih =>
    obtain ⟨a, b⟩ := e
    by_cases h : a = k'
    · subst h; by_cases h' : a = k <;> simp [put, find, h']
    · by_cases h' : a = k
      · have : k' ≠ k := fun e => h (h'.trans e.symm)
        simp [put, find, h', this, h' ▸ h]
      · simp [put, find, h, h', ih]

private theorem length_put (k : κ) (v : α) (l : List (κ × α)) :
    (put k v l).length = if (find k l).isSome then l.length else l.length + 1 := by
  induction l with
  | nil => rfl
  | cons e l ih =>
    obtain ⟨a, b⟩ := e
    by_cases h : a = k
    · simp [put, find, h]
    · simp only [put, find, h, if_false, List.length_cons, ih]
      split <;> rfl

private theorem put_of_find_none {k : κ} {l : List (κ × α)} (h : find k l = none) (v : α) :
    put k v l = l ++ [(k, v)] := by
  induction l with
  | nil => rfl
  | cons e l ih =>
    obtain ⟨a, b⟩ := e
    have hne : a ≠ k := by
      rintro rfl
      simp [find] at h
    rw [find, if_neg hne] at h
    rw [put, if_neg hne, ih h, List.cons_append]

/-- A new key goes to the end. -/
theorem entries_insert_of_none {t : Table κ α} {k : κ} (h : t.get? k = none) (v : α) :
    (t.insert k v).entries = t.entries ++ [(k, v)] :=
  put_of_find_none h v

/-- Only a new key makes a table longer. -/
theorem length_insert (t : Table κ α) (k : κ) (v : α) :
    (t.insert k v).entries.length =
      if (t.get? k).isSome then t.entries.length else t.entries.length + 1 :=
  length_put k v t.entries

theorem get?_insert (t : Table κ α) (k k' : κ) (v : α) :
    (t.insert k' v).get? k = if k' = k then some v else t.get? k := find_put k k' v t.entries

@[simp] theorem get?_insert_self (t : Table κ α) (k : κ) (v : α) :
    (t.insert k v).get? k = some v := by simp [get?_insert]

theorem get?_insert_of_ne (t : Table κ α) {k k' : κ} (h : k' ≠ k) (v : α) :
    (t.insert k' v).get? k = t.get? k := by simp [get?_insert, h]

private theorem find_drop (k k' : κ) (l : List (κ × α)) :
    find k (drop k' l) = if k' = k then none else find k l := by
  induction l with
  | nil => simp [drop, find]
  | cons e l ih =>
    obtain ⟨a, b⟩ := e
    by_cases h : a = k'
    · subst h
      by_cases h' : a = k
      · subst h'; simpa [drop] using ih
      · simp [drop, find, ih, h']
    · by_cases h' : a = k
      · have : k' ≠ k := fun e => h (h'.trans e.symm)
        simp [drop, find, h', this, h' ▸ h]
      · simp [drop, find, h, h', ih]

theorem get?_erase (t : Table κ α) (k k' : κ) :
    (t.erase k').get? k = if k' = k then none else t.get? k := find_drop k k' t.entries

theorem contains_insert (t : Table κ α) (k k' : κ) (v : α) :
    (t.insert k' v).contains k = true ↔ k' = k ∨ t.contains k = true := by
  by_cases h : k' = k <;> simp [contains, get?_insert, h]

theorem contains_erase (t : Table κ α) (k k' : κ) :
    (t.erase k').contains k = true ↔ k' ≠ k ∧ t.contains k = true := by
  by_cases h : k' = k <;> simp [contains, get?_erase, h]

private theorem find_isSome (k : κ) (l : List (κ × α)) :
    (find k l).isSome = true ↔ k ∈ l.map Prod.fst := by
  induction l with
  | nil => simp [find]
  | cons e l ih =>
    obtain ⟨a, b⟩ := e
    by_cases h : a = k
    · simp [find, h]
    · simp [find, h, ih, Ne.symm h]

private theorem find_eq_some_iff {k : κ} {v : α} {l : List (κ × α)} (h : (l.map Prod.fst).Nodup) :
    find k l = some v ↔ (k, v) ∈ l := by
  induction l with
  | nil => simp [find]
  | cons e l ih =>
    obtain ⟨a, b⟩ := e
    obtain ⟨ha, hl⟩ := List.nodup_cons.mp h
    by_cases hak : a = k
    · subst hak
      have hnot : (a, v) ∉ l := fun hm => ha (List.mem_map.mpr ⟨_, hm, rfl⟩)
      simp [find, hnot, eq_comm]
    · simp [find, hak, Ne.symm hak, ih hl]

/-- Where every key is bound once, a look-up finds exactly the bindings that are listed. -/
theorem get?_eq_some_iff {t : Table κ α} (h : t.keys.Nodup) {k : κ} {v : α} :
    t.get? k = some v ↔ (k, v) ∈ t.entries :=
  find_eq_some_iff h

/-- The order of bindings does not matter to a look-up. -/
theorem get?_of_perm {t t' : Table κ α} (h : t.keys.Nodup) (hp : t.entries.Perm t'.entries) (k : κ) :
    t.get? k = t'.get? k := by
  have h' : t'.keys.Nodup := (hp.map Prod.fst).nodup h
  ext v
  rw [get?_eq_some_iff h, get?_eq_some_iff h', hp.mem_iff]

section Map
variable {β : Type} (f : α → β)

private theorem find_map (k : κ) (l : List (κ × α)) :
    find k (l.map fun e => (e.1, f e.2)) = (find k l).map f := by
  induction l with
  | nil => rfl
  | cons e l ih =>
    obtain ⟨a, b⟩ := e
    by_cases h : a = k <;> simp [find, h, ih]

private theorem put_map (k : κ) (v : α) (l : List (κ × α)) :
    (put k v l).map (fun e => (e.1, f e.2)) = put k (f v) (l.map fun e => (e.1, f e.2)) := by
  induction l with
  | nil => rfl
  | cons e l ih =>
    obtain ⟨a, b⟩ := e
    by_cases h : a = k <;> simp [put, h, ih]

private theorem drop_map (k : κ) (l : List (κ × α)) :
    (drop k l).map (fun e => (e.1, f e.2)) = drop k (l.map fun e => (e.1, f e.2)) := by
  induction l with
  | nil => rfl
  | cons e l ih =>
    obtain ⟨a, b⟩ := e
    by_cases h : a = k <;> simp [drop, h, ih]

@[simp] theorem get?_map (t : Table κ α) (k : κ) : (t.map f).get? k = (t.get? k).map f :=
  find_map f k t.entries

theorem map_insert (t : Table κ α) (k : κ) (v : α) :
    (t.insert k v).map f = (t.map f).insert k (f v) :=
  congrArg Table.mk (put_map f k v t.entries)

theorem map_erase (t : Table κ α) (k : κ) : (t.erase k).map f = (t.map f).erase k :=
  congrArg Table.mk (drop_map f k t.entries)

omit [DecidableEq κ] in
@[simp] theorem length_map (t : Table κ α) : (t.map f).entries.length = t.entries.length :=
  List.length_map ..

end Map

private theorem total_put {k : κ} {v : α} {l : List (κ × α)} (h : find k l = some v) (f : α → Nat)
    (v' : α) :
    (put k v' l).foldr (fun e n => f e.2 + n) 0 + f v = l.foldr (fun e n => f e.2 + n) 0 + f v' := by
  induction l with
  | nil => cases h
  | cons e l ih =>
    obtain ⟨a, b⟩ := e
    by_cases ha : a = k
    · rw [find, if_pos ha] at h
      cases h
      simp only [put, if_pos ha, List.foldr_cons]
      omega
    · rw [find, if_neg ha] at h
      have := ih h
      simp only [put, if_neg ha, List.foldr_cons]
      omega

/-- Where a value is replaced, the sum changes by what it counts. -/
theorem total_insert {t : Table κ α} {k : κ} {v : α} (h : t.get? k = some v) (f : α → Nat) (v' : α) :
    (t.insert k v').total f + f v = t.total f + f v' :=
  total_put h f v'

omit [DecidableEq κ] in
theorem total_map {β : Type} (t : Table κ α) (g : α → β) (f : β → Nat) :
    (t.map g).total f = t.total (f ∘ g) :=
  List.foldr_map ..

theorem mem_keys (t : Table κ α) (k : κ) : k ∈ t.keys ↔ t.contains k = true :=
  (find_isSome k t.entries).symm

end Table

end StreamWorker
