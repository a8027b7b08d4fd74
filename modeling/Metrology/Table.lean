/-!
# Tables that keep the order of definition

A table gives values to keys. The keys stand in the order in which they were first defined, and a
key that is defined again keeps its place. What a look-up gives after a definition is said by
`get?_put_self` and `get?_put_of_ne`.
-/

namespace Metrology

/-- A table from keys to values in the order of definition. -/
structure Table (κ α : Type) where
  /-- The keys with their values. -/
  entries : List (κ × α)
  /-- No key stands twice. -/
  nodup : (entries.map Prod.fst).Nodup

namespace Table

variable {κ α : Type} [DecidableEq κ]

/-- The value of a key in a list of entries. -/
def find (k : κ) : List (κ × α) → Option α
  | [] => none
  | (k', v) :: rest => if k' = k then some v else find k rest

/-- The entries after a key has been given a value. -/
def putEntry (k : κ) (v : α) : List (κ × α) → List (κ × α)
  | [] => [(k, v)]
  | (k', v') :: rest => if k' = k then (k, v) :: rest else (k', v') :: putEntry k v rest

theorem mem_keys_putEntry {k x : κ} {v : α} {entries : List (κ × α)} :
    x ∈ (putEntry k v entries).map Prod.fst ↔ x = k ∨ x ∈ entries.map Prod.fst := by
  induction entries with
  | nil => simp [putEntry]
  | cons e rest ih =>
    obtain ⟨k', v'⟩ := e
    by_cases h : k' = k
    · simp [putEntry, h]
    · simp only [putEntry, h, if_false, List.map_cons, List.mem_cons, ih]
      constructor
      · rintro (h | h | h)
        · exact Or.inr (Or.inl h)
        · exact Or.inl h
        · exact Or.inr (Or.inr h)
      · rintro (h | h | h)
        · exact Or.inr (Or.inl h)
        · exact Or.inl h
        · exact Or.inr (Or.inr h)

theorem nodup_putEntry {k : κ} {v : α} {entries : List (κ × α)}
    (h : (entries.map Prod.fst).Nodup) : ((putEntry k v entries).map Prod.fst).Nodup := by
  induction entries with
  | nil => simp [putEntry]
  | cons e rest ih =>
    obtain ⟨k', v'⟩ := e
    rw [List.map_cons, List.nodup_cons] at h
    by_cases hk : k' = k
    · subst hk
      simpa [putEntry] using h
    · simp only [putEntry, hk, if_false, List.map_cons, List.nodup_cons]
      refine ⟨?_, ih h.2⟩
      rw [mem_keys_putEntry]
      rintro (h' | h')
      · exact hk h'
      · exact h.1 h'

/-- The table without entries. -/
def empty : Table κ α := ⟨[], by simp⟩

instance : Inhabited (Table κ α) := ⟨empty⟩

/-- The value of a key. -/
def get? (t : Table κ α) (k : κ) : Option α := find k t.entries

/-- Whether a key has a value. -/
def contains (t : Table κ α) (k : κ) : Bool := (t.get? k).isSome

/-- The table after a key has been given a value. -/
def put (t : Table κ α) (k : κ) (v : α) : Table κ α :=
  ⟨putEntry k v t.entries, nodup_putEntry t.nodup⟩

/-- The table after a key has been given a value, unless it had one before. -/
def putNew (t : Table κ α) (k : κ) (v : α) : Table κ α := if t.contains k then t else t.put k v

/-- The table of the keys that are accepted. -/
def filter (t : Table κ α) (accepts : κ → Bool) : Table κ α :=
  ⟨t.entries.filter fun e => accepts e.1, t.nodup.sublist (List.filter_sublist.map _)⟩

/-- The keys in the order of definition. -/
def keys (t : Table κ α) : List κ := t.entries.map Prod.fst

/-- How many keys have a value. -/
def size (t : Table κ α) : Nat := t.entries.length

/-- The table of a list of definitions, of which later ones replace earlier ones. -/
def ofList (definitions : List (κ × α)) : Table κ α :=
  definitions.foldl (fun t e => t.put e.1 e.2) empty

theorem get?_put_self (t : Table κ α) (k : κ) (v : α) : (t.put k v).get? k = some v := by
  obtain ⟨entries, h⟩ := t
  simp only [get?, put]
  clear h
  induction entries with
  | nil => simp [putEntry, find]
  | cons e rest ih =>
    obtain ⟨k', v'⟩ := e
    by_cases hk : k' = k <;> simp [putEntry, find, hk, ih]

theorem get?_put_of_ne (t : Table κ α) {k x : κ} (v : α) (hx : x ≠ k) :
    (t.put k v).get? x = t.get? x := by
  obtain ⟨entries, h⟩ := t
  simp only [get?, put]
  clear h
  induction entries with
  | nil => simp [putEntry, find, hx.symm]
  | cons e rest ih =>
    obtain ⟨k', v'⟩ := e
    by_cases hk : k' = k
    · subst hk
      simp [putEntry, find, hx.symm]
    · simp [putEntry, find, hk, ih]

@[simp] theorem get?_empty (k : κ) : (empty : Table κ α).get? k = none := rfl

end Table

end Metrology
