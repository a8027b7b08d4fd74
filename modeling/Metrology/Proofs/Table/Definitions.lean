import Metrology.Table

/-!
# Tables after definitions

What a table is after one definition or a row of them: `ofList_entries` says that a table is
determined by its entries and can be built from them again, and `get?_putAll` what every key is
worth after all of some keys have been given one value.  `putAll_eq_self_iff` says when that
changes nothing at all.
-/

namespace Metrology

namespace Table

variable {κ α : Type} [DecidableEq κ]

omit [DecidableEq κ] in
theorem ext {t u : Table κ α} (h : t.entries = u.entries) : t = u := by
  obtain ⟨entries, ht⟩ := t
  obtain ⟨entries', hu⟩ := u
  obtain rfl : entries = entries' := h
  rfl

theorem get?_eq_some_iff {t : Table κ α} {k : κ} {v : α} :
    t.get? k = some v ↔ (k, v) ∈ t.entries := by
  obtain ⟨entries, hn⟩ := t
  show find k entries = some v ↔ (k, v) ∈ entries
  induction entries with
  | nil => simp [find]
  | cons e rest ih =>
    obtain ⟨k', v'⟩ := e
    rw [List.map_cons, List.nodup_cons] at hn
    rw [find, List.mem_cons, Prod.mk.injEq]
    by_cases hk : k' = k
    · -- The key stands here, so it does not stand again further on.
      subst hk
      have hrest : (k', v) ∉ rest := fun hmem => hn.1 (List.mem_map.mpr ⟨_, hmem, rfl⟩)
      rw [if_pos rfl, Option.some.injEq]
      exact ⟨fun h => .inl ⟨rfl, h.symm⟩, fun h => (h.resolve_right hrest).2.symm⟩
    · rw [if_neg hk, ih hn.2]
      exact ⟨.inr, fun h => h.resolve_left fun heq => hk heq.1.symm⟩

theorem size_eq_zero_iff {t : Table κ α} : t.size = 0 ↔ ∀ k, t.get? k = none := by
  rw [size, List.length_eq_zero_iff, List.eq_nil_iff_forall_not_mem]
  constructor
  · intro h k
    rw [Option.eq_none_iff_forall_ne_some]
    intro v hv
    exact h (k, v) (get?_eq_some_iff.mp hv)
  · rintro h ⟨k, v⟩ hmem
    cases (h k).symm.trans (get?_eq_some_iff.mpr hmem)

/-- The order of the entries does not count. -/
theorem get?_eq_of_perm {t u : Table κ α} (h : t.entries.Perm u.entries) (k : κ) :
    t.get? k = u.get? k := by
  refine Option.ext fun v => ?_
  rw [get?_eq_some_iff, get?_eq_some_iff]
  exact h.mem_iff

/-! ### A table is its entries -/

/-- A key that is new is put behind all others. -/
theorem putEntry_of_notMem {k : κ} (v : α) {entries : List (κ × α)}
    (h : k ∉ entries.map Prod.fst) : putEntry k v entries = entries ++ [(k, v)] := by
  induction entries with
  | nil => rfl
  | cons e rest ih =>
    obtain ⟨k', v'⟩ := e
    rw [List.map_cons, List.mem_cons, not_or] at h
    have hne : k' ≠ k := fun hk => h.1 hk.symm
    rw [putEntry, if_neg hne, ih h.2, List.cons_append]

theorem entries_foldl_put (t : Table κ α) (definitions : List (κ × α))
    (h : ((t.entries ++ definitions).map Prod.fst).Nodup) :
    (definitions.foldl (fun t e => t.put e.1 e.2) t).entries = t.entries ++ definitions := by
  induction definitions generalizing t with
  | nil => simp
  | cons e rest ih =>
    obtain ⟨k, v⟩ := e
    have hk : k ∉ t.entries.map Prod.fst := by
      rw [List.map_append, List.nodup_append] at h
      exact fun hmem => h.2.2 k hmem k List.mem_cons_self rfl
    have hput : (t.put k v).entries = t.entries ++ [(k, v)] := putEntry_of_notMem v hk
    have happend : t.entries ++ (k, v) :: rest = (t.put k v).entries ++ rest := by
      rw [hput, List.append_assoc, List.singleton_append]
    rw [List.foldl_cons, happend]
    exact ih (t.put k v) (happend ▸ h)

/-- **A table is its entries**: the definitions that it lists give the same table again. -/
theorem ofList_entries (t : Table κ α) : ofList t.entries = t :=
  ext (entries_foldl_put empty t.entries t.nodup)

/-! ### Giving one value to many keys -/

/-- The table after all of some keys have been given one value. -/
abbrev putAll (t : Table κ α) (keys : List κ) (v : α) : Table κ α :=
  keys.foldl (fun table k => table.put k v) t

theorem get?_put (t : Table κ α) (k x : κ) (v : α) :
    (t.put k v).get? x = if x = k then some v else t.get? x := by
  by_cases h : x = k
  · rw [if_pos h, h, get?_put_self]
  · rw [if_neg h, get?_put_of_ne t v h]

theorem get?_putAll (t : Table κ α) (keys : List κ) (v : α) (x : κ) :
    (t.putAll keys v).get? x = if x ∈ keys then some v else t.get? x := by
  induction keys generalizing t with
  | nil => simp
  | cons k rest ih =>
    rw [putAll, List.foldl_cons, ← putAll, ih, get?_put]
    by_cases hr : x ∈ rest
    · rw [if_pos hr, if_pos (List.mem_cons_of_mem k hr)]
    · rw [if_neg hr]
      simp only [List.mem_cons, hr, or_false]

/-- A key that is given the value that it has keeps its place, so nothing changes. -/
theorem put_eq_self {t : Table κ α} {k : κ} {v : α} (h : t.get? k = some v) : t.put k v = t := by
  obtain ⟨entries, hn⟩ := t
  refine ext ?_
  show putEntry k v entries = entries
  change find k entries = some v at h
  clear hn
  induction entries with
  | nil => cases h
  | cons e rest ih =>
    obtain ⟨k', v'⟩ := e
    rw [find] at h
    rw [putEntry]
    by_cases hk : k' = k
    · rw [if_pos hk] at h ⊢
      rw [hk, Option.some.inj h]
    · rw [if_neg hk] at h ⊢
      rw [ih h]

/-- A key that has a value keeps it when values are given to new keys only. -/
theorem get?_putNew_of_some {t : Table κ α} {x : κ} {v : α} (h : t.get? x = some v) (k : κ)
    (w : α) : (t.putNew k w).get? x = some v := by
  by_cases hk : t.contains k = true
  · rw [putNew, if_pos hk, h]
  · have hne : x ≠ k := by
      rintro rfl
      rw [contains, h] at hk
      exact hk rfl
    rw [putNew, if_neg hk, get?_put_of_ne t w hne, h]

/-- Giving one value to many keys changes nothing just when all of them have that value. -/
theorem putAll_eq_self_iff (t : Table κ α) (keys : List κ) (v : α) :
    t.putAll keys v = t ↔ ∀ k ∈ keys, t.get? k = some v := by
  constructor
  · intro h k hk
    rw [← h, get?_putAll, if_pos hk]
  · intro h
    induction keys with
    | nil => rfl
    | cons k rest ih =>
      rw [putAll, List.foldl_cons, put_eq_self (h k List.mem_cons_self)]
      exact ih fun x hx => h x (List.mem_cons_of_mem k hx)

end Table

end Metrology
