import Metrology.Error

/-!
# Dimensions

A primitive is an independent physical quantity, such as a length. Primitives of one name may be
different: each has the number under which it was minted, and is ordered by it. A dimension is a
product of integer powers of primitives, kept in one canonical form: every primitive at most once,
in increasing order, with an exponent that is not zero. Hence two dimensions are equal when they
are the same list, and the empty list is the dimension of pure numbers.
-/

namespace Metrology

/-- An independent physical quantity. -/
structure Primitive where
  /-- The number under which it was minted. -/
  index : Nat
  /-- What it is called. -/
  name : String
  deriving DecidableEq, Repr, Inhabited

namespace Primitive

/-- A primitive of the given name with all its parts, the name as it is to be shown. -/
def listingOf (name : String) : String := s!"Primitive({name})"

/-- The order of primitives: by number, then by name. -/
def Before (p q : Primitive) : Prop := p.index < q.index ∨ p.index = q.index ∧ p.name < q.name

instance : DecidableRel Before := fun p q =>
  inferInstanceAs (Decidable (p.index < q.index ∨ p.index = q.index ∧ p.name < q.name))

theorem not_before_self (p : Primitive) : ¬ p.Before p := by
  rintro (h | ⟨-, h⟩)
  · exact Nat.lt_irrefl _ h
  · exact String.lt_irrefl _ h

theorem Before.trans {p q r : Primitive} (hpq : p.Before q) (hqr : q.Before r) : p.Before r := by
  unfold Before at *
  rcases hpq with h | ⟨h, hn⟩
  · rcases hqr with h' | ⟨h', -⟩ <;> left <;> omega
  · rcases hqr with h' | ⟨h', hn'⟩
    · left
      omega
    · exact Or.inr ⟨h.trans h', String.lt_trans hn hn'⟩

/-- Of two different primitives one is before the other. -/
theorem before_or_before_of_ne {p q : Primitive} (h : p ≠ q) : p.Before q ∨ q.Before p := by
  unfold Before
  rcases Nat.lt_trichotomy p.index q.index with hi | hi | hi
  · exact Or.inl (Or.inl hi)
  · by_cases hn : p.name < q.name
    · exact Or.inl (Or.inr ⟨hi, hn⟩)
    · by_cases hn' : q.name < p.name
      · exact Or.inr (Or.inr ⟨hi.symm, hn'⟩)
      · exfalso
        apply h
        have hname : p.name = q.name :=
          String.le_antisymm (String.not_lt.mp hn') (String.not_lt.mp hn)
        cases p
        cases q
        simp_all
  · exact Or.inr (Or.inl hi)

end Primitive

/-- A primitive with an exponent. -/
abbrev Entry := Primitive × Int

namespace Entry

/-- The entries in canonical form: in strictly increasing order of their primitives, with
exponents that are not zero. -/
structure Canonical (entries : List Entry) : Prop where
  sorted : entries.Pairwise fun a b => a.1.Before b.1
  nonzero : ∀ e ∈ entries, e.2 ≠ 0

/-- Multiplies canonical entries by the power `p ^ n`. -/
def insert (p : Primitive) (n : Int) : List Entry → List Entry
  | [] => if n = 0 then [] else [(p, n)]
  | (q, m) :: rest =>
    if p = q then if m + n = 0 then rest else (q, m + n) :: rest
    else if p.Before q then if n = 0 then (q, m) :: rest else (p, n) :: (q, m) :: rest
    else (q, m) :: insert p n rest

theorem mem_insert {p : Primitive} {n : Int} {entries : List Entry} {e : Entry}
    (h : e ∈ insert p n entries) : e.1 = p ∨ e ∈ entries := by
  induction entries with
  | nil =>
    simp only [insert] at h
    split at h
    · simp at h
    · simp only [List.mem_singleton] at h
      exact Or.inl (by rw [h])
  | cons head rest ih =>
    obtain ⟨q, m⟩ := head
    simp only [insert] at h
    split at h
    · rename_i hpq
      split at h
      · exact Or.inr (List.mem_cons_of_mem _ h)
      · rcases List.mem_cons.mp h with h | h
        · exact Or.inl (by rw [h, hpq])
        · exact Or.inr (List.mem_cons_of_mem _ h)
    · split at h
      · split at h
        · exact Or.inr h
        · rcases List.mem_cons.mp h with h | h
          · exact Or.inl (by rw [h])
          · exact Or.inr h
      · rcases List.mem_cons.mp h with h | h
        · exact Or.inr (by rw [h]; exact List.mem_cons_self)
        · rcases ih h with h | h
          · exact Or.inl h
          · exact Or.inr (List.mem_cons_of_mem _ h)

/-- Multiplication by a power keeps entries canonical. -/
theorem Canonical.insert {entries : List Entry} (h : Canonical entries) (p : Primitive)
    (n : Int) : Canonical (Entry.insert p n entries) := by
  induction entries with
  | nil =>
    by_cases hn : n = 0
    · simpa [Entry.insert, hn] using h
    · constructor <;> simp [Entry.insert, hn]
  | cons head rest ih =>
    obtain ⟨q, m⟩ := head
    obtain ⟨hs, hz⟩ := h
    rw [List.pairwise_cons] at hs
    obtain ⟨hq, hs⟩ := hs
    have hrest : Canonical rest := ⟨hs, fun e he => hz e (List.mem_cons_of_mem _ he)⟩
    simp only [Entry.insert]
    split
    · -- The power joins the first entry, which goes when the exponents cancel.
      split
      · exact hrest
      · rename_i hn
        refine ⟨List.pairwise_cons.mpr ⟨hq, hs⟩, ?_⟩
        intro e he
        rcases List.mem_cons.mp he with rfl | he
        · exact hn
        · exact hrest.nonzero e he
    · rename_i hpq
      split
      · -- The power comes before all entries.
        rename_i hb
        split
        · exact ⟨List.pairwise_cons.mpr ⟨hq, hs⟩, hz⟩
        · rename_i hn
          refine ⟨List.pairwise_cons.mpr ⟨?_, List.pairwise_cons.mpr ⟨hq, hs⟩⟩, ?_⟩
          · intro e he
            rcases List.mem_cons.mp he with rfl | he
            · exact hb
            · exact hb.trans (hq e he)
          · intro e he
            rcases List.mem_cons.mp he with rfl | he
            · exact hn
            · exact hz e he
      · -- The power belongs behind the first entry.
        rename_i hb
        obtain ⟨hs', hz'⟩ := ih hrest
        refine ⟨List.pairwise_cons.mpr ⟨?_, hs'⟩, ?_⟩
        · intro e he
          rcases mem_insert he with he | he
          · rw [he]
            exact (Primitive.before_or_before_of_ne hpq).resolve_left hb
          · exact hq e he
        · intro e he
          rcases List.mem_cons.mp he with rfl | he
          · exact hz (q, m) List.mem_cons_self
          · exact hz' e he

/-- The canonical form of a product of powers. -/
def normalize (entries : List Entry) : List Entry :=
  entries.foldr (fun e acc => insert e.1 e.2 acc) []

theorem canonical_normalize (entries : List Entry) : Canonical (normalize entries) := by
  induction entries with
  | nil => exact ⟨List.Pairwise.nil, by simp [normalize]⟩
  | cons e rest ih => exact ih.insert e.1 e.2

end Entry

/-- A product of integer powers of primitives, in canonical form. -/
structure Dimension where
  /-- The primitives with their exponents. -/
  entries : List Entry
  /-- The entries are in canonical form. -/
  canonical : Entry.Canonical entries

namespace Dimension

instance : DecidableEq Dimension := fun a b =>
  decidable_of_iff (a.entries = b.entries) (by cases a; cases b; simp)

@[ext] theorem ext {a b : Dimension} (h : a.entries = b.entries) : a = b := by
  cases a
  cases b
  simp_all

/-- The product of the powers, in whatever order and however often the primitives come. -/
def ofEntries (entries : List Entry) : Dimension :=
  ⟨Entry.normalize entries, Entry.canonical_normalize entries⟩

/-- The dimension of pure numbers. -/
def dimensionless : Dimension := ⟨[], List.Pairwise.nil, by simp⟩

instance : Inhabited Dimension := ⟨dimensionless⟩

/-- The dimension of a primitive itself. -/
def ofPrimitive (p : Primitive) : Dimension := ofEntries [(p, 1)]

/-- Whether a dimension is that of pure numbers. -/
def isDimensionless (d : Dimension) : Bool := d.entries.isEmpty

/-- The exponent of a primitive in a dimension. -/
def exponent (d : Dimension) (p : Primitive) : Int := (d.entries.lookup p).getD 0

/-- The product of two dimensions: exponents are added. -/
def mul (a b : Dimension) : Dimension := ofEntries (a.entries ++ b.entries)

/-- The quotient of two dimensions: exponents are subtracted. -/
def div (a b : Dimension) : Dimension :=
  ofEntries (a.entries ++ b.entries.map fun e => (e.1, -e.2))

/-- The integer power of a dimension: exponents are multiplied. -/
def pow (d : Dimension) (n : Int) : Dimension := ofEntries (d.entries.map fun e => (e.1, e.2 * n))

/-- A digit or a minus sign as a superscript. -/
def superscriptChar : Char → Char
  | '0' => '⁰'
  | '1' => '¹'
  | '2' => '²'
  | '3' => '³'
  | '4' => '⁴'
  | '5' => '⁵'
  | '6' => '⁶'
  | '7' => '⁷'
  | '8' => '⁸'
  | '9' => '⁹'
  | '-' => '⁻'
  | c => c

/-- A text with its digits and minus signs as superscripts. -/
def raised (s : String) : String := String.ofList (s.toList.map superscriptChar)

/-- An exponent as a superscript, which is left out when it is one. -/
def superscript (n : Int) : String := if n = 1 then "" else raised (toString n)

/-- A dimension as a reader sees it: powers joined by dots, and `1` for pure numbers. -/
def text (d : Dimension) : String :=
  if d.isDimensionless then "1"
  else "·".intercalate (d.entries.map fun e => e.1.name ++ superscript e.2)

/-- A dimension as its list of powers. -/
def listing (d : Dimension) : String :=
  String.join (d.entries.map fun e => s!"[{e.1.name}^{e.2}]")

end Dimension

end Metrology
