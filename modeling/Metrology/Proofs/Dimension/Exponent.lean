import Metrology.Dimension
import Mathlib.Algebra.Group.Int.Defs
import Mathlib.Algebra.Group.Basic

/-!
# The exponents of a dimension

A dimension is known by its exponents (`Dimension.ext_exponent`), and the operations on dimensions
work exponent by exponent: products add them (`exponent_mul`), quotients subtract them
(`exponent_div`) and powers multiply them (`exponent_pow`).

The proofs go through `Entry.total`, the sum of the exponents that a list of entries gives to a
primitive.  Canonical form does not change it (`total_normalize`), and of canonical entries it is
the exponent that is listed (`exponent_eq_total`).
-/

namespace Metrology

namespace Entry

/-! ### The sum of exponents -/

/-- The sum of the exponents that `entries` give to `p`. -/
def total (p : Primitive) : List Entry → Int
  | [] => 0
  | e :: rest => (if e.1 = p then e.2 else 0) + total p rest

@[simp] theorem total_nil (p : Primitive) : total p [] = 0 := rfl

theorem total_cons (p : Primitive) (e : Entry) (rest : List Entry) :
    total p (e :: rest) = (if e.1 = p then e.2 else 0) + total p rest := rfl

theorem total_append (p : Primitive) (as bs : List Entry) :
    total p (as ++ bs) = total p as + total p bs := by
  induction as with
  | nil => rw [List.nil_append, total_nil, zero_add]
  | cons a as ih => rw [List.cons_append, total_cons, total_cons, ih, add_assoc]

/-- A map of exponents that respects sums respects the sum of exponents. -/
theorem total_map (p : Primitive) (f : Int → Int) (h0 : f 0 = 0)
    (hadd : ∀ m n, f (m + n) = f m + f n) (entries : List Entry) :
    total p (entries.map fun e => (e.1, f e.2)) = f (total p entries) := by
  induction entries with
  | nil => exact h0.symm
  | cons e rest ih =>
    rw [List.map_cons, total_cons, total_cons, ih, hadd]
    congr 1
    dsimp only
    split_ifs
    · rfl
    · exact h0.symm

/-- A primitive that has no entry has the sum zero. -/
theorem total_eq_zero {p : Primitive} {entries : List Entry} (h : ∀ e ∈ entries, e.1 ≠ p) :
    total p entries = 0 := by
  induction entries with
  | nil => rfl
  | cons e rest ih =>
    rw [total_cons, if_neg (h e List.mem_cons_self), zero_add]
    exact ih fun x hx => h x (List.mem_cons_of_mem _ hx)

theorem total_insert (p q : Primitive) (n : Int) (entries : List Entry) :
    total p (insert q n entries) = (if q = p then n else 0) + total p entries := by
  induction entries with
  | nil =>
    unfold insert
    by_cases hn : n = 0
    · simp [hn]
    · simp [hn, total_cons]
  | cons head rest ih =>
    obtain ⟨r, m⟩ := head
    rw [insert]
    by_cases hq : q = r
    · -- The power joins the first entry, which goes when the exponents cancel.
      subst hq
      rw [if_pos rfl, total_cons]
      by_cases hmn : m + n = 0
      · rw [if_pos hmn]
        split_ifs <;> omega
      · rw [if_neg hmn, total_cons]
        split_ifs <;> omega
    · rw [if_neg hq]
      by_cases hb : q.Before r
      · rw [if_pos hb]
        by_cases hn : n = 0
        · rw [if_pos hn, hn, ite_self, zero_add]
        · rw [if_neg hn, total_cons]
      · rw [if_neg hb, total_cons, total_cons, ih]
        omega

/-- Canonical form keeps the sum of the exponents of every primitive. -/
theorem total_normalize (p : Primitive) (entries : List Entry) :
    total p (normalize entries) = total p entries := by
  induction entries with
  | nil => rfl
  | cons e rest ih => exact (total_insert p e.1 e.2 (normalize rest)).trans (by rw [ih, total_cons])

/-! ### Canonical entries -/

theorem Canonical.tail {e : Entry} {rest : List Entry} (h : Canonical (e :: rest)) :
    Canonical rest :=
  ⟨(List.pairwise_cons.mp h.sorted).2, fun x hx => h.nonzero x (List.mem_cons_of_mem _ hx)⟩

/-- A primitive that is not behind the first of canonical entries is in none of the others. -/
theorem Canonical.total_tail {e : Entry} {rest : List Entry} (h : Canonical (e :: rest))
    {p : Primitive} (hp : ¬ e.1.Before p) : total p rest = 0 := by
  apply total_eq_zero
  rintro x hx rfl
  exact hp ((List.pairwise_cons.mp h.sorted).1 x hx)

/-- The first of canonical entries has the sum of its primitive as its exponent. -/
theorem Canonical.total_head {e : Entry} {rest : List Entry} (h : Canonical (e :: rest)) :
    total e.1 (e :: rest) = e.2 := by
  rw [total_cons, if_pos rfl, h.total_tail e.1.not_before_self, add_zero]

/-- A primitive before the first of canonical entries has the sum zero. -/
theorem Canonical.total_of_before {e : Entry} {rest : List Entry} (h : Canonical (e :: rest))
    {p : Primitive} (hp : p.Before e.1) : total p (e :: rest) = 0 := by
  have hne : e.1 ≠ p := by
    rintro rfl
    exact e.1.not_before_self hp
  rw [total_cons, if_neg hne, h.total_tail fun hb => p.not_before_self (hp.trans hb), add_zero]

/-- Canonical entries are determined by the sums of exponents. -/
theorem Canonical.ext_total {as bs : List Entry} (ha : Canonical as) (hb : Canonical bs)
    (h : ∀ p, total p as = total p bs) : as = bs := by
  induction as generalizing bs with
  | nil =>
    cases bs with
    | nil => rfl
    | cons b bs =>
      have := h b.1
      rw [hb.total_head, total_nil] at this
      exact absurd this.symm (hb.nonzero b List.mem_cons_self)
  | cons a as ih =>
    cases bs with
    | nil =>
      have := h a.1
      rw [ha.total_head, total_nil] at this
      exact absurd this (ha.nonzero a List.mem_cons_self)
    | cons b bs =>
      -- The first primitives agree, since one before the other would have an exponent there only.
      have hp : a.1 = b.1 := by
        by_contra hne
        rcases Primitive.before_or_before_of_ne hne with hlt | hlt
        · have := h a.1
          rw [ha.total_head, hb.total_of_before hlt] at this
          exact ha.nonzero a List.mem_cons_self this
        · have := h b.1
          rw [ha.total_of_before hlt, hb.total_head] at this
          exact hb.nonzero b List.mem_cons_self this.symm
      have hn : a.2 = b.2 := by
        rw [← ha.total_head, ← hb.total_head, ← hp]
        exact h a.1
      have hab : a = b := Prod.ext hp hn
      subst hab
      rw [ih ha.tail hb.tail fun p => ?_]
      have := h p
      rw [total_cons, total_cons] at this
      omega

end Entry

namespace Dimension

open Entry

/-! ### Exponents of products, quotients and powers -/

/-- The exponent that is listed is the sum of those of the entries. -/
theorem exponent_eq_total (d : Dimension) (p : Primitive) : d.exponent p = total p d.entries := by
  obtain ⟨entries, h⟩ := d
  unfold exponent
  dsimp only
  induction entries with
  | nil => rfl
  | cons e rest ih =>
    obtain ⟨q, m⟩ := e
    by_cases hp : p = q
    · subst hp
      rw [h.total_head, List.lookup_cons_self, Option.getD_some]
    · rw [List.lookup_cons, beq_false_of_ne hp, total_cons, if_neg (Ne.symm hp), zero_add]
      exact ih h.tail

theorem exponent_ofEntries (entries : List Entry) (p : Primitive) :
    (ofEntries entries).exponent p = total p entries := by
  rw [exponent_eq_total]
  exact total_normalize p entries

@[simp] theorem exponent_dimensionless (p : Primitive) : dimensionless.exponent p = 0 := rfl

@[simp] theorem exponent_mul (a b : Dimension) (p : Primitive) :
    (a.mul b).exponent p = a.exponent p + b.exponent p := by
  rw [mul, exponent_ofEntries, total_append, exponent_eq_total, exponent_eq_total]

@[simp] theorem exponent_div (a b : Dimension) (p : Primitive) :
    (a.div b).exponent p = a.exponent p - b.exponent p := by
  rw [div, exponent_ofEntries, total_append, total_map p (fun n => -n) (by omega) (by omega),
    exponent_eq_total, exponent_eq_total]
  omega

@[simp] theorem exponent_pow (d : Dimension) (n : Int) (p : Primitive) :
    (d.pow n).exponent p = d.exponent p * n := by
  rw [pow, exponent_ofEntries, total_map p (fun m => m * n) (Int.zero_mul n)
    (fun a b => Int.add_mul a b n), exponent_eq_total]

/-- **Dimensions are equal when all exponents are.** -/
theorem ext_exponent {a b : Dimension} (h : ∀ p, a.exponent p = b.exponent p) : a = b := by
  apply Dimension.ext
  apply a.canonical.ext_total b.canonical
  intro p
  rw [← exponent_eq_total, ← exponent_eq_total]
  exact h p

end Dimension

end Metrology
