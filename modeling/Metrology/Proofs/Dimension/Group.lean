import Metrology.Proofs.Dimension.Exponent
import Mathlib.Algebra.Group.InjSurj
import Mathlib.Algebra.Group.Pi.Basic
import Mathlib.Algebra.Group.TypeTags.Basic
import Mathlib.Algebra.Ring.Int.Defs

/-!
# Canonical form and the group of dimensions

However the powers of a product come, in any order, repeated, cancelling or gathered in groups, its
dimension is one list: every primitive whose exponents do not cancel, once, with their sum, in the
order of minting.  So dimensions that have equal exponents are equal, and the laws of exponents are
laws of dimensions: these form an abelian group, in which `Dimension.pow` is the integer power.

The main result is `ofEntries_canonical`.  The listing is read off canonical entries
(`Canonical.total_of_mem`, `mem_entries_iff`), and two lists of entries have the same dimension just
when they have the same sums of exponents (`ofEntries_eq_iff`), which is why neither order
(`total_perm`) nor grouping (`total_flatten_normalize`) counts.
-/

namespace Metrology

namespace Entry

variable {p : Primitive} {entries : List Entry}

/-! ### Order and grouping -/

theorem total_perm (p : Primitive) {as bs : List Entry} (h : as.Perm bs) :
    total p as = total p bs := by
  induction h with
  | nil => rfl
  | cons e _ ih => rw [total_cons, total_cons, ih]
  | swap a b rest =>
    rw [total_cons, total_cons, total_cons, total_cons]
    omega
  | trans _ _ ih₁ ih₂ => exact ih₁.trans ih₂

/-- Groups of entries may be brought into canonical form before they are joined. -/
theorem total_flatten_normalize (p : Primitive) (groups : List (List Entry)) :
    total p (groups.map normalize).flatten = total p groups.flatten := by
  induction groups with
  | nil => rfl
  | cons group rest ih =>
    rw [List.map_cons, List.flatten_cons, List.flatten_cons, total_append, total_append,
      total_normalize, ih]

/-! ### The listing -/

/-- The exponent listed for a primitive is the sum of its exponents, for there is no other entry. -/
theorem Canonical.total_of_mem (h : Canonical entries) {e : Entry} (he : e ∈ entries) :
    total e.1 entries = e.2 := by
  induction entries with
  | nil => cases he
  | cons head rest ih =>
    rcases List.mem_cons.mp he with rfl | hmem
    · exact h.total_head
    · have hbefore : head.1.Before e.1 := (List.pairwise_cons.mp h.sorted).1 e hmem
      have hne : head.1 ≠ e.1 := by
        intro heq
        rw [heq] at hbefore
        exact e.1.not_before_self hbefore
      rw [total_cons, if_neg hne, zero_add]
      exact ih h.tail hmem

/-- Just the primitives whose exponents do not cancel are listed. -/
theorem Canonical.mem_iff (h : Canonical entries) (n : Int) :
    (p, n) ∈ entries ↔ n ≠ 0 ∧ n = total p entries := by
  constructor
  · intro hmem
    exact ⟨h.nonzero _ hmem, (h.total_of_mem hmem).symm⟩
  · rintro ⟨hn, htotal⟩
    by_contra hnot
    have hzero : total p entries = 0 := by
      apply total_eq_zero
      rintro ⟨q, k⟩ hmem rfl
      apply hnot
      rw [htotal, h.total_of_mem hmem]
      exact hmem
    exact hn (htotal.trans hzero)

theorem Canonical.nodup (h : Canonical entries) : (entries.map Prod.fst).Nodup := by
  rw [List.nodup_iff_pairwise_ne, List.pairwise_map]
  refine h.sorted.imp fun {a b} hab heq => ?_
  rw [heq] at hab
  exact b.1.not_before_self hab

/-- Different primitives of the entries have been minted under different numbers. -/
def MintedApart (entries : List Entry) : Prop :=
  ∀ a ∈ entries, ∀ b ∈ entries, a.1.index = b.1.index → a.1 = b.1

/-- Canonical form lists no primitive that was not there. -/
theorem exists_mem_of_mem_normalize {e : Entry} (he : e ∈ normalize entries) :
    ∃ a ∈ entries, a.1 = e.1 := by
  have hcanonical := canonical_normalize entries
  by_contra hnone
  have hzero : total e.1 entries = 0 :=
    total_eq_zero fun a ha heq => hnone ⟨a, ha, heq⟩
  rw [← total_normalize, hcanonical.total_of_mem he] at hzero
  exact hcanonical.nonzero e he hzero

/-- Where numbers tell primitives apart, canonical form goes by increasing numbers. -/
theorem pairwise_index_normalize (h : MintedApart entries) :
    (normalize entries).Pairwise fun a b => a.1.index < b.1.index := by
  refine (canonical_normalize entries).sorted.imp_of_mem fun {a b} ha hb hab => ?_
  obtain ⟨c, hc, hca⟩ := exists_mem_of_mem_normalize ha
  obtain ⟨d, hd, hdb⟩ := exists_mem_of_mem_normalize hb
  rcases hab with hlt | ⟨heq, hname⟩
  · exact hlt
  · have hsame : c.1 = d.1 := h c hc d hd (by rw [hca, hdb, heq])
    rw [← hca, ← hdb, hsame] at hname
    exact absurd hname (String.lt_irrefl _)

end Entry

namespace Dimension

open Entry

/-! ### Equality -/

theorem eq_iff_exponent {a b : Dimension} : a = b ↔ ∀ p, a.exponent p = b.exponent p :=
  ⟨fun h _ => by rw [h], ext_exponent⟩

theorem ofEntries_eq_iff {as bs : List Entry} :
    ofEntries as = ofEntries bs ↔ ∀ p, total p as = total p bs := by
  simp only [eq_iff_exponent, exponent_ofEntries]

/-! ### The group of dimensions -/

/-- The exponents of a dimension, written so that they are added where dimensions are multiplied. -/
def exponents (d : Dimension) (p : Primitive) : Multiplicative Int := .ofAdd (d.exponent p)

theorem exponents_injective : Function.Injective exponents := fun _ _ h =>
  ext_exponent fun p => congrArg Multiplicative.toAdd (congrFun h p)

theorem exponents_pow (d : Dimension) (n : Int) : exponents (d.pow n) = exponents d ^ n := by
  funext p
  rw [exponents, exponent_pow, mul_comm]
  exact ofAdd_zsmul n (d.exponent p)

instance : One Dimension := ⟨dimensionless⟩

instance : Mul Dimension := ⟨mul⟩

instance : Inv Dimension := ⟨fun d => d.pow (-1)⟩

instance : Div Dimension := ⟨div⟩

instance : Pow Dimension Nat := ⟨fun d n => d.pow n⟩

instance : Pow Dimension Int := ⟨pow⟩

/-- Dimensions are an abelian group, because their exponents are and determine them. -/
instance : CommGroup Dimension :=
  exponents_injective.commGroup exponents rfl
    (fun a b => funext fun p => congrArg Multiplicative.ofAdd (exponent_mul a b p))
    (fun d => (exponents_pow d (-1)).trans (zpow_neg_one _))
    (fun a b => funext fun p => congrArg Multiplicative.ofAdd (exponent_div a b p))
    (fun d n => (exponents_pow d n).trans (zpow_natCast _ n))
    exponents_pow

/-! ### Canonical form -/

/-- What the dimension of a product of powers lists: every primitive at most once, by increasing
numbers, with the sum of its exponents, and left out where that is zero. -/
structure Lists (d : Dimension) (entries : List Entry) : Prop where
  once : (d.entries.map Prod.fst).Nodup
  increasing : MintedApart entries → d.entries.Pairwise fun a b => a.1.index < b.1.index
  listed : ∀ p n, (p, n) ∈ d.entries ↔ n ≠ 0 ∧ n = total p entries

theorem ofEntries_lists (entries : List Entry) : (ofEntries entries).Lists entries where
  once := (canonical_normalize entries).nodup
  increasing := pairwise_index_normalize
  listed p n := by
    rw [← total_normalize]
    exact (canonical_normalize entries).mem_iff n

/-- **Dimensions are canonical and form an abelian group.**  Entries in any order and grouping give
one list, which tells dimensions apart just as exponents do; products, quotients and powers work
exponent by exponent, and the laws of an abelian group hold for them, with all integer powers. -/
theorem ofEntries_canonical (as bs : List Entry) (groups : List (List Entry))
    (a b c : Dimension) (m n : Int) :
    (ofEntries as).Lists as ∧
    (as.Perm bs → ofEntries as = ofEntries bs) ∧
    ofEntries (groups.map fun group => (ofEntries group).entries).flatten =
      ofEntries groups.flatten ∧
    (ofEntries as = ofEntries bs ↔ ∀ p, total p as = total p bs) ∧
    (a = b ↔ ∀ p, a.exponent p = b.exponent p) ∧
    (∀ p, (a.mul b).exponent p = a.exponent p + b.exponent p ∧
      (a.div b).exponent p = a.exponent p - b.exponent p ∧
      (a.pow n).exponent p = n * a.exponent p) ∧
    ((a.mul b).mul c = a.mul (b.mul c) ∧ a.mul b = b.mul a ∧ a.mul dimensionless = a ∧
      a.mul (a.pow (-1)) = dimensionless ∧ a.div b = a.mul (b.pow (-1))) ∧
    a.pow (m + n) = (a.pow m).mul (a.pow n) ∧ (a.pow m).pow n = a.pow (m * n) ∧
      (a.mul b).pow n = (a.pow n).mul (b.pow n) := by
  refine ⟨ofEntries_lists as, fun h => ?_, ?_, ofEntries_eq_iff, eq_iff_exponent, fun p => ?_,
    ?_, zpow_add a m n, (zpow_mul a m n).symm, mul_zpow a b n⟩
  · exact ofEntries_eq_iff.mpr fun p => total_perm p h
  · exact ofEntries_eq_iff.mpr fun p => total_flatten_normalize p groups
  · exact ⟨exponent_mul a b p, exponent_div a b p, (exponent_pow a n p).trans (mul_comm _ n)⟩
  · exact ⟨mul_assoc a b c, mul_comm a b, mul_one a, mul_inv_cancel a, div_eq_mul_inv a b⟩

/-- A mass that comes and goes and a time that comes twice, in two orders. -/
theorem ofEntries_canonical_acceleration :
    let length : Primitive := ⟨0, "length"⟩
    let mass : Primitive := ⟨1, "mass"⟩
    let time : Primitive := ⟨2, "time"⟩
    let as : List Entry := [(time, -1), (mass, 2), (length, 1), (mass, -2), (time, -1)]
    let bs : List Entry := [(mass, -2), (time, -1), (length, 1), (time, -1), (mass, 2)]
    MintedApart as ∧ as.Perm bs ∧ (ofEntries as).entries = [(length, 1), (time, -2)] ∧
      ((ofEntries as).entries.Pairwise fun e f => e.1.index < f.1.index) ∧
      ofEntries as = ofEntries bs := by
  intro length mass time as bs
  have hminted : MintedApart as := by
    unfold MintedApart
    decide +kernel
  have hperm : as.Perm bs := by decide +kernel
  obtain ⟨hlists, hsame, -⟩ := ofEntries_canonical as bs [] 1 1 1 0 0
  exact ⟨hminted, hperm, by decide +kernel, hlists.increasing hminted, hsame hperm⟩

end Dimension

end Metrology
