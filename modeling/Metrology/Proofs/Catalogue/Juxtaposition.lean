import Metrology.Proofs.Catalogue.Meaning
import Metrology.Proofs.Expression.Inlining
import Metrology.Proofs.Expression.Scanning

/-!
# Prefixes before names

A prefix may stand directly before a name or as a factor of its own.  In the one case the catalogue
takes the name apart and multiplies the unit, in the other the expression has a product of which the
first factor is the prefix, as a number or as the unit of that scale that is defined under its name.
The values are of different kinds, but of the same amount, and only amounts count
(`Expression.Replaces.sameAmount`).

The main result is `lookup_prefixed_eq_product`.
-/

namespace Metrology

open Text

/-- Two identifiers with a blank between them are read as a product. -/
theorem Expression.ofText_beside {p b : String} (hp : isIdentifier p.toList = true)
    (hb : isIdentifier b.toList = true) :
    ofText (p ++ " " ++ b) = .ok (.mul (.name p) (.name b)) := by
  have hleft : (Lexeme.name p.toList).IsPlain := hp
  have hright : (Lexeme.name b.toList).IsPlain := hb
  have hends : (Lexeme.name b.toList).EndsBefore [] := Lexeme.endsBefore_nil _
  have hblank : isBlank ' ' = true := by decide +kernel
  have hword (rest : List Char) : (Lexeme.name p.toList).EndsBefore (' ' :: rest) :=
    endsRun_cons (by decide +kernel) rest
  have htext : (p ++ " " ++ b).toList =
      (Lexeme.name p.toList).text ++ ' ' :: ((Lexeme.name b.toList).text ++ []) := by
    simp [Lexeme.text, String.toList_append]
  let product : Grammar.Product :=
    .mk (.power (.atom (.name p.toList))) (.beside (.atom (.name b.toList)) .done)
  have hscans : Token.Scans (p ++ " " ++ b).toList product.lexemes := by
    rw [htext]
    exact ((Token.scans_nil.lexeme hright hends).blank hblank).lexeme hleft (hword _)
  have htree : product.tree = .mul (.name p) (.name b) := by
    simp [product, Grammar.Product.tree, Grammar.Factors.fold, Grammar.Term.tree,
      Grammar.Power.tree, Grammar.Atom.tree]
  rw [← htree, ← ofText_of_scans hscans, String.ofList_toList]

namespace Catalogue

variable {c : Catalogue} {p : String} {f : Rat}

/-- Whether the name of a prefix means its factor: as a unit that is just this number, or as no
unit at all. -/
inductive IsFactor (c : Catalogue) (p : String) (f : Rat) : Prop
  | unknown (h : c.find p = .error (.unknownUnit p)) : IsFactor c p f
  | unit {u : UnitOfMeasure} (h : c.find p = .ok u) (hdim : u.dim = .dimensionless)
    (hscale : u.scale = f) : IsFactor c p f

theorem IsFactor.resolve_eq (h : c.IsFactor p f) (hp : c.prefixes.get? p = some f) :
    ∃ v, c.resolve p = .ok v ∧ v.magnitude = f ∧ v.dim = .dimensionless := by
  cases h with
  | unknown h => exact ⟨.number f, by rw [resolve, h, hp], rfl, rfl⟩
  | unit h hdim hscale => exact ⟨.unit _, by rw [resolve, h], hscale, hdim⟩

/-- Behind the longest prefix of a name that is not defined, the name means what the product of the
prefix and the name behind it stands for. -/
theorem exists_product_of_splitsLongest {b : String} {u : UnitOfMeasure} (hf : f ≠ 0)
    (hp : c.IsFactor p f) (hb : c.Defines b u) (undefined : ¬ ∃ v, c.Defines (p ++ b) v)
    (splits : c.SplitsLongest c.Defines (p ++ b) p f u) :
    ∃ w v, c.find (p ++ b) = .ok w ∧
      (Expression.mul (.name p) (.name b)).eval c.resolve = .ok v ∧ v.isNumber = false ∧
      w.scale = v.magnitude ∧ w.dim = v.dim := by
  obtain ⟨w, hw, -, hdim, hscale⟩ := multiple_of_ne_zero (p ++ b) hf u
  obtain ⟨a, ha, hfactor, hnone⟩ := hp.resolve_eq splits.splits.1
  have hget : c.units.get? b = some u := hb
  have hunit : c.resolve b = .ok (.unit u) := by rw [resolve, find, hget]
  have heval : (Expression.mul (.name p) (.name b)).eval c.resolve = .ok (a.mul (.unit u)) := by
    have hleft : (Expression.name p).eval c.resolve = .ok a := ha
    have hright : (Expression.name b).eval c.resolve = .ok (.unit u) := hunit
    rw [Expression.eval_mul, hleft, hright]
    rfl
  refine ⟨w, a.mul (.unit u), ?_, heval, ?_, ?_, Dimension.ext_exponent fun r => ?_⟩
  · rw [find_of_composes (.singular undefined splits), hw]
  · rw [Quantity.isNumber_mul]
    exact Bool.and_false _
  · rw [hscale, Quantity.magnitude_mul, hfactor]
    rfl
  · rw [hdim, Quantity.exponent_mul, hnone]
    exact (zero_add _).symm

/-- **A prefix before a name is a factor before it**: let an identifier be a prefix of a factor that
is not zero, and mean this factor if it means a unit at all; let it stand before the name of a unit,
the whole not being defined, and no longer prefix fit it.  Then the whole name means the unit that
the expression of both with a blank between them is taken for, and wherever the name stands in an
expression, except in exponents, the product of the two may stand in its place: the value has the
same magnitude and dimension, or evaluation fails in the same way. -/
theorem lookup_prefixed_eq_product (units : List (String × UnitOfMeasure))
    (factors : List (String × Rat)) (plurals : Bool) (operations : List Operation)
    {p b : String} {f : Rat} {u : UnitOfMeasure} :
    let j := Operation.run operations (ofDefinitions units factors plurals).start
    isIdentifier p.toList = true → isIdentifier b.toList = true →
    j.catalogue.prefixes.get? p = some f → f ≠ 0 →
    ((lookup p j).1 = .error (.unknownUnit p) ∨
      ∃ v, (lookup p j).1 = .ok v ∧ v.dim = .dimensionless ∧ v.scale = f) →
    j.catalogue.Defines b u → (¬ ∃ v, j.catalogue.Defines (p ++ b) v) →
    (∀ p' f' v, j.catalogue.Splits j.catalogue.Defines (p ++ b) p' f' v →
      p'.length ≤ p.length) →
    (∃ w v, (lookup (p ++ b) j).1 = .ok w ∧ (evaluate (p ++ " " ++ b) j).1 = .ok v ∧
      ∀ allowNumbers, ∃ x, v.toUnit allowNumbers = .ok x ∧ w.scale = x.scale ∧ w.dim = x.dim) ∧
    ∀ q q', Expression.Replaces (p ++ b) (.mul (.name p) (.name b)) q q' →
      SameAmount (q.evalM lookupQuantity j).1 (q'.evalM lookupQuantity j).1 := by
  intro j hidp hidb hget hf hp hb undefined longest
  have hj : j.catalogue.Sound := Operation.sound_run operations (sound_of_composed_empty rfl)
  have hfactor : j.catalogue.IsFactor p f := by
    rw [lookup_eq_find hj] at hp
    rcases hp with h | ⟨v, h, hdim, hscale⟩
    · exact .unknown h
    · exact .unit h hdim hscale
  have hne : b ≠ "" := by
    rintro rfl
    cases hidb
  have hsplits : j.catalogue.Splits j.catalogue.Defines (p ++ b) p f u :=
    ⟨hget, b, hne, rfl, hb⟩
  obtain ⟨w, v, hw, hv, hnumber, hscale, hdim⟩ :=
    exists_product_of_splitsLongest hf hfactor hb undefined ⟨hsplits, longest⟩
  refine ⟨⟨w, v, ?_, ?_, fun allowNumbers => ?_⟩, fun q q' hq => ?_⟩
  · rw [lookup_eq_find hj, hw]
  · rw [(reads_evaluate _).outcome j hj, value, Expression.ofText_beside hidp hidb]
    exact hv
  · have hmagnitude : v.magnitude ≠ 0 := hscale ▸ w.scale_ne_zero
    obtain ⟨x, hx⟩ := Quantity.toUnit_eq_ok hnumber hmagnitude allowNumbers
    obtain ⟨hxscale, hxdim⟩ := Quantity.amount_of_toUnit hx
    exact ⟨x, hx, hscale.trans hxscale.symm, hdim.trans hxdim.symm⟩
  · rw [(reads_evalM q).outcome j hj, (reads_evalM q').outcome j hj]
    refine hq.sameAmount ?_
    have hresolve : j.catalogue.resolve (p ++ b) = .ok (.unit w) := by rw [resolve, hw]
    rw [hv]
    exact hresolve ▸ .ok (Quantity.amount_eq_iff.mpr ⟨hscale, hdim⟩)

/-- The prefix is also a unit, of the same scale, and a shorter prefix fits the name as well. -/
theorem lookup_prefixed_eq_product_kilo :
    let m := UnitOfMeasure.ofPrimitive ⟨0, "length"⟩ "m"
    let kilo : UnitOfMeasure := ⟨.dimensionless, 1000, "kilo", by decide⟩
    let j := (ofDefinitions [("m", m), ("kilo", kilo), ("ilom", .one)] [("k", 10), ("kilo", 1000)]
      true).start
    let square (e : Expression) : Expression := .pow e (.number 2)
    (lookup "kilom" j).1.toOption.map UnitOfMeasure.scale = some 1000 ∧
    (∃ w v, (lookup "kilom" j).1 = .ok w ∧ (evaluate "kilo m" j).1 = .ok v ∧
      ∀ allowNumbers, ∃ x, v.toUnit allowNumbers = .ok x ∧ w.scale = x.scale ∧ w.dim = x.dim) ∧
    SameAmount ((square (.name "kilom")).evalM lookupQuantity j).1
      ((square (.mul (.name "kilo") (.name "m"))).evalM lookupQuantity j).1 := by
  intro m kilo j square
  have hdefined : j.catalogue.units.keys = ["m", "kilo", "ilom"] := by decide +kernel
  have hprefixes : j.catalogue.prefixes.keys = ["k", "kilo"] := by decide +kernel
  have undefined : ¬ ∃ v, j.catalogue.Defines "kilom" v := by
    rintro ⟨v, hv⟩
    have hmem : "kilom" ∈ j.catalogue.units.keys :=
      List.mem_map.mpr ⟨_, Table.get?_eq_some_iff.mp hv, rfl⟩
    rw [hdefined] at hmem
    revert hmem
    decide +kernel
  have longest (p' : String) (f' : Rat) (v : UnitOfMeasure)
      (h : j.catalogue.Splits j.catalogue.Defines "kilom" p' f' v) :
      p'.length ≤ "kilo".length := by
    have hmem : p' ∈ j.catalogue.prefixes.keys :=
      List.mem_map.mpr ⟨_, Table.get?_eq_some_iff.mp h.1, rfl⟩
    rw [hprefixes] at hmem
    have hall : ∀ x ∈ ["k", "kilo"], x.length ≤ "kilo".length := by decide +kernel
    exact hall p' hmem
  obtain ⟨hlookup, hreplaces⟩ := @lookup_prefixed_eq_product
    [("m", m), ("kilo", kilo), ("ilom", .one)] [("k", 10), ("kilo", 1000)] true []
    "kilo" "m" 1000 m (by decide +kernel) (by decide +kernel) (by decide +kernel)
    (by decide +kernel) (.inr ⟨kilo, by decide +kernel, rfl, rfl⟩)
    (show j.catalogue.units.get? "m" = some m by decide +kernel) undefined longest
  exact ⟨by decide +kernel, hlookup, hreplaces _ _ (.pow .leaf (.number 2))⟩

end Catalogue

end Metrology
