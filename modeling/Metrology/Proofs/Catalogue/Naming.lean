import Metrology.Proofs.Catalogue.Shape
import Metrology.Proofs.Expression.Attaching
import Metrology.Proofs.Expression.Delimiters
import Metrology.Proofs.Expression.Printing
import Metrology.Proofs.Unit.Naming

/-!
# Units that are called by an expression

A unit that is taken from a measurement is called by the text of the expression, whatever that is,
and the names of its powers and of its reciprocal are composed of this text.  Where the text is put
in parentheses they are faithful.  But `Name.atom?` goes by characters: it takes `2*m`, `-m` and
`2m^3` for atoms, so that a caret behind them raises their last factor alone and a slash before them
divides by their first term alone.

The main result is `unit_pow_faithfullyNamed_iff`: a text that is no atom has faithful powers and a
faithful reciprocal, and one that is an atom has them just where what stands besides the last factor
or the first term makes no difference.
-/

namespace Metrology

open Text Grammar

/-! ### Names that are atoms -/

namespace Name

variable {name : String} {n : Int}

/-- A name that is an atom is a base, or a base with an exponent. -/
theorem atom?_cases {cs : List Char} (h : (atom? cs).isSome = true) :
    IsBase cs ∨ ∃ base row, IsBase base ∧ isSignedRow row = true ∧ cs = base ++ '^' :: row ∧
      atom? cs = some (base, some (signedValue row)) := by
  have hcs := List.takeWhile_append_dropWhile (p := isAtomChar) (l := cs)
  have hchar : ∀ c ∈ cs.takeWhile isAtomChar, isAtomChar c = true :=
    fun c hc => List.mem_takeWhile_imp hc
  rw [atom?] at h ⊢
  split at h
  · cases h
  · rename_i hne
    have hbase : IsBase (cs.takeWhile isAtomChar) :=
      ⟨fun hnil => hne (by rw [hnil]; rfl), hchar⟩
    split at h
    · rename_i hdrop
      rw [hdrop, List.append_nil] at hcs
      exact .inl (hcs ▸ hbase)
    · rename_i row hdrop
      split at h
      · rename_i hrow
        refine .inr ⟨_, row, hbase, hrow, by rw [← hdrop, hcs], ?_⟩
        rw [if_neg hne]
        exact if_pos hrow
      · cases h
    · cases h

theorem toList_power_of_base (h : IsBase name.toList) (hn : 2 ≤ n) :
    (power name n).toList = name.toList ++ '^' :: (toString n).toList := by
  have hne : name ≠ "" := by
    rintro rfl
    exact h.ne_nil rfl
  rw [power, if_neg hne, if_neg (by omega), if_neg (by omega), atom?_base h, operand_base h]
  exact toList_separated "^" rfl name (toString n)

/-- An exponent that is there already is multiplied. -/
theorem toList_power_of_raised {base : List Char} {e : Int}
    (h : atom? name.toList = some (base, some e)) (hn : 2 ≤ n) :
    (power name n).toList = base ++ '^' :: (toString (e * n)).toList := by
  have hne : name ≠ "" := by
    rintro rfl
    cases h
  have hone : e * n ≠ 1 := by
    intro hone
    have hunit : n = 1 := Int.eq_one_of_dvd_one (by omega) (Dvd.intro_left e hone)
    omega
  rw [power, if_neg hne, if_neg (by omega), if_neg (by omega), h]
  dsimp only
  rw [if_neg hone, toList_separated "^" (c := '^') rfl, String.toList_ofList]

theorem toList_operand_of_not_isAtom (h : isAtom name = false) :
    (operand name).toList = enclosed name.toList := by
  rw [operand, h, if_neg Bool.false_ne_true, toList_parenthesized]
  rfl

theorem toList_power_of_not_isAtom (h : isAtom name = false) (hne : name ≠ "") (h0 : n ≠ 0)
    (h1 : n ≠ 1) :
    (power name n).toList = enclosed name.toList ++ '^' :: (toString n).toList := by
  have hnone : (atom? name.toList).isNone = true := Option.isSome_eq_false_iff.mp h
  rw [power, if_neg hne, if_neg h0, if_neg h1, Option.isNone_iff_eq_none.mp hnone]
  dsimp only
  rw [toList_separated "^" (c := '^') rfl, toList_operand_of_not_isAtom h]

theorem toList_quotient_one (hne : name ≠ "") :
    (quotient "1" name).toList = '1' :: '/' :: (operand name).toList := by
  have hfactor : factor "1" = "1" := by decide
  rw [quotient, if_neg (not_or.mpr ⟨by decide, hne⟩), hfactor, toList_separated "/" (c := '/') rfl]
  rfl

end Name

/-! ### What a text stands for -/

namespace Grammar

open Token

variable {resolve : String → Outcome Quantity} {cs row : List Char} {ls ls' : List Lexeme}
  {x : Amount}

/-- Whether a text is read as an expression for an amount. -/
def Stands (resolve : String → Outcome Quantity) (cs : List Char) (x : Amount) : Prop :=
  ∃ p : Product, Scans cs p.lexemes ∧ p.tree.Denotes resolve x

theorem Stands.ne_nil (h : Stands resolve cs x) : cs ≠ [] := by
  rintro rfl
  obtain ⟨⟨t, fs⟩, hscans, -⟩ := h
  have hnil := hscans.unique scans_nil
  rw [Product.lexemes, List.append_eq_nil_iff] at hnil
  exact t.lexemes_ne_nil hnil.1

theorem Stands.name_ne_empty {name : String} (h : Stands resolve name.toList x) : name ≠ "" := by
  rintro rfl
  exact h.ne_nil rfl

/-- What a text stands for is what it evaluates to. -/
theorem Stands.exists_value {text : String} (h : Stands resolve text.toList x) :
    ∃ e v, Expression.ofText text = .ok e ∧ e.eval resolve = .ok v ∧ v.amount = x := by
  obtain ⟨p, hscans, hdenotes⟩ := h
  obtain ⟨v, hv, hamount⟩ := hdenotes.eval_eq_ok
  exact ⟨p.tree, v, Expression.ofText_eq_ok_iff_scans.mpr ⟨p, hscans, rfl⟩, hv, hamount⟩

/-- A signed row of digits is an exponent. -/
theorem exists_exponent (h : Name.isSignedRow row = true) :
    ∃ t : Term, Scans row t.lexemes ∧
      ∀ resolve, t.tree.IsExponent resolve (Name.signedValue row) := by
  obtain ⟨negative, ds, rfl, hne, hds, hvalue⟩ := Name.isSignedRow_cases h
  let n : Numeral := ⟨ds, false, [], none⟩
  have hn : n.IsPlain := ⟨hne, hds, List.forall_mem_nil _, fun _ => rfl, rfl⟩
  have htext : n.text = ds := by simp [n, Numeral.text]
  have hnvalue : n.value = positional ds := by
    rw [hn.value_eq, List.append_nil, List.length_nil, pow_zero, div_one]
  have hspells (resolve : String → Outcome Quantity) :
      (Term.signed negative n).Spells resolve _ _ := Term.spells_signed hn negative
  refine ⟨.signed negative n, ?_, fun resolve => ⟨Term.isBare_signed negative n, ?_⟩⟩
  · have hspelled := hspells fun name => .error (.unknownUnit name)
    have hwritten := hspelled.isSpelled.written endsOperand_nil written_nil
    rw [List.append_nil] at hwritten
    have hscans := scans_spelled hwritten.plain hwritten.chain
    rwa [hspelled.text, htext] at hscans
  · rw [hvalue, ← hnvalue]
    exact (hspells resolve).denotes

theorem exists_integer (n : Int) :
    ∃ t : Term, Scans (toString n).toList t.lexemes ∧
      ∀ resolve, t.tree.IsExponent resolve n := by
  obtain ⟨hrow, hvalue⟩ := Name.signedRow_toString n
  obtain ⟨t, ht, hexponent⟩ := exists_exponent hrow
  rw [hvalue] at hexponent
  exact ⟨t, ht, hexponent⟩

theorem scans_caret (h : Scans row ls) :
    Scans ('^' :: row) (.operator .caret :: ls) :=
  scans_operator (by decide : Operator.caret ≠ .star) h

/-- An exponent behind a text is scanned apart from it. -/
theorem scans_raised (h : Scans cs ls) (hrow : Scans row ls') :
    Scans (cs ++ '^' :: row) (ls ++ .operator .caret :: ls') :=
  h.append (endsTokens_cons (by decide +kernel) _) (scans_caret hrow)

/-- One divided by what a text writes. -/
theorem scans_inverse (h : Scans cs ls) :
    Scans ('1' :: '/' :: cs) (.number (Decimal.numeral 1) :: .operator .slash :: ls) := by
  have hslash : Scans ('/' :: cs) (.operator .slash :: ls) :=
    scans_operator (by decide : Operator.slash ≠ .star) h
  have hplain : (Lexeme.number (Decimal.numeral 1)).IsPlain := Decimal.isPlain_numeral 1
  have hends : (Lexeme.number (Decimal.numeral 1)).EndsBefore ('/' :: cs) :=
    endsRun_cons (by decide +kernel) cs
  exact hslash.lexeme hplain hends

/-- A closing parenthesis ends every text. -/
theorem prints_of_scans {p : Product} (h : Scans cs p.lexemes) : p.Prints cs := by
  intro rest ls hrest hscans
  refine h.append (fun c hc => ?_) hscans
  rw [hrest c hc]
  decide +kernel

/-! ### Texts in parentheses -/

theorem Stands.one : Stands resolve ['1'] .one := by
  have hplain : (Lexeme.number (Decimal.numeral 1)).IsPlain := Decimal.isPlain_numeral 1
  refine ⟨.mk (.power (.atom (.number (Decimal.numeral 1)))) .done, ?_, ?_⟩
  · exact scans_nil.lexeme hplain (Lexeme.endsBefore_nil _)
  · rw [Product.tree, Factors.fold, Term.tree, Power.tree, Atom.tree, Decimal.value_numeral]
    exact .number _

/-- An exponent behind a text in parentheses raises all of the text. -/
theorem Stands.raised_enclosed (h : Stands resolve cs x) (hx : x.magnitude ≠ 0) (n : Int) :
    Stands resolve (enclosed cs ++ '^' :: (toString n).toList) (x.pow n) := by
  obtain ⟨p, hscans, hdenotes⟩ := h
  obtain ⟨t, ht, hexponent⟩ := exists_integer n
  refine ⟨.mk (.power (.raised (.group p) .caret t)) .done, ?_, ?_⟩
  · rw [Product.lexemes, Factors.lexemes, Term.lexemes, Power.lexemes, List.append_nil]
    exact (prints_of_scans hscans).scans_group (scans_caret ht)
  · rw [Product.tree, Factors.fold, Term.tree, Power.tree, Atom.tree]
    obtain ⟨hbare, hn⟩ := hexponent resolve
    exact hdenotes.pow_amount hn hbare fun h => hx h.2

/-- A slash before a text in parentheses divides by all of the text. -/
theorem Stands.inverse_enclosed (h : Stands resolve cs x) (hx : x.magnitude ≠ 0) :
    Stands resolve ('1' :: '/' :: enclosed cs) (Amount.one.div x) := by
  obtain ⟨p, hscans, hdenotes⟩ := h
  have hone : (Expression.number (Decimal.numeral 1).value).Denotes resolve Amount.one := by
    rw [Decimal.value_numeral]
    exact .number _
  refine ⟨.mk (.power (.atom (.number (Decimal.numeral 1))))
    (.joined .slash (.power (.atom (.group p))) .done), ?_, ?_⟩
  · have hgroup := scans_inverse ((prints_of_scans hscans).scans_group scans_nil)
    rw [List.append_nil] at hgroup
    rw [Product.lexemes, Factors.lexemes, Factors.lexemes, Term.lexemes, Term.lexemes,
      Power.lexemes, Power.lexemes, Atom.lexemes]
    exact hgroup
  · rw [Product.tree, Factors.fold, Factors.fold, Term.tree, Term.tree, Power.tree, Power.tree,
      Atom.tree, Atom.tree]
    exact hone.div_amount hdenotes hx

/-- A name that is no atom is raised as a whole. -/
theorem Stands.power {name : String} (h : Stands resolve name.toList x) (hx : x.magnitude ≠ 0)
    (hatom : Name.isAtom name = false) (n : Int) :
    Stands resolve (Name.power name n).toList (x.pow n) := by
  have hne : name ≠ "" := h.name_ne_empty
  by_cases h0 : n = 0
  · rw [Name.power, if_neg hne, if_pos h0, h0, x.pow_zero]
    exact .one
  by_cases h1 : n = 1
  · rw [Name.power, if_neg hne, if_neg h0, if_pos h1, h1, x.pow_one]
    exact h
  rw [Name.toList_power_of_not_isAtom hatom hne h0 h1]
  exact h.raised_enclosed hx n

/-! ### Texts that are atoms -/

/-- The lexemes of a base are flat, unless a double star is among them. -/
theorem isFlat_of_scans (h : Scans cs ls) (hcs : ∀ c ∈ cs, Name.isAtomChar c = true)
    (hstars : ¬ ['*', '*'] <:+: cs) : IsFlat ls := by
  intro o ho
  have hwithin : o.text <:+: cs := h.text_within _ ho
  have hatom {c : Char} (hc : c ∈ o.text) : Name.isAtomChar c = true := hcs c (hwithin.subset hc)
  cases o with
  | star | minus | plus => rfl
  | doubleStar => exact absurd hwithin hstars
  | slash | caret | opening | closing =>
    exact absurd (hatom List.mem_cons_self) (by decide +kernel)

/-- A caret behind an atom raises the last factor of the atom, or multiplies its exponent. -/
theorem stands_power_of_isAtom {name : String} {p : Product} {c y : Amount} {n : Int}
    (hatom : Name.isAtom name = true) (hstars : ¬ ['*', '*'] <:+: name.toList)
    (hscans : Scans name.toList p.lexemes) (hends : p.tree.EndsIn resolve c y)
    (hy : y.magnitude ≠ 0) (hn : 2 ≤ n) :
    Stands resolve (Name.power name n).toList (c.mul (y.pow n)) := by
  obtain hbase | ⟨base, row, hbase, hrow, hname, hraised⟩ := Name.atom?_cases hatom
  · have hflat : IsFlat p.lexemes := isFlat_of_scans hscans hbase.isAtomChar hstars
    obtain ⟨t, ht, hexponent⟩ := exists_integer n
    obtain ⟨q, hq, htree⟩ := Product.exists_raised hflat t
    refine ⟨q, ?_, ?_⟩
    · rw [Name.toList_power_of_base hbase hn, hq]
      exact scans_raised hscans ht
    · rw [htree]
      exact hends.raised (hexponent resolve) hy
  · rw [hname] at hscans hstars
    obtain ⟨ls, ls', hlexemes, hls, hls'⟩ :=
      hscans.exists_append (endsTokens_cons (by decide +kernel) row)
    obtain ⟨t, ht, hexponent⟩ := exists_exponent hrow
    obtain rfl := hls'.unique (scans_caret ht)
    have hflat : IsFlat ls :=
      isFlat_of_scans hls hbase.isAtomChar fun h => hstars (h.trans ⟨[], _, rfl⟩)
    -- The text is the base with the exponent behind it, and no other derivation writes it.
    obtain ⟨b, rfl⟩ := Product.exists_base hflat hlexemes
    obtain ⟨q, hq, htree⟩ := Product.exists_raised hflat t
    obtain rfl : p = q := Product.unambiguous (hlexemes.trans hq.symm)
    rw [htree] at hends
    obtain ⟨t', ht', hexponent'⟩ := exists_integer (Name.signedValue row * n)
    obtain ⟨q, hq, hqtree⟩ := Product.exists_raised hflat t'
    refine ⟨q, ?_, ?_⟩
    · rw [Name.toList_power_of_raised hraised hn, hq]
      exact scans_raised hls ht'
    · rw [hqtree]
      exact hends.raised_mul (hexponent resolve) (hexponent' resolve) (by omega)

/-- What stands before the last factor of an atom decides which powers the atom has. -/
theorem exists_before_of_isAtom {name : String} {p : Product} (hatom : Name.isAtom name = true)
    (hscans : Scans name.toList p.lexemes) (hdenotes : p.tree.Denotes resolve x)
    (hx : x.magnitude ≠ 0) :
    ∃ before : Amount, (p.tree.withLast (.number 1)).Denotes resolve before ∧
      (¬ ['*', '*'] <:+: name.toList → ∀ n : Int, 2 ≤ n →
        ∃ y, Stands resolve (Name.power name n).toList y ∧
          (y = x.pow n ↔ before.pow (n - 1) = .one)) := by
  obtain ⟨c, y, hends, rfl⟩ := hdenotes.exists_endsIn
  have hone : (p.tree.withLast (.number 1)).Denotes resolve (c.mul .one) :=
    hends.withLast _ _ (.number 1)
  rw [c.mul_one] at hone
  refine ⟨c, hone, fun hstars n hn => ⟨c.mul (y.pow n), ?_, ?_⟩⟩
  · exact stands_power_of_isAtom hatom hstars hscans hends (right_ne_zero_of_mul hx) hn
  · exact Amount.mul_pow_eq_iff (left_ne_zero_of_mul hx) (right_ne_zero_of_mul hx)

/-- What stands behind the first term of an atom decides whether the atom has a reciprocal. -/
theorem exists_behind_of_isAtom {name : String} {p : Product} (hatom : Name.isAtom name = true)
    (hscans : Scans name.toList p.lexemes) (hdenotes : p.tree.Denotes resolve x)
    (hx : x.magnitude ≠ 0) :
    ∃ behind : Amount, (p.tree.withFirst (.number 1)).Denotes resolve behind ∧
      ∃ y, Stands resolve ('1' :: '/' :: name.toList) y ∧
        (y = Amount.one.div x ↔ behind.pow 2 = .one) := by
  have hopening : .operator .opening ∉ p.lexemes := by
    intro h
    have hmem : '(' ∈ name.toList := (hscans.text_within _ h).subset List.mem_cons_self
    rw [Name.isAtom, Name.atom?_eq_none ⟨'(', hmem, Name.ReadsAs.isMark_opening⟩] at hatom
    cases hatom
  have hone : (Decimal.numeral 1).value = 1 := Decimal.value_numeral 1
  obtain ⟨q, y, z, hq, rfl, hinverse, hz⟩ := Product.exists_inverse hone hopening hdenotes hx
  refine ⟨z, hz, (Amount.one.div y).mul z, ⟨q, ?_, hinverse⟩, ?_⟩
  · rw [hq]
    exact scans_inverse hscans
  · exact Amount.div_mul_eq_iff (left_ne_zero_of_mul hx) (right_ne_zero_of_mul hx)

end Grammar

/-! ### Units of a catalogue in use -/

namespace Catalogue

/-- Whether the name of a unit is an expression of the scale and the dimension of the unit. -/
def FaithfullyNamed (j : Journal) (u : UnitOfMeasure) : Prop :=
  ∃ v, (evaluate u.name j).1 = .ok v ∧ v.magnitude = u.scale ∧ v.dim = u.dim

variable {j k : Journal} {u : UnitOfMeasure} {x : Amount}

theorem toList_name_reciprocal (h : u.name ≠ "") :
    u.reciprocal.name.toList = '1' :: '/' :: (Name.operand u.name).toList := by
  rw [← Name.toList_quotient_one h]
  exact congrArg String.toList (if_neg h)

/-- The name of a unit stands for one amount only. -/
theorem faithfullyNamed_iff (hj : j.catalogue.Sound) (hleads : j.LeadsTo k)
    (h : Stands j.catalogue.resolve u.name.toList x) : FaithfullyNamed k u ↔ x = u.amount := by
  obtain ⟨e, v, he, hv, rfl⟩ := h.exists_value
  have hvalue : (evaluate u.name k).1 = .ok v := by
    rw [(reads_evaluate u.name).outcome_of_leadsTo hj hleads, value, he]
    exact hv
  rw [FaithfullyNamed, hvalue]
  constructor
  · rintro ⟨w, hw, hscale, hdim⟩
    obtain rfl := Except.ok.inj hw
    exact Amount.ext hscale hdim
  · intro h
    exact ⟨v, rfl, congrArg Amount.magnitude h, congrArg Amount.dim h⟩

/-- A unit that is taken from a measurement is called by the text. -/
theorem exists_unit_of_measurement {text : String} {m : Measurement} (hj : j.catalogue.Sound)
    (h : j.catalogue.value text = .ok (.measurement m)) (hm : m.value ≠ 0) :
    ∃ u, (unit text j).1 = .ok u ∧ u.name = trim text ∧ u.scale = m.baseValue ∧
      u.dim = m.unit.dim := by
  have hvalue : (evaluate text j).1 = .ok (.measurement m) := by
    rw [(reads_evaluate text).outcome j hj, h]
  exact exists_unit_of_nonzero hvalue hm

/-- **Powers and reciprocals of units that an expression names**: let an expression have a
measurement for its value that is not zero.  The unit that is taken from it is called by the text.
If the text is no atom, the names of its reciprocal and of all its powers are faithful.  If it is an
atom, the name of the reciprocal is faithful just where what stands behind the first term is its own
reciprocal, and that of a power, if no double star is in the text, just where what stands before the
last factor is not changed by the power. -/
theorem unit_pow_faithfullyNamed_iff (units : List (String × UnitOfMeasure))
    (factors : List (String × Rat)) (plurals : Bool) (operations : List Operation)
    {text : String} {m : Measurement} :
    let j := Operation.run operations (ofDefinitions units factors plurals).start
    let k := (unit text j).2
    (evaluate text j).1 = .ok (.measurement m) → m.value ≠ 0 →
    ∃ e u, Expression.ofText text = .ok e ∧ (unit text j).1 = .ok u ∧
      u.name = trim text ∧ u.scale = m.baseValue ∧ u.dim = m.unit.dim ∧
      (Name.isAtom u.name = false →
        FaithfullyNamed k u.reciprocal ∧ ∀ n : Int, FaithfullyNamed k (u.pow n)) ∧
      (Name.isAtom u.name = true → ∃ before behind : Quantity,
        ((e.withLast (.number 1)).evalM lookupQuantity k).1 = .ok before ∧
        ((e.withFirst (.number 1)).evalM lookupQuantity k).1 = .ok behind ∧
        (FaithfullyNamed k u.reciprocal ↔ behind.amount.pow 2 = .one) ∧
        (¬ ['*', '*'] <:+: u.name.toList → ∀ n : Int, 2 ≤ n →
          (FaithfullyNamed k (u.pow n) ↔ before.amount.pow (n - 1) = .one))) := by
  intro j k heval hvalue
  have hj : j.catalogue.Sound := Operation.sound_run operations (sound_of_composed_empty rfl)
  have hleads : j.LeadsTo k := (reads_unit text).leadsTo j
  rw [(reads_evaluate text).outcome j hj] at heval
  obtain ⟨e, he, hev⟩ := Outcome.bind_eq_ok_iff.mp heval
  obtain ⟨p, hscans, rfl⟩ := Expression.ofText_eq_ok_iff_scans.mp he
  obtain ⟨u, hunit, hname, hscale, hdim⟩ := exists_unit_of_measurement hj heval hvalue
  have hdenotes : p.tree.Denotes j.catalogue.resolve u.amount := by
    have hamount : u.amount = (Quantity.measurement m).amount := Amount.ext hscale hdim
    rw [hamount]
    exact Expression.denotes_of_eval hev
  have hscans : Token.Scans u.name.toList p.lexemes := by
    rw [hname, trim, String.toList_ofList]
    exact hscans.trim
  have hstands : Stands j.catalogue.resolve u.name.toList u.amount := ⟨p, hscans, hdenotes⟩
  have hinverse {x : Amount} (h : Stands j.catalogue.resolve
      ('1' :: '/' :: (Name.operand u.name).toList) x) :
      FaithfullyNamed k u.reciprocal ↔ x = Amount.one.div u.amount := by
    rw [← u.amount_reciprocal]
    refine faithfullyNamed_iff hj hleads ?_
    rwa [toList_name_reciprocal hstands.name_ne_empty]
  have hpower {x : Amount} {n : Int} (h : Stands j.catalogue.resolve
      (Name.power u.name n).toList x) : FaithfullyNamed k (u.pow n) ↔ x = u.amount.pow n := by
    rw [← u.amount_pow]
    exact faithfullyNamed_iff hj hleads h
  have hvalueOf {e : Expression} {x : Amount} (h : e.Denotes j.catalogue.resolve x) :
      ∃ v, (e.evalM lookupQuantity k).1 = .ok v ∧ v.amount = x := by
    rw [(reads_evalM e).outcome_of_leadsTo hj hleads]
    exact h.eval_eq_ok
  refine ⟨p.tree, u, he, hunit, hname, hscale, hdim, fun hatom => ⟨?_, fun n => ?_⟩,
    fun hatom => ?_⟩
  · refine (hinverse ?_).mpr rfl
    rw [Name.toList_operand_of_not_isAtom hatom]
    exact hstands.inverse_enclosed u.scale_ne_zero
  · exact (hpower (hstands.power u.scale_ne_zero hatom n)).mpr rfl
  · obtain ⟨_, hwithLast, hpowers⟩ :=
      exists_before_of_isAtom hatom hscans hdenotes u.scale_ne_zero
    obtain ⟨_, hwithFirst, x, hx, hiff⟩ :=
      exists_behind_of_isAtom hatom hscans hdenotes u.scale_ne_zero
    obtain ⟨before, hbefore, rfl⟩ := hvalueOf hwithLast
    obtain ⟨behind, hbehind, rfl⟩ := hvalueOf hwithFirst
    refine ⟨before, behind, hbefore, hbehind, ?_, fun hstars n hn => ?_⟩
    · rw [← Name.operand_of_atom? hatom] at hx
      exact (hinverse hx).trans hiff
    · obtain ⟨y, hy, hiff⟩ := hpowers hstars n hn
      exact (hpower hy).trans hiff

/-- A dozen metres have all powers, and a negative metre has the odd ones. -/
theorem unit_pow_faithfullyNamed_iff_dozen :
    let m := UnitOfMeasure.ofPrimitive ⟨0, "length"⟩ "m"
    let j := (ofDefinitions [("m", m)] [] true).start
    (∃ u, (unit "12 m" j).1 = .ok u ∧ u.name = "12 m" ∧
      FaithfullyNamed (unit "12 m" j).2 u.reciprocal ∧
      ∀ n : Int, FaithfullyNamed (unit "12 m" j).2 (u.pow n)) ∧
    ∃ u, (unit "-m" j).1 = .ok u ∧ u.name = "-m" ∧
      FaithfullyNamed (unit "-m" j).2 u.reciprocal ∧
      FaithfullyNamed (unit "-m" j).2 (u.pow 3) ∧ ¬ FaithfullyNamed (unit "-m" j).2 (u.pow 2) := by
  intro m j
  constructor
  · obtain ⟨e, u, -, hunit, hname, -, -, hcomposed, -⟩ :=
      @unit_pow_faithfullyNamed_iff [("m", m)] [] true [] "12 m" ⟨12, m⟩ (by decide +kernel)
        (by decide)
    have htrim : trim "12 m" = "12 m" := by decide +kernel
    rw [htrim] at hname
    rw [hname] at hcomposed
    exact ⟨u, hunit, hname, hcomposed (by decide +kernel)⟩
  · obtain ⟨e, u, he, hunit, hname, -, -, -, hatom⟩ :=
      @unit_pow_faithfullyNamed_iff [("m", m)] [] true [] "-m" ⟨-1, m⟩ (by decide +kernel)
        (by decide)
    have htrim : trim "-m" = "-m" := by decide +kernel
    have htree : Expression.ofText "-m" = .ok (.neg (.name "m")) := by decide +kernel
    obtain rfl := Except.ok.inj (he.symm.trans htree)
    rw [htrim] at hname
    rw [hname] at hatom
    obtain ⟨before, behind, hbefore, hbehind, hreciprocal, hpowers⟩ := hatom (by decide +kernel)
    have hminus : before = .number (-1) := Except.ok.inj (hbefore.symm.trans (by decide +kernel))
    have hone : behind = .number 1 := Except.ok.inj (hbehind.symm.trans (by decide +kernel))
    have hpower := hpowers (by decide)
    rw [hminus] at hpower
    rw [hone] at hreciprocal
    have hodd := (hpower 3 (by decide)).mpr (by decide +kernel)
    have heven := mt (hpower 2 (by decide)).mp (by decide +kernel)
    exact ⟨u, hunit, hname, hreciprocal.mpr (by decide +kernel), hodd, heven⟩

/-- Twice a metre has a square that is called `2*m^2`, which is read as two square metres. -/
theorem not_forall_unit_pow_faithfullyNamed :
    ¬ ∀ (units : List (String × UnitOfMeasure)) (factors : List (String × Rat)) (plurals : Bool)
      (operations : List Operation) (text : String) (m : Measurement) (u : UnitOfMeasure) (n : Int),
      let j := Operation.run operations (ofDefinitions units factors plurals).start
      (evaluate text j).1 = .ok (.measurement m) → m.value ≠ 0 → (unit text j).1 = .ok u →
      2 ≤ n → FaithfullyNamed (unit text j).2 (u.pow n) := by
  intro h
  let m := UnitOfMeasure.ofPrimitive ⟨0, "length"⟩ "m"
  let j := (ofDefinitions [("m", m)] [] true).start
  let u : UnitOfMeasure := ⟨m.dim, 2, "2*m", by decide⟩
  obtain ⟨v, hv, hscale, -⟩ := h [("m", m)] [] true [] "2*m" ⟨2, m⟩ u 2 (by decide +kernel)
    (by decide) (by decide +kernel) (by decide)
  have hvalue : (evaluate (u.pow 2).name (unit "2*m" j).2).1 = .ok (.measurement ⟨2, m.pow 2⟩) := by
    decide +kernel
  obtain rfl := Except.ok.inj (hv.symm.trans hvalue)
  revert hscale
  decide +kernel

end Catalogue

end Metrology
