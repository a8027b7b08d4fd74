import Metrology.Proofs.Expression.Composing
import Metrology.Proofs.Unit.FactorText

/-!
# Names of composed units are faithful

What a composed unit is called, with stars for its middle dots, is an expression for the unit
(`UnitOfMeasure.Composed.name_faithful`).

A name is read in one of three ways (`Name.ReadsAs`): as an atom, as an integer power of an atom, or
as a product that has a mark, a character that no atom and no power of one contains.  These are
the cases that `Name.atom?` distinguishes, and so it is known where a name is put in parentheses,
where an exponent is put behind it and where it joins an exponent that is there already
(`ReadsAs.power`, `ReadsAs.product`, `ReadsAs.quotient`).  Two units of one name need not be equal,
but since a text is read in one way only they stand for one amount, so that their product may be
called a square.
-/

namespace Metrology

open Text Grammar

namespace Name

/-- A name as it stands in an expression, with stars for its middle dots. -/
def starred (cs : List Char) : List Char := cs.map fun c => if c = '·' then '*' else c

theorem starred_append (as bs : List Char) : starred (as ++ bs) = starred as ++ starred bs :=
  List.map_append

theorem starred_eq_self {cs : List Char} (h : ∀ c ∈ cs, c ≠ '·') : starred cs = cs := by
  rw [starred]
  exact (List.map_congr_left fun c hc => if_neg (h c hc)).trans cs.map_id'

theorem toList_parenthesized (name : String) :
    (parenthesized name).toList = '(' :: (name.toList ++ [')']) := by
  rw [parenthesized, String.toList_append, String.toList_append]
  rfl

/-! ### Characters -/

theorem isAtomChar_of_isWord {c : Char} (h : isWord c = true) : isAtomChar c = true := by
  have hne {d : Char} (hd : isWord d = false) : (c == d) = false :=
    beq_eq_false_iff_ne.mpr (ne_of_class h hd)
  rw [isAtomChar, isBlank_eq_false_of_isWord h, hne (d := '·') (by decide +kernel),
    hne (d := '/') (by decide +kernel), hne (d := '^') (by decide +kernel),
    hne (d := '(') (by decide +kernel), hne (d := ')') (by decide +kernel)]
  rfl

theorem isAtomChar_of_isDigit {c : Char} (h : isDigit c = true) : isAtomChar c = true :=
  isAtomChar_of_isWord (isWord_of_isDigit h)

theorem isSignedRow_cases {cs : List Char} (h : isSignedRow cs = true) :
    ∃ negative ds, cs = Literal.signText negative ++ ds ∧ ds ≠ [] ∧
      (∀ c ∈ ds, isDigit c = true) ∧
      (signedValue cs : Rat) = Literal.withSign negative (positional ds) := by
  unfold isSignedRow at h
  split at h
  · rename_i ds
    rw [Bool.and_eq_true, List.all_eq_true, Bool.not_eq_true', List.isEmpty_eq_false_iff] at h
    refine ⟨true, ds, rfl, h.1, h.2, ?_⟩
    rw [signedValue, Int.cast_neg, Int.cast_natCast]
    rfl
  · rename_i hminus
    rw [Bool.and_eq_true, List.all_eq_true, Bool.not_eq_true', List.isEmpty_eq_false_iff] at h
    refine ⟨false, cs, rfl, h.1, h.2, ?_⟩
    rw [signedValue, Int.cast_natCast]
    · rfl
    · exact hminus

theorem isAtomChar_of_mem_signedRow {cs : List Char} (h : isSignedRow cs = true) {c : Char}
    (hc : c ∈ cs) : isAtomChar c = true := by
  obtain ⟨negative, ds, rfl, -, hds, -⟩ := isSignedRow_cases h
  rcases List.mem_append.mp hc with hc | hc
  · cases negative with
    | true =>
      obtain rfl := List.mem_singleton.mp hc
      decide +kernel
    | false => cases hc
  · exact isAtomChar_of_isDigit (hds c hc)

/-- A row that begins with a digit has no sign. -/
theorem isSignedRow_of_isDigit {c : Char} (hc : isDigit c = true) (cs : List Char) :
    isSignedRow (c :: cs) = cs.all isDigit ∧ signedValue (c :: cs) = positional (c :: cs) := by
  have hminus : c ≠ '-' := ne_of_class hc (by decide +kernel)
  constructor
  · unfold isSignedRow
    split
    · rename_i heq
      exact absurd (List.cons.inj heq).1 hminus
    · rw [List.all_cons, hc]
      rfl
  · unfold signedValue
    split
    · rename_i heq
      exact absurd (List.cons.inj heq).1 hminus
    · rfl

theorem signedRow_toString (n : Int) :
    isSignedRow (toString n).toList = true ∧ signedValue (toString n).toList = n := by
  have hdigits (c : Char) (hc : c ∈ Decimal.digits n.natAbs) : isDigit c = true :=
    Decimal.isDigit_of_mem_digits hc
  have hvalue := Decimal.positional_digits n.natAbs
  obtain ⟨c, cs, hcs⟩ := List.exists_cons_of_ne_nil (Decimal.digits_ne_nil n.natAbs)
  rw [Literal.toString_int_toList]
  rw [hcs] at hdigits hvalue ⊢
  by_cases hn : n < 0
  · have hrow : (c :: cs).all isDigit = true := List.all_eq_true.mpr hdigits
    rw [decide_eq_true hn]
    constructor
    · exact hrow
    · show -(positional (c :: cs) : Int) = n
      rw [hvalue]
      omega
  · obtain ⟨hrow, hsigned⟩ := isSignedRow_of_isDigit (hdigits c List.mem_cons_self) cs
    rw [decide_eq_false hn]
    constructor
    · have hcs : cs.all isDigit = true :=
        List.all_eq_true.mpr fun x hx => hdigits x (List.mem_cons_of_mem c hx)
      exact hrow.trans hcs
    · refine hsigned.trans ?_
      rw [hvalue]
      omega

theorem starred_caret (n : Int) :
    starred ('^' :: (toString n).toList) = '^' :: (toString n).toList := by
  apply starred_eq_self
  intro c hc
  rcases List.mem_cons.mp hc with rfl | hc
  · decide
  · have hatom : isAtomChar c = true := isAtomChar_of_mem_signedRow (signedRow_toString n).1 hc
    exact ne_of_class hatom (by decide +kernel)

/-! ### Atoms -/

/-- Whether a text may be the base of an atom. -/
structure IsBase (cs : List Char) : Prop where
  ne_nil : cs ≠ []
  isAtomChar : ∀ c ∈ cs, isAtomChar c = true

theorem endsRun_caret (cs : List Char) : EndsRun isAtomChar ('^' :: cs) :=
  endsRun_cons (by decide +kernel) cs

theorem atom?_base {cs : List Char} (h : IsBase cs) : atom? cs = some (cs, none) := by
  have htake := takeWhile_append_of_ends h.isAtomChar (endsRun_nil isAtomChar)
  have hdrop := dropWhile_append_of_ends h.isAtomChar (endsRun_nil isAtomChar)
  rw [List.append_nil] at htake hdrop
  rw [atom?, htake, hdrop, List.isEmpty_eq_false_iff.mpr h.ne_nil]
  rfl

theorem atom?_raised {base : List Char} (h : IsBase base) (n : Int) :
    atom? (base ++ '^' :: (toString n).toList) = some (base, some n) := by
  obtain ⟨hrow, hvalue⟩ := signedRow_toString n
  rw [atom?, takeWhile_append_of_ends h.isAtomChar (endsRun_caret _),
    dropWhile_append_of_ends h.isAtomChar (endsRun_caret _),
    List.isEmpty_eq_false_iff.mpr h.ne_nil, if_neg Bool.false_ne_true]
  exact (if_pos hrow).trans (by rw [hvalue])

theorem operand_of_atom? {name : String} (h : (atom? name.toList).isSome = true) :
    operand name = name := if_pos h

theorem operand_base {name : String} (h : IsBase name.toList) : operand name = name :=
  operand_of_atom? (by rw [atom?_base h]; rfl)

theorem operand_raised {name : String} {base : List Char} (h : IsBase base) {n : Int}
    (hname : name.toList = base ++ '^' :: (toString n).toList) : operand name = name :=
  operand_of_atom? (by rw [hname, atom?_raised h]; rfl)

/-- A character that keeps a name from being an atom or a power of one. -/
def IsMark (c : Char) : Prop := isAtomChar c = false ∧ c ≠ '^'

theorem atom?_eq_none {cs : List Char} (h : ∃ c ∈ cs, IsMark c) : atom? cs = none := by
  obtain ⟨c, hc, hmark⟩ := h
  have hrest : c ∈ cs.dropWhile isAtomChar := by
    rw [← List.takeWhile_append_dropWhile (p := isAtomChar) (l := cs), List.mem_append] at hc
    refine hc.resolve_left fun hc => ?_
    have hatom : isAtomChar c = true := List.all_eq_true.mp List.all_takeWhile c hc
    cases hmark.1.symm.trans hatom
  rw [atom?]
  split
  · rfl
  · split
    · rename_i heq
      rw [heq] at hrest
      cases hrest
    · rename_i e heq
      rw [heq] at hrest
      have he : c ∈ e := (List.mem_cons.mp hrest).resolve_left hmark.2
      refine if_neg fun hrow => ?_
      cases hmark.1.symm.trans (isAtomChar_of_mem_signedRow hrow he)
    · rfl

theorem operand_of_mark {name : String} (h : ∃ c ∈ name.toList, IsMark c) :
    operand name = parenthesized name := by
  have hatom : isAtom name = false := by
    rw [isAtom, atom?_eq_none h]
    rfl
  rw [operand, hatom, if_neg Bool.false_ne_true]

/-! ### How names are read -/

variable {resolve : String → Outcome Quantity} {name a b : String} {x y : Amount}

theorem ne_dot_of_isPlain {l : Lexeme} (hl : l.IsPlain) : ∀ c ∈ l.text, c ≠ '·' := by
  have hword {c : Char} (hc : isWord c = true) : c ≠ '·' := ne_of_class hc (by decide +kernel)
  intro c hc
  cases l with
  | number n =>
    simp only [Lexeme.text, Numeral.text, hl.exponent, List.mem_append] at hc
    rcases hc with ((hc | hc) | hc) | hc
    · exact hword (isWord_of_isDigit (hl.whole c hc))
    · split at hc
      · obtain rfl := List.mem_singleton.mp hc
        decide
      · cases hc
    · exact hword (isWord_of_isDigit (hl.fraction c hc))
    · cases hc
  | name cs => exact hword ((isWord_of_isIdentifier hl).2 c hc)
  | operator o =>
    have hall : (o.text.all fun c => c != '·') = true := by
      cases o <;> decide
    exact bne_iff_ne.mp (List.all_eq_true.mp hall c hc)

/-- What a derivation writes has no middle dots. -/
theorem starred_of_spells {p : Product} {text : List Char} (h : p.Spells resolve text x) :
    starred text = text := by
  have hwritten := h.isSpelled.written endsOperand_nil written_nil
  rw [List.append_nil] at hwritten
  apply starred_eq_self
  intro c hc
  rw [← h.text, List.mem_flatMap] at hc
  obtain ⟨l, hl, hc⟩ := hc
  exact ne_dot_of_isPlain (hwritten.plain l hl) c hc

/-- A name in parentheses is an atom of expressions, though none of names. -/
theorem spells_parenthesized {p : Product} (hp : p.Spells resolve (starred name.toList) x) :
    (Atom.group p).Spells resolve (starred (parenthesized name).toList) x := by
  have htext : starred (parenthesized name).toList = '(' :: (starred name.toList ++ [')']) := by
    rw [toList_parenthesized]
    show '(' :: starred (name.toList ++ [')']) = _
    rw [starred_append]
    rfl
  rw [htext]
  exact Atom.spells_group hp

/-- How a name is read as something that stands for an amount. -/
inductive ReadsAs (resolve : String → Outcome Quantity) : String → Amount → Prop
  | atom {name : String} {x : Amount} (a : Atom) (ha : a.Spells resolve name.toList x)
    (hbase : IsBase name.toList) : ReadsAs resolve name x
  | raised {name : String} {x : Amount} {base : List Char} (a : Atom) (n : Int)
    (ha : a.Spells resolve base x) (hbase : IsBase base) (hx : x.magnitude ≠ 0)
    (hname : name.toList = base ++ '^' :: (toString n).toList) : ReadsAs resolve name (x.pow n)
  | composed {name : String} {x : Amount} (p : Product)
    (hp : p.Spells resolve (starred name.toList) x) (hmark : ∃ c ∈ name.toList, IsMark c) :
    ReadsAs resolve name x

namespace ReadsAs

theorem exists_product (h : ReadsAs resolve name x) :
    ∃ p : Product, p.Spells resolve (starred name.toList) x := by
  cases h with
  | atom a ha hbase =>
    have hp := ha.term.product
    rw [← starred_of_spells hp] at hp
    exact ⟨_, hp⟩
  | raised a n ha hbase hx hname =>
    have hp := (Term.spells_raised ha hx n).product
    rw [← hname] at hp
    rw [← starred_of_spells hp] at hp
    exact ⟨_, hp⟩
  | composed p hp hmark => exact ⟨p, hp⟩

theorem unique (hx : ReadsAs resolve name x) (hy : ReadsAs resolve name y) : x = y := by
  obtain ⟨p, hp⟩ := hx.exists_product
  obtain ⟨q, hq⟩ := hy.exists_product
  exact hp.unique hq

theorem ne_empty (h : ReadsAs resolve name x) : name ≠ "" := by
  rintro rfl
  cases h with
  | atom a ha hbase => exact hbase.ne_nil rfl
  | raised a n ha hbase hx hname =>
    rw [eq_comm, String.toList_empty, List.append_eq_nil_iff] at hname
    exact hbase.ne_nil hname.1
  | composed p hp hmark =>
    obtain ⟨c, hc, -⟩ := hmark
    cases hc

/-- What stands behind a slash is a term. -/
theorem exists_operand (h : ReadsAs resolve name x) :
    ∃ t : Term, t.Spells resolve (starred (operand name).toList) x := by
  cases h with
  | atom a ha hbase =>
    have ht := ha.term
    rw [operand_base hbase, starred_of_spells ht.product]
    exact ⟨_, ht⟩
  | raised a n ha hbase hx hname =>
    have ht := Term.spells_raised ha hx n
    rw [operand_raised hbase hname, hname, starred_of_spells ht.product]
    exact ⟨_, ht⟩
  | composed p hp hmark =>
    rw [operand_of_mark hmark]
    exact ⟨_, (spells_parenthesized hp).term⟩

/-- What stands in a product is one itself. -/
theorem exists_factor (h : ReadsAs resolve name x) :
    ∃ p : Product, p.Spells resolve (starred (factor name).toList) x := by
  obtain ⟨p, hp⟩ := h.exists_product
  rw [factor]
  split
  · exact ⟨_, (spells_parenthesized hp).term.product⟩
  · exact ⟨p, hp⟩

/-! ### How composed names are read -/

theorem isMark_dot : IsMark '·' := ⟨by decide +kernel, by decide⟩

theorem isMark_slash : IsMark '/' := ⟨by decide +kernel, by decide⟩

theorem isMark_opening : IsMark '(' := ⟨by decide +kernel, by decide⟩

theorem one : ReadsAs resolve "1" .one := by
  have hvalue : Amount.ofRat (Decimal.numeral 1).value = .one := by
    rw [Decimal.value_numeral]
    rfl
  have h : (Atom.number (Decimal.numeral 1)).Spells resolve _ _ :=
    Atom.spells_number (Decimal.isPlain_numeral 1)
  rw [hvalue] at h
  have hall : "1".toList.all isAtomChar = true := by decide +kernel
  exact .atom _ h ⟨by decide, List.all_eq_true.mp hall⟩

theorem power (h : ReadsAs resolve name x) (hx : x.magnitude ≠ 0) (n : Int) :
    ReadsAs resolve (Name.power name n) (x.pow n) := by
  rw [Name.power, if_neg h.ne_empty]
  split
  · rename_i hn
    rw [hn, x.pow_zero]
    exact one
  split
  · rename_i hn
    rw [hn, x.pow_one]
    exact h
  cases h with
  | atom a ha hbase =>
    rw [atom?_base hbase, operand_base hbase]
    exact .raised a n ha hbase hx (toList_separated "^" rfl name (toString n))
  | @raised y base a e ha hbase hy hname =>
    -- The exponents are multiplied, and the exponent one is not written.
    rw [hname, atom?_raised hbase, ← y.pow_mul]
    dsimp only
    split
    · rename_i hone
      rw [hone, y.pow_one]
      exact .atom a (by rwa [String.toList_ofList]) (by rwa [String.toList_ofList])
    · refine .raised a (e * n) ha hbase hy ?_
      rw [toList_separated "^" (c := '^') rfl, String.toList_ofList]
  | composed p hp hmark =>
    have ht := (Term.spells_raised (spells_parenthesized hp) hx n).product
    have htext := toList_separated "^" (c := '^') rfl (parenthesized name) (toString n)
    rw [atom?_eq_none hmark, operand_of_mark hmark]
    refine .composed (.mk (.raised (.group p) n) .done) ?_ ⟨'(', ?_, isMark_opening⟩
    · rw [htext, starred_append, starred_caret]
      exact ht
    · rw [htext, toList_parenthesized]
      exact List.mem_cons_self

/-- What a product or a quotient is called is composed: its separator is a mark. -/
theorem of_separated {separator : String} {c : Char} (h : separator.toList = [c])
    (hc : IsMark c) {z : Amount} {p : Product}
    (hp : p.Spells resolve (starred (a.toList ++ c :: b.toList)) z) :
    ReadsAs resolve (a ++ separator ++ b) z := by
  have htext := toList_separated separator h a b
  refine .composed p ?_ ⟨c, ?_, hc⟩
  · rwa [htext]
  · rw [htext]
    exact List.mem_append_right _ List.mem_cons_self

theorem starred_dot (as bs : List Char) :
    starred (as ++ '·' :: bs) = starred as ++ '*' :: starred bs := starred_append as ('·' :: bs)

theorem starred_slash (as bs : List Char) :
    starred (as ++ '/' :: bs) = starred as ++ '/' :: starred bs := starred_append as ('/' :: bs)

theorem product (ha : ReadsAs resolve a x) (hb : ReadsAs resolve b y) (hx : x.magnitude ≠ 0) :
    ReadsAs resolve (Name.product a b) (x.mul y) := by
  have hne : ¬ (a = "" ∨ b = "") := fun h => h.elim ha.ne_empty hb.ne_empty
  rw [Name.product, if_neg hne]
  split
  · -- Units of one name stand for one amount.
    rename_i hab
    rw [← hab] at hb
    rw [ha.unique hb, hb.unique ha, x.mul_self]
    exact ha.power hx 2
  · obtain ⟨p, hp⟩ := ha.exists_factor
    obtain ⟨q, hq⟩ := hb.exists_factor
    have hpq := hp.times hq
    rw [← starred_dot] at hpq
    exact of_separated rfl isMark_dot hpq

theorem quotient (ha : ReadsAs resolve a x) (hb : ReadsAs resolve b y) (hy : y.magnitude ≠ 0) :
    ReadsAs resolve (Name.quotient a b) (x.div y) := by
  have hne : ¬ (a = "" ∨ b = "") := fun h => h.elim ha.ne_empty hb.ne_empty
  obtain ⟨p, hp⟩ := ha.exists_factor
  obtain ⟨t, ht⟩ := hb.exists_operand
  have hpt := hp.over ht hy
  rw [← starred_slash] at hpt
  rw [Name.quotient, if_neg hne]
  exact of_separated rfl isMark_slash hpt

end ReadsAs

end Name

/-! ### Numbers before units -/

variable {resolve : String → Outcome Quantity}

/-- An integer or a quotient of two writes a number without loss. -/
theorem exists_spells_exactText (f : Rat) :
    ∃ p : Product, p.Spells resolve (Decimal.exactText f).toList (.ofRat f) := by
  have hnum : (Term.integer f.num).Spells resolve _ _ := Term.spells_integer f.num
  rw [Decimal.exactText]
  split
  · rename_i hden
    have hf : ((f.num : Int) : Rat) = f := (Rat.den_eq_one_iff f).mp hden
    rw [hf] at hnum
    exact ⟨_, hnum.product⟩
  · have hden : (Term.integer f.den).Spells resolve _ _ := Term.spells_integer f.den
    have hne : (Amount.ofRat (f.den : Int)).magnitude ≠ 0 := by
      show ((f.den : Int) : Rat) ≠ 0
      rw [Int.cast_natCast]
      exact Nat.cast_ne_zero.mpr f.den_nz
    have hquotient : (Amount.ofRat f.num).div (.ofRat (f.den : Int)) = .ofRat f := by
      refine Amount.ext ?_ (Dimension.ext_exponent fun p => ?_)
      · show (f.num : Rat) / ((f.den : Int) : Rat) = f
        rw [Int.cast_natCast, Rat.num_div_den]
      · simp [Amount.div, Amount.ofRat]
    have h := hnum.product.over hden hne
    rw [hquotient] at h
    have htext := toList_separated "/" (c := '/') rfl (toString f.num)
      (toString (f.den : Int))
    rw [← htext] at h
    exact ⟨_, h⟩

namespace UnitOfMeasure

/-- The number before a unit is read back, as it is rounded or, where that is not exact, without
loss. -/
theorem exists_spells_factorText (f : Rat) :
    ∃ p : Product, p.Spells resolve (factorText f).toList (.ofRat f) := by
  rw [factorText_eq]
  split
  · rename_i hf
    have hn := Decimal.isPlain_unsigned 12 (Decimal.lastPlaces 12 f)
    have ht : (Term.signed (Decimal.writesMinus 12 f) _).Spells resolve _ _ :=
      Term.spells_signed hn _
    rw [Decimal.value_unsigned, ← Decimal.toList_render_eq, ← Decimal.written, hf] at ht
    exact ⟨_, ht.product⟩
  · exact exists_spells_exactText f

/-! ### Composed units -/

/-- The units that are composed of given ones, and of the unit of pure numbers. -/
inductive Composed (given : UnitOfMeasure → Prop) : UnitOfMeasure → Prop
  | given {u : UnitOfMeasure} (h : given u) : Composed given u
  | one : Composed given .one
  | mul {u v : UnitOfMeasure} (hu : Composed given u) (hv : Composed given v) :
    Composed given (u.mul v)
  | div {u v : UnitOfMeasure} (hu : Composed given u) (hv : Composed given v) :
    Composed given (u.div v)
  | pow {u : UnitOfMeasure} (n : Int) (hu : Composed given u) : Composed given (u.pow n)
  | reciprocal {u : UnitOfMeasure} (hu : Composed given u) : Composed given u.reciprocal
  | scaled {u v : UnitOfMeasure} {f : Rat} (hu : Composed given u) (hv : u.scaled f = .ok v) :
    Composed given v

/-- What a unit stands for. -/
def amount (u : UnitOfMeasure) : Amount := ⟨u.scale, u.dim⟩

theorem amount_pow (u : UnitOfMeasure) (n : Int) : (u.pow n).amount = u.amount.pow n := by
  rw [amount, scale_pow]
  rfl

theorem amount_reciprocal (u : UnitOfMeasure) :
    u.reciprocal.amount = Amount.one.div u.amount :=
  Amount.ext (u.scale_reciprocal.trans (one_div u.scale).symm) rfl

theorem reads_scaled {u v : UnitOfMeasure} {f : Rat} (h : Name.ReadsAs resolve u.name u.amount)
    (hv : u.scaled f = .ok v) : Name.ReadsAs resolve v.name v.amount := by
  rw [scaled, if_neg h.ne_empty, ofScale] at hv
  split at hv
  · cases hv
  · obtain rfl := Except.ok.inj hv
    obtain ⟨p, hp⟩ : ∃ p : Product, p.Spells resolve (factorText f).toList (.ofRat f) :=
      exists_spells_factorText f
    obtain ⟨q, hq⟩ := h.exists_product
    have hpq := hp.times hq
    have hamount : (Amount.ofRat f).mul u.amount = ⟨f * u.scale, u.dim⟩ := by
      refine Amount.ext rfl (Dimension.ext_exponent fun p => ?_)
      simp [Amount.mul, Amount.ofRat, amount]
    rw [hamount, ← Name.starred_of_spells hp, ← Name.ReadsAs.starred_dot] at hpq
    exact Name.ReadsAs.of_separated rfl Name.ReadsAs.isMark_dot hpq

/-- The name of a composed unit is read as something that stands for the unit. -/
theorem Composed.reads {given : UnitOfMeasure → Prop}
    (hnames : ∀ u, given u → isIdentifier u.name.toList = true)
    (hresolve : ∀ u, given u → resolve u.name = .ok (.unit u)) {u : UnitOfMeasure}
    (h : Composed given u) : Name.ReadsAs resolve u.name u.amount := by
  induction h with
  | @given u hu =>
    have hid := hnames u hu
    have hv : resolve (String.ofList u.name.toList) = .ok (.unit u) := by
      rw [String.ofList_toList]
      exact hresolve u hu
    obtain ⟨hne, hword⟩ := isWord_of_isIdentifier hid
    refine .atom _ (Atom.spells_name hid hv) ⟨hne, fun c hc => ?_⟩
    exact Name.isAtomChar_of_isWord (hword c hc)
  | one => exact .one
  | @mul u v _ _ ihu ihv => exact ihu.product ihv u.scale_ne_zero
  | @div u v _ _ ihu ihv => exact ihu.quotient ihv v.scale_ne_zero
  | @pow u n _ ih =>
    rw [amount_pow]
    exact ih.power u.scale_ne_zero n
  | @reciprocal u _ ih =>
    -- A reciprocal is called as the quotient of one by the unit is, and its scale is that quotient.
    have hname : u.reciprocal.name = Name.quotient "1" u.name := if_neg ih.ne_empty
    rw [hname, amount_reciprocal]
    exact Name.ReadsAs.one.quotient ih u.scale_ne_zero
  | scaled _ hv ih => exact reads_scaled ih hv

/-- **Names of composed units are faithful**: where every given unit is called by an identifier that
resolves to it, the name of a composed unit, with stars for its middle dots, is an expression whose
value has the scale and the dimension of the unit. -/
theorem Composed.name_faithful {given : UnitOfMeasure → Prop}
    (hnames : ∀ u, given u → isIdentifier u.name.toList = true)
    (hresolve : ∀ u, given u → resolve u.name = .ok (.unit u)) {u : UnitOfMeasure}
    (h : Composed given u) :
    ∃ e v, Expression.ofText (String.ofList (Name.starred u.name.toList)) = .ok e ∧
      e.eval resolve = .ok v ∧ v.magnitude = u.scale ∧ v.dim = u.dim := by
  obtain ⟨p, hp⟩ := (h.reads hnames hresolve).exists_product
  obtain ⟨v, hv, hamount⟩ := hp.denotes.eval_eq_ok
  exact ⟨p.tree, v, hp.ofText_eq, hv, congrArg Amount.magnitude hamount,
    congrArg Amount.dim hamount⟩

/-- Names resolved to the units of a list. -/
def resolving (units : List UnitOfMeasure) (name : String) : Outcome Quantity :=
  match units.find? (·.name = name) with
  | some u => .ok (.unit u)
  | none => .error (.unknownUnit name)

/-- Units of different names are resolved each to itself. -/
theorem resolving_eq_ok {units : List UnitOfMeasure} {u : UnitOfMeasure} (hu : u ∈ units)
    (hdistinct : units.Pairwise fun v w => v.name ≠ w.name) :
    resolving units u.name = .ok (.unit u) := by
  have hfind : units.find? (·.name = u.name) = some u := by
    induction hdistinct with
    | nil => cases hu
    | @cons v rest hv _ ih =>
      rcases List.mem_cons.mp hu with rfl | hu
      · exact List.find?_cons_of_pos (by simp)
      · rw [List.find?_cons_of_neg (by simpa using hv u hu), ih hu]
  rw [resolving, hfind]

/-- The unit is called `(-1/3·m/s)^-2`. -/
theorem Composed.name_faithful_negative_third :
    let m := ofPrimitive ⟨0, "length"⟩ "m"
    let s := ofPrimitive ⟨1, "time"⟩ "s"
    ∃ v, (m.div s).scaled (-1 / 3) = .ok v ∧ (v.pow (-2)).name = "(-1/3·m/s)^-2" ∧
      ∃ e w, Expression.ofText (String.ofList (Name.starred (v.pow (-2)).name.toList)) = .ok e ∧
        e.eval (resolving [m, s]) = .ok w ∧ w.magnitude = (v.pow (-2)).scale ∧
        w.dim = (v.pow (-2)).dim := by
  intro m s
  have hscale : -1 / 3 * (m.div s).scale ≠ 0 := by decide +kernel
  let v : UnitOfMeasure := ⟨(m.div s).dim, -1 / 3 * (m.div s).scale, "-1/3·m/s", hscale⟩
  have hname : (if (m.div s).name = "" then ""
      else factorText (-1 / 3) ++ "·" ++ (m.div s).name) = "-1/3·m/s" := by
    decide +kernel
  have hv : (m.div s).scaled (-1 / 3) = .ok v := by
    rw [UnitOfMeasure.scaled, ofScale, dif_neg hscale, hname]
  have hnames (u : UnitOfMeasure) (hu : u ∈ [m, s]) : isIdentifier u.name.toList = true := by
    rcases List.mem_pair.mp hu with rfl | rfl <;> decide +kernel
  have hresolve (u : UnitOfMeasure) (hu : u ∈ [m, s]) :
      resolving [m, s] u.name = .ok (.unit u) :=
    resolving_eq_ok hu (by decide +kernel)
  have hm : Composed (· ∈ [m, s]) m := .given List.mem_cons_self
  have hs : Composed (· ∈ [m, s]) s := .given (List.mem_cons_of_mem m List.mem_cons_self)
  have hpower : (v.pow (-2)).name = "(-1/3·m/s)^-2" := by
    show Name.power v.name (-2) = _
    show Name.power "-1/3·m/s" (-2) = _
    decide +kernel
  exact ⟨v, hv, hpower, name_faithful hnames hresolve (((hm.div hs).scaled hv).pow (-2))⟩

end UnitOfMeasure

end Metrology
