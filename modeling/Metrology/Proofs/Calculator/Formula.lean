import Metrology.Calculator.Formula
import Metrology.Proofs.Calculator.Operation
import Metrology.Proofs.Expression.Inlining

/-!
# Expressions over quantities

Numbers, units and measurements are combined as values of a calculation just as they are combined as
quantities (`product_ofQuantity`, `quotient_ofQuantity`, `opposite_ofQuantity`,
`raisedTo_ofQuantity`).  So an expression has the same value either way, whatever happens while its
names are looked up (`related_ofExpression`); `ofExpression_ofQuantity` is the case where nothing
does.

A name may stand for a value of any other kind, but only an expression that is that name alone has
such a value (`combines_of_ofExpression`).
-/

namespace Metrology.Calculator.Value

/-! ### Values that are quantities -/

variable {a b v w : Value} {p q : Quantity}

@[simp] theorem quantity?_ofQuantity (q : Quantity) : (ofQuantity q).quantity? = some q := by
  cases q <;> rfl

@[simp] theorem isLabelled_ofQuantity (q : Quantity) : (ofQuantity q).isLabelled = false := by
  cases q <;> rfl

@[simp] theorem unlabelled_ofQuantity (q : Quantity) :
    (ofQuantity q).unlabelled = ofQuantity q := by
  cases q <;> rfl

@[simp] theorem asQuantity_ofQuantity (q : Quantity) : (ofQuantity q).asQuantity = .ok q := by
  rw [asQuantity, quantity?_ofQuantity]

theorem eq_ofQuantity (h : v.quantity? = some q) : v = ofQuantity q := by
  unfold quantity? at h
  split at h <;> cases h <;> rfl

theorem combined_ofQuantity (f : Quantity → Quantity → Outcome Quantity) (p q : Quantity) :
    combined f (ofQuantity p) (ofQuantity q) = ofQuantity <$> f p q := by
  rw [combined, asQuantity_ofQuantity, asQuantity_ofQuantity]
  rfl

theorem product_ofQuantity (p q : Quantity) :
    (ofQuantity p).product (ofQuantity q) = .ok (ofQuantity (p.mul q)) := by
  rw [product, withLabels_of_unlabelled _ _ (isLabelled_ofQuantity p) (isLabelled_ofQuantity q),
    combined_ofQuantity]
  rfl

theorem quotient_ofQuantity (p q : Quantity) :
    (ofQuantity p).quotient (ofQuantity q) = ofQuantity <$> p.div q := by
  rw [quotient, withLabels_of_unlabelled _ _ (isLabelled_ofQuantity p) (isLabelled_ofQuantity q),
    combined_ofQuantity]

theorem opposite_ofQuantity (q : Quantity) : (ofQuantity q).opposite = .ok (ofQuantity q.neg) := by
  rw [opposite, unlabelled_ofQuantity, asQuantity_ofQuantity, isLabelled_ofQuantity]
  rfl

theorem raisedTo_ofQuantity (p q : Quantity) :
    (ofQuantity p).raisedTo (ofQuantity q) = ofQuantity <$> p.pow q := by
  rw [raisedTo, quantity?_ofQuantity, quantity?_ofQuantity]

/-! ### Expressions whose names stand for quantities -/

section

variable {m n : Type → Type} [Monad m] [MonadExceptOf Error m] [Monad n] [MonadExceptOf Error n]

/-- Whatever relates the ways of looking a name up, and stays when steps are taken one after the
other, relates the ways of finding the value of an expression. -/
theorem related_ofExpression (R : m Value → n Quantity → Prop)
    (hexcept : ∀ x : Outcome Quantity,
      R (MonadExcept.ofExcept (ofQuantity <$> x)) (MonadExcept.ofExcept x))
    (hbind : ∀ a b f g, R a b → (∀ q, R (f (ofQuantity q)) (g q)) → R (a >>= f) (b >>= g))
    {resolve : String → m Value} {resolve' : String → n Quantity}
    (hresolve : ∀ s, R (resolve s) (resolve' s)) (e : Expression) :
    R (ofExpression resolve e) (e.evalM resolve') := by
  induction e with
  | number q => exact hexcept (.ok (.number q))
  | name s => exact hresolve s
  | neg e ih =>
    refine hbind _ _ _ _ ih fun q => ?_
    rw [opposite_ofQuantity]
    exact hexcept (.ok q.neg)
  | pow base exponent ihb ihe =>
    refine hbind _ _ _ _ ihb fun p => hbind _ _ _ _ ihe fun q => ?_
    rw [raisedTo_ofQuantity]
    exact hexcept (p.pow q)
  | mul left right ihl ihr =>
    refine hbind _ _ _ _ ihl fun p => hbind _ _ _ _ ihr fun q => ?_
    rw [product_ofQuantity]
    exact hexcept (.ok (p.mul q))
  | div left right ihl ihr =>
    refine hbind _ _ _ _ ihl fun p => hbind _ _ _ _ ihr fun q => ?_
    rw [quotient_ofQuantity]
    exact hexcept (p.div q)

/-- Whatever ways of looking a name up have in common, and stays when steps are taken one after the
other, the ways of finding the value of an expression have in common. -/
theorem closed_ofExpression (P : m Value → Prop)
    (hexcept : ∀ x : Outcome Value, P (MonadExcept.ofExcept x))
    (hbind : ∀ a f, P a → (∀ v, P (f v)) → P (a >>= f))
    {resolve : String → m Value} (hresolve : ∀ s, P (resolve s)) (e : Expression) :
    P (ofExpression resolve e) := by
  induction e with
  | number q => exact hexcept (.ok (rational q))
  | name s => exact hresolve s
  | neg e ih => exact hbind _ _ ih fun v => hexcept v.opposite
  | pow base exponent ihb ihe =>
    exact hbind _ _ ihb fun v => hbind _ _ ihe fun w => hexcept (v.raisedTo w)
  | mul left right ihl ihr =>
    exact hbind _ _ ihl fun v => hbind _ _ ihr fun w => hexcept (v.product w)
  | div left right ihl ihr =>
    exact hbind _ _ ihl fun v => hbind _ _ ihr fun w => hexcept (v.quotient w)

end

/-- **Expressions over quantities**: where names stand for numbers, units and measurements, an
expression has the value that it has among these, and fails where it fails among these. -/
theorem ofExpression_ofQuantity (resolve : String → Outcome Quantity) (e : Expression) :
    ofExpression (fun s => ofQuantity <$> resolve s) e = ofQuantity <$> e.eval resolve := by
  refine related_ofExpression (fun a b => a = ofQuantity <$> b) ?_ ?_ (fun s => rfl) e
  · intro x
    cases x with
    | ok q => rfl
    | error e => rfl
  · rintro _ b f g rfl h
    cases b with
    | ok q => exact h q
    | error e => rfl

/-! ### Values that are no quantities -/

/-- Whether a value can be combined with others: a quantity, perhaps with a label. -/
def Combines (v : Value) : Prop := ∃ q, v.unlabelled.quantity? = some q

theorem combines_ofQuantity (q : Quantity) : (ofQuantity q).Combines :=
  ⟨q, by rw [unlabelled_ofQuantity, quantity?_ofQuantity]⟩

theorem Combines.relabelled (h : v.Combines) (label : Value) : (v.relabelled label).Combines := by
  unfold Value.relabelled
  split
  · exact combines_ofQuantity (.unit _)
  · exact combines_ofQuantity (.unit _)
  · exact combines_ofQuantity (.measurement _)
  · exact combines_ofQuantity (.measurement _)
  · exact h

/-- The result of an operation is one without labels, perhaps with a label of its own. -/
theorem withLabels_eq_ok {f name : Value → Value → Outcome Value}
    (h : withLabels f name a b = .ok v) :
    ∃ w, f a.unlabelled b.unlabelled = .ok w ∧ (v = w ∨ ∃ label, v = w.relabelled label) := by
  rw [withLabels] at h
  split at h
  · split at h
    · rename_i w hw
      obtain ⟨label, -, hlabel⟩ := Outcome.bind_eq_ok_iff.mp h
      cases hlabel
      exact ⟨w, hw, .inr ⟨label, rfl⟩⟩
    · -- An operation that fails without labels has no result with them.
      split at h
      · obtain ⟨-, -, h⟩ := Outcome.bind_eq_ok_iff.mp h
        cases h
      · cases h
  · rename_i hlabelled
    rw [Bool.or_eq_true, not_or, Bool.not_eq_true, Bool.not_eq_true] at hlabelled
    rw [unlabelled_of_isLabelled_eq_false hlabelled.1,
      unlabelled_of_isLabelled_eq_false hlabelled.2]
    exact ⟨v, h, .inl rfl⟩

theorem asQuantity_eq_ok (h : v.asQuantity = .ok q) : v.quantity? = some q := by
  unfold asQuantity at h
  split at h
  · cases h
    assumption
  · cases h

/-- What is combined are values that can be combined, and so is the result. -/
theorem combines_of_withLabels {f : Quantity → Quantity → Outcome Quantity}
    {name : Value → Value → Outcome Value} (h : withLabels (combined f) name a b = .ok v) :
    a.Combines ∧ b.Combines ∧ v.Combines := by
  obtain ⟨w, hw, hv⟩ := withLabels_eq_ok h
  obtain ⟨p, hp, hw⟩ := Outcome.bind_eq_ok_iff.mp hw
  obtain ⟨q, hq, hw⟩ := Outcome.bind_eq_ok_iff.mp hw
  obtain ⟨r, -, hr⟩ := Outcome.bind_eq_ok_iff.mp hw
  cases hr
  refine ⟨⟨p, asQuantity_eq_ok hp⟩, ⟨q, asQuantity_eq_ok hq⟩, ?_⟩
  rcases hv with rfl | ⟨label, rfl⟩
  · exact combines_ofQuantity r
  · exact (combines_ofQuantity r).relabelled label

theorem combines_of_opposite (h : a.opposite = .ok v) : a.Combines ∧ v.Combines := by
  obtain ⟨q, hq, h⟩ := Outcome.bind_eq_ok_iff.mp h
  refine ⟨⟨q, asQuantity_eq_ok hq⟩, ?_⟩
  split at h
  · cases h
    exact (combines_ofQuantity q.neg).relabelled a.label
  · cases h
    exact combines_ofQuantity q.neg

theorem combines_of_powWhole {n : Int} (hlabelled : a.isLabelled = true)
    (h : a.powWhole n = .ok v) : a.Combines ∧ v.Combines := by
  cases a with
  | labelledUnit u name =>
    obtain ⟨label, -, h⟩ := Outcome.bind_eq_ok_iff.mp h
    cases h
    exact ⟨⟨.unit _, rfl⟩, (combines_ofQuantity (.unit _)).relabelled label⟩
  | labelledMeasurement m name =>
    obtain ⟨k, -, h⟩ := Outcome.bind_eq_ok_iff.mp h
    obtain ⟨label, -, h⟩ := Outcome.bind_eq_ok_iff.mp h
    cases h
    exact ⟨⟨.measurement _, rfl⟩, (combines_ofQuantity (.measurement k)).relabelled label⟩
  | _ => cases hlabelled

theorem combines_of_raisedTo (h : a.raisedTo b = .ok v) :
    a.Combines ∧ b.Combines ∧ v.Combines := by
  unfold raisedTo at h
  split at h
  · rename_i e p hb ha
    obtain rfl := eq_ofQuantity ha
    obtain rfl := eq_ofQuantity hb
    refine ⟨combines_ofQuantity p, combines_ofQuantity e, ?_⟩
    cases hpow : p.pow e with
    | error e => rw [hpow] at h; cases h
    | ok r =>
      rw [hpow] at h
      cases h
      exact combines_ofQuantity r
  · rename_i e hb ha
    obtain rfl := eq_ofQuantity hb
    split at h
    · obtain ⟨-, -, h⟩ := Outcome.bind_eq_ok_iff.mp h
      cases h
    · split at h
      · rename_i hlabelled
        have hwhole := combines_of_powWhole hlabelled h
        exact ⟨hwhole.1, combines_ofQuantity (.number e), hwhole.2⟩
      · cases h
  · obtain ⟨shown, -, h⟩ := Outcome.bind_eq_ok_iff.mp h
    cases h

/-- Whether all names in an expression stand for values that can be combined. -/
def NamesCombine (resolve : String → Outcome Value) (e : Expression) : Prop :=
  ∀ s, e.Mentions s → ∃ w, resolve s = .ok w ∧ w.Combines

section

variable {resolve : String → Outcome Value} {e : Expression}

/-- A part that is a name alone may stand for anything, until it is combined. -/
theorem namesCombine_of_combines (h : ofExpression resolve e = .ok v) (hv : v.Combines)
    (hpart : (∃ s, e = .name s) ∨ v.Combines ∧ NamesCombine resolve e) :
    NamesCombine resolve e := by
  rcases hpart with ⟨t, rfl⟩ | ⟨-, hnames⟩
  · rintro s rfl
    exact ⟨v, h, hv⟩
  · exact hnames

/-- **Values that are no quantities are not combined**: an expression that is more than a name has
a value to be combined, if it has any, and so has every name in it. -/
theorem combines_of_ofExpression (h : ofExpression resolve e = .ok v) :
    (∃ s, e = .name s) ∨ v.Combines ∧ NamesCombine resolve e := by
  induction e generalizing v with
  | number q =>
    cases h
    exact .inr ⟨combines_ofQuantity (.number q), fun s hs => hs.elim⟩
  | name s => exact .inl ⟨s, rfl⟩
  | neg e ih =>
    rw [ofExpression, funext Expression.ofExcept_outcome] at h
    obtain ⟨a, ha, h⟩ := Outcome.bind_eq_ok_iff.mp h
    have hcombines := combines_of_opposite h
    exact .inr ⟨hcombines.2, fun s hs => namesCombine_of_combines ha hcombines.1 (ih ha) s hs⟩
  | pow base exponent ihb ihe =>
    rw [ofExpression, funext Expression.ofExcept_outcome] at h
    obtain ⟨a, ha, h⟩ := Outcome.bind_eq_ok_iff.mp h
    obtain ⟨b, hb, h⟩ := Outcome.bind_eq_ok_iff.mp h
    have hcombines := combines_of_raisedTo h
    exact .inr ⟨hcombines.2.2, fun s hs => hs.elim
      (namesCombine_of_combines ha hcombines.1 (ihb ha) s)
      (namesCombine_of_combines hb hcombines.2.1 (ihe hb) s)⟩
  | mul left right ihl ihr =>
    rw [ofExpression, funext Expression.ofExcept_outcome] at h
    obtain ⟨a, ha, h⟩ := Outcome.bind_eq_ok_iff.mp h
    obtain ⟨b, hb, h⟩ := Outcome.bind_eq_ok_iff.mp h
    have hcombines := combines_of_withLabels h
    exact .inr ⟨hcombines.2.2, fun s hs => hs.elim
      (namesCombine_of_combines ha hcombines.1 (ihl ha) s)
      (namesCombine_of_combines hb hcombines.2.1 (ihr hb) s)⟩
  | div left right ihl ihr =>
    rw [ofExpression, funext Expression.ofExcept_outcome] at h
    obtain ⟨a, ha, h⟩ := Outcome.bind_eq_ok_iff.mp h
    obtain ⟨b, hb, h⟩ := Outcome.bind_eq_ok_iff.mp h
    have hcombines := combines_of_withLabels h
    exact .inr ⟨hcombines.2.2, fun s hs => hs.elim
      (namesCombine_of_combines ha hcombines.1 (ihl ha) s)
      (namesCombine_of_combines hb hcombines.2.1 (ihr hb) s)⟩

end

end Metrology.Calculator.Value
