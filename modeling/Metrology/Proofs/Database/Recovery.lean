import Metrology.Proofs.Database.Feed
import Metrology.Proofs.Expression.Parsing

/-!
# Failures that concern one record

Whatever the text of a declaration is, it fails only in ways behind which reading goes on
(`Declaration.contained_apply`), so that reading a record never fails (`Reader.exists_feed_eq_ok`)
and neither does reading all of them (`Reader.exists_foldlM_eq_ok`).

A failure comes from the tokens or the grammar of an expression, from a name, from a quotient or a
power, or from what the value is taken for.  `Recoverable` follows it through outcomes.
`Catalogue.Contained` follows it through activities, together with what they write down: nothing
that says that a record was skipped.
-/

namespace Metrology

/-- Whether an outcome is a failure only if that concerns one record. -/
def Recoverable {α : Type} (x : Outcome α) : Prop :=
  ∀ e, x = .error e → e.kind.isRecoverable = true

namespace Recoverable

variable {α β : Type}

theorem ok (a : α) : Recoverable (.ok a : Outcome α) := by
  intro e h
  cases h

theorem error {e : Error} (h : e.kind.isRecoverable = true) :
    Recoverable (.error e : Outcome α) := by
  intro e' he
  cases he
  exact h

theorem bind {x : Outcome α} {f : α → Outcome β} (hx : Recoverable x)
    (hf : ∀ a, Recoverable (f a)) : Recoverable (x >>= f) := by
  cases x with
  | ok a => exact hf a
  | error e => exact error (hx e rfl)

end Recoverable

/-! ### Expressions -/

theorem Token.kind_of_scanFrom {position : Nat} {cs : List Char} {e : Error}
    (h : scanFrom position cs = .error e) : e.kind = .malformedText := by
  induction position, cs using scanFrom.induct with
  | case1 position cs hblank =>
    rw [scanFrom, if_pos hblank] at h
    cases h
  | case2 position cs hblank hnone =>
    rw [scanFrom, if_neg hblank] at h
    split at h
    · cases h
      rfl
    · next hscan => cases hnone.symm.trans hscan
  | case3 position cs start hblank lexeme rest hsome ih =>
    rw [scanFrom, if_neg hblank] at h
    split at h
    · next hscan => cases hsome.symm.trans hscan
    · next lexeme' rest' hscan =>
      cases hsome.symm.trans hscan
      cases hrest : scanFrom (start + lexeme.text.length) rest with
      | ok tokens =>
        rw [hrest] at h
        cases h
      | error e' =>
        rw [hrest] at h
        cases h
        exact ih hrest

theorem Expression.kind_of_ofText {text : String} {e : Error} (h : ofText text = .error e) :
    e.kind = .malformedText := by
  cases htokens : Token.ofText text with
  | error e' =>
    rw [ofText, htokens] at h
    cases h
    exact Token.kind_of_scanFrom htokens
  | ok tokens =>
    rw [ofText_of_tokens htokens] at h
    obtain ⟨p, -, hp⟩ | ⟨err, herr, hkind⟩ :=
      ofTokens_cases text (Token.allWellFormed_of_ofText htokens)
    · cases hp.symm.trans h
    · cases herr.symm.trans h
      exact hkind

theorem Expression.recoverable_ofText (text : String) : Recoverable (ofText text) := by
  intro e h
  rw [kind_of_ofText h]
  rfl

/-! ### Values -/

theorem UnitOfMeasure.recoverable_ofScale (dim : Dimension) (q : Rat) (name : String) :
    Recoverable (ofScale dim q name) := by
  unfold ofScale
  split
  · exact .error rfl
  · exact .ok _

namespace Quantity

theorem recoverable_div (a b : Quantity) : Recoverable (a.div b) := by
  intro e h
  by_cases hb : b.magnitude = 0
  · obtain ⟨e', he', hkind⟩ := a.div_eq_error hb
    cases he'.symm.trans h
    rw [hkind]
    rfl
  · obtain ⟨v, hv, -⟩ := a.div_eq_ok hb
    cases hv.symm.trans h

theorem recoverable_pow (a x : Quantity) : Recoverable (a.pow x) := by
  intro e h
  by_cases hx : x.isNumber = true ∧ ∃ n : Int, x.magnitude = n
  · obtain ⟨hnumber, n, hn⟩ := hx
    rw [Expression.eq_number_of_isNumber hnumber hn] at h
    by_cases hzero : n < 0 ∧ a.magnitude = 0
    · obtain ⟨e', he', hkind⟩ := pow_eq_error hzero.1 hzero.2
      cases he'.symm.trans h
      rw [hkind]
      rfl
    · obtain ⟨v, hv, -⟩ := a.pow_eq_ok hzero
      cases hv.symm.trans h
  · obtain ⟨e', he', hkind⟩ := a.pow_eq_error_of_not_integer hx
    cases he'.symm.trans h
    rw [hkind]
    rfl

theorem recoverable_toUnit (v : Quantity) (allowNumbers : Bool) :
    Recoverable (v.toUnit allowNumbers) := by
  cases v with
  | unit u => exact .ok u
  | measurement m => exact UnitOfMeasure.recoverable_ofScale _ _ _
  | number q =>
    cases allowNumbers with
    | true => exact UnitOfMeasure.recoverable_ofScale _ _ _
    | false => exact .error rfl

theorem recoverable_toNumber (v : Quantity) : Recoverable v.toNumber := by
  have hmeasurement (m : Measurement) : Recoverable (toNumber.ofMeasurement m) := by
    unfold toNumber.ofMeasurement
    split
    · exact .ok _
    · exact .error rfl
  cases v with
  | number q => exact .ok q
  | unit u => exact hmeasurement (one u)
  | measurement m => exact hmeasurement m

end Quantity

/-! ### Activities -/

namespace Catalogue

variable {α β : Type}

theorem recoverable_compose (c : Catalogue) (name : String) : Recoverable (c.compose name) := by
  unfold compose
  split
  · exact (UnitOfMeasure.recoverable_ofScale _ _ _).bind fun u => .ok _
  · exact .ok _
  · exact .error rfl

/-- Whether an activity fails only in ways that concern one record, and writes down only what
happens to catalogues. -/
structure Contained (a : Activity α) : Prop where
  recoverable : ∀ j : Journal, Recoverable (a j).1
  notes : ∀ j : Journal, ∃ later, (a j).2.events = j.events ++ later ∧
    ∀ event ∈ later, event.source = .catalogue

theorem contained_pure (x : α) : Contained (pure x : Activity α) where
  recoverable := fun _ => .ok x
  notes := fun j => ⟨[], (List.append_nil j.events).symm, List.forall_mem_nil _⟩

theorem contained_ofExcept {x : Outcome α} (h : Recoverable x) :
    Contained (MonadExcept.ofExcept x : Activity α) where
  recoverable := fun j => by
    rw [ofExcept_apply]
    exact h
  notes := fun j => by
    rw [ofExcept_apply]
    exact ⟨[], (List.append_nil j.events).symm, List.forall_mem_nil _⟩

theorem Contained.bind {a : Activity α} {b : α → Activity β} (ha : Contained a)
    (hb : ∀ x, Contained (b x)) : Contained (a >>= b) where
  recoverable := by
    intro j
    cases h : (a j).1 with
    | ok x =>
      rw [bind_of_ok h]
      exact (hb x).recoverable _
    | error e =>
      rw [bind_of_error h]
      exact .error (ha.recoverable j e h)
  notes := by
    intro j
    obtain ⟨first, hfirst, hcatalogue⟩ := ha.notes j
    cases h : (a j).1 with
    | ok x =>
      obtain ⟨second, hsecond, hcatalogue'⟩ := (hb x).notes (a j).2
      rw [bind_of_ok h]
      refine ⟨first ++ second, by rw [hsecond, hfirst, List.append_assoc], ?_⟩
      intro event hevent
      rcases List.mem_append.mp hevent with hevent | hevent
      · exact hcatalogue event hevent
      · exact hcatalogue' event hevent
    | error e =>
      rw [bind_of_error h]
      exact ⟨first, hfirst, hcatalogue⟩

theorem contained_lookup (name : String) : Contained (lookup name) where
  recoverable := by
    intro j e h
    cases hunit : j.catalogue.units.get? name with
    | some u =>
      simp only [lookup, hunit] at h
      cases h
    | none =>
      cases hkept : j.catalogue.composed.get? name with
      | some u =>
        simp only [lookup, hunit, hkept] at h
        cases h
      | none =>
        cases hcompose : j.catalogue.compose name with
        | ok u =>
          simp only [lookup, hunit, hkept, hcompose] at h
          cases h
        | error e' =>
          simp only [lookup, hunit, hkept, hcompose] at h
          cases h
          exact recoverable_compose _ name e hcompose
  notes := by
    intro j
    obtain h | ⟨u, -, -, h⟩ := lookup_cases name j
    · rw [h]
      exact ⟨[], (List.append_nil j.events).symm, List.forall_mem_nil _⟩
    · rw [h]
      refine ⟨[.composed name u.scale], rfl, fun event hevent => ?_⟩
      rw [List.mem_singleton.mp hevent]
      rfl

theorem contained_lookupQuantity (name : String) : Contained (lookupQuantity name) where
  recoverable := by
    intro j
    have hlookup := (contained_lookup name).recoverable j
    rw [lookupQuantity_eq]
    dsimp only
    split
    · split
      · exact .ok _
      · exact .error rfl
    · next e _ he => exact .error (hlookup e he)
    · exact .ok _
  notes := by
    intro j
    rw [lookupQuantity_eq]
    exact (contained_lookup name).notes j

theorem contained_evalM (e : Expression) : Contained (e.evalM lookupQuantity) := by
  induction e with
  | number q => exact contained_pure _
  | name text => exact contained_lookupQuantity text
  | neg e ih => exact ih.bind fun v => contained_pure _
  | pow base exponent ihb ihe =>
    refine ihb.bind fun a => ihe.bind fun x => ?_
    exact contained_ofExcept (a.recoverable_pow x)
  | mul left right ihl ihr => exact ihl.bind fun a => ihr.bind fun b => contained_pure _
  | div left right ihl ihr =>
    refine ihl.bind fun a => ihr.bind fun b => ?_
    exact contained_ofExcept (a.recoverable_div b)

theorem contained_evaluate (text : String) : Contained (evaluate text) :=
  (contained_ofExcept (Expression.recoverable_ofText text)).bind contained_evalM

/-- What is noted of names that are given a value was defined before. -/
theorem source_of_mem_redefinitions {event : String → Event}
    (hevent : ∀ name, (event name).source = .catalogue) (value : α) (table : Table String α)
    (names : List String) : ∀ e ∈ redefinitions event value table names, e.source = .catalogue := by
  induction names generalizing table with
  | nil => exact fun _ h => nomatch h
  | cons name rest ih =>
    intro e he
    have hrest := ih (table.put name value) e
    unfold redefinitions at he
    split at he
    · rcases List.mem_cons.mp he with rfl | he
      · exact hevent name
      · exact hrest he
    · exact hrest he

theorem contained_define (names : List String) (u : UnitOfMeasure) :
    Contained (define names u) where
  recoverable := fun _ => .ok ()
  notes := fun _ => ⟨_, rfl, source_of_mem_redefinitions (fun _ => rfl) _ _ _⟩

theorem contained_defineFactor (names : List String) (f : Rat) :
    Contained (defineFactor names f) where
  recoverable := fun _ => .ok ()
  notes := fun _ => ⟨_, rfl, source_of_mem_redefinitions (fun _ => rfl) _ _ _⟩

theorem contained_nameQuantity (d : Dimension) (name : String) :
    Contained (nameQuantity d name) where
  recoverable := fun _ => .ok ()
  notes := fun j => ⟨[], (List.append_nil j.events).symm, List.forall_mem_nil _⟩

end Catalogue

/-! ### Declarations and records -/

namespace Declaration

open Catalogue

theorem contained_evaluateFactor (body : String) : Contained (evaluateFactor body) :=
  (contained_evaluate body).bind fun v => contained_ofExcept v.recoverable_toNumber

theorem contained_apply (d : Dialect) (minted : Nat) (declaration : Declaration) :
    Contained (declaration.apply d minted) := by
  cases declaration with
  | primitive dimension names =>
    exact (contained_define _ _).bind fun _ => contained_pure _
  | derived names body =>
    refine (contained_evaluate body).bind fun v => ?_
    refine (contained_ofExcept (v.recoverable_toUnit d.numericDefinitions)).bind fun u => ?_
    exact (contained_define _ _).bind fun _ => contained_pure minted
  | standalone names body =>
    refine (contained_evaluateFactor body).bind fun f => ?_
    refine (contained_defineFactor _ f).bind fun _ => ?_
    refine (contained_ofExcept (UnitOfMeasure.recoverable_ofScale _ f _)).bind fun u => ?_
    exact (contained_define _ u).bind fun _ => contained_pure minted
  | factor names body =>
    refine (contained_evaluateFactor body).bind fun f => ?_
    exact (contained_defineFactor _ f).bind fun _ => contained_pure minted
  | quantity names body =>
    refine (contained_evaluate body).bind fun v => ?_
    refine (contained_ofExcept (v.recoverable_toUnit false)).bind fun u => ?_
    exact (contained_nameQuantity _ _).bind fun _ => contained_pure minted

end Declaration

namespace Reader

theorem exists_feed_eq_ok (d : Dialect) (r : Reader) (record : Record) :
    ∃ s, r.feed d record = .ok s := by
  cases hd : Declaration.ofRecord? d record.text with
  | none => exact ⟨_, feed_of_none hd⟩
  | some declaration =>
    cases hx : (declaration.apply d r.minted r.journal).1 with
    | ok n => exact ⟨_, feed_of_ok hd hx⟩
    | error e =>
      have hkind := (declaration.contained_apply d r.minted).recoverable r.journal e hx
      exact ⟨_, by rw [feed_of_error hd hx, if_pos hkind]⟩

theorem exists_foldlM_eq_ok (d : Dialect) (r : Reader) (records : List Record) :
    ∃ s, records.foldlM (feed d) r = .ok s := by
  induction records generalizing r with
  | nil => exact ⟨r, rfl⟩
  | cons record rest ih =>
    obtain ⟨s, hs⟩ := exists_feed_eq_ok d r record
    obtain ⟨t, ht⟩ := ih s
    refine ⟨t, ?_⟩
    rw [List.foldlM_cons, hs]
    exact ht

end Reader

end Metrology
