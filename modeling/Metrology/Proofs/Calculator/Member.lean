import Metrology.Calculator.Member
import Metrology.Proofs.Calculator.Catalogue

/-!
# Calls of members

What a value offers that is no catalogue is settled by the value and the operands: a call of it
gives its outcome and changes nothing (`exists_call_eq_ofExcept`).  What a catalogue offers works on
what is in use at its place alone (`keepsTo_call`), and does not see whether that is kept as a
catalogue or as a register (`blind_call`).

A row of calls (`Call.run`) goes on after calls that fail.  The main results follow from those about
one call by induction on the row: `run_of_alike`, that a catalogue in use answers all calls like a
register with its definitions, and `changedWithin_run`, that calls leave everything alone but the
catalogues that are called.
-/

namespace Metrology.Calculator

open Calculation Session

/-! ### Offers -/

namespace Offer

/-- Whether all steps that an offer may lead to have a property. -/
def All (P : Calculation Value → Prop) : Offer → Prop
  | property _ => True
  | operation run => ∀ operands, P (run operands)

variable {P Q : Calculation Value → Prop}

theorem All.imp {o : Offer} (h : o.All P) (himp : ∀ step, P step → Q step) : o.All Q := by
  cases o with
  | property a => trivial
  | operation run => exact fun operands => himp _ (h operands)

theorem all_unaryStep (hfail : P (throw .unsupportedOperands)) {f : Value → Calculation Value}
    (hf : ∀ a, P (f a)) : (unaryStep f).All P
  | [a] => hf a
  | [] | _ :: _ :: _ => hfail

theorem all_binaryStep (hfail : P (throw .unsupportedOperands))
    {f : Value → Value → Calculation Value} (hf : ∀ a b, P (f a b)) : (binaryStep f).All P
  | [a, b] => hf a b
  | [] | [_] | _ :: _ :: _ :: _ => hfail

variable (hP : ∀ x : Outcome Value, P (MonadExcept.ofExcept x))

include hP

theorem all_constant (x : Outcome Value) : (constant x).All P := by
  intro operands
  cases operands with
  | nil => exact hP x
  | cons a rest => exact hP (.error .unsupportedOperands)

theorem all_unary (f : Value → Outcome Value) : (unary f).All P := by
  intro operands
  rcases operands with _ | ⟨a, _ | ⟨b, rest⟩⟩
  · exact hP (.error .unsupportedOperands)
  · exact hP (f a)
  · exact hP (.error .unsupportedOperands)

end Offer

namespace Value

open Offer

/-- The place of a catalogue in use. -/
def place? : Value → Option Nat
  | catalogue place _ _ => some place
  | _ => none

/-! ### Members of values that are no catalogues -/

section

variable {P : Calculation Value → Prop} {v : Value} {m : Member} {o : Offer}
  (hP : ∀ x : Outcome Value, P (MonadExcept.ofExcept x))

include hP

theorem all_offerOfRational {q : Rat} (h : offerOfRational q m = some o) : o.All P := by
  cases m with
  | toDecimal =>
    cases h
    rintro (_ | ⟨places, _ | ⟨_, _⟩⟩)
    · exact hP (toDecimal q (integer 20))
    · exact hP (toDecimal q places)
    · exact hP (.error .unsupportedOperands)
  | _ => cases h <;> first | trivial | exact all_constant hP _ | exact all_unary hP _

theorem all_offerOfDimension {d : Dimension} (h : offerOfDimension d m = some o) : o.All P := by
  cases m <;> cases h <;> first | trivial | exact all_constant hP _ | exact all_unary hP _

theorem all_offerOfUnit {u : UnitOfMeasure} (h : offerOfUnit v u m = some o) : o.All P := by
  cases m <;> cases h <;> first | trivial | exact all_constant hP _ | exact all_unary hP _

theorem all_offerOfMeasurement {n : Measurement} (h : offerOfMeasurement v n m = some o) :
    o.All P := by
  cases m <;> cases h <;> first | trivial | exact all_constant hP _ | exact all_unary hP _

theorem all_offerOfDecimal {x : Scientific} (h : offerOfDecimal x m = some o) : o.All P := by
  cases m with
  | compare =>
    cases h
    intro operands
    dsimp only
    split
    · exact hP (compareDecimals x _)
    · exact hP (compareDecimals x _)
    · exact hP (.error .unsupportedOperands)
  | _ => cases h

/-- What holds of all steps that do nothing but have an outcome holds of all that a value offers
that is no catalogue. -/
theorem all_offer (hv : v.place? = none) (h : v.offer m = some o) : o.All P := by
  unfold offer at h
  split at h
  · exact all_offerOfRational hP h
  · exact all_offerOfDecimal hP h
  · cases h
    exact all_constant hP _
  · cases h
    trivial
  · cases h
    trivial
  · exact all_offerOfDimension hP h
  · exact all_offerOfUnit hP h
  · exact all_offerOfUnit hP h
  · exact all_offerOfMeasurement hP h
  · exact all_offerOfMeasurement hP h
  · cases hv
  · cases h

end

/-- A call leads to a step of what is offered, or fails at once. -/
theorem call_of_all {P : Calculation Value → Prop}
    (hP : ∀ x : Outcome Value, P (MonadExcept.ofExcept x)) {v : Value} {m : Member}
    (h : ∀ o, v.offer m = some o → o.All P) (operands : List Value) : P (v.call m operands) := by
  rw [call]
  cases ho : v.offer m with
  | none => exact hP (.error .missingAttribute)
  | some o =>
    cases o with
    | property a => exact hP (.error .unsupportedOperands)
    | operation run => exact h _ ho operands

/-- A call of a value that is no catalogue has an outcome and does nothing. -/
theorem exists_call_eq_ofExcept {v : Value} (hv : v.place? = none) (m : Member)
    (operands : List Value) : ∃ x, v.call m operands = MonadExcept.ofExcept x :=
  have hP (x : Outcome Value) : ∃ y, (MonadExcept.ofExcept x : Calculation Value) =
      MonadExcept.ofExcept y := ⟨x, rfl⟩
  call_of_all (P := fun step => ∃ y, step = MonadExcept.ofExcept y) hP
    (fun _ => all_offer hP hv) operands

/-! ### Members of catalogues -/

/-- The steps that a catalogue offers by name. -/
inductive CatalogueStep (place : Nat) : Calculation Value → Prop
  | refused : CatalogueStep place (throw .unsupportedOperands)
  | lookup (name : Value) : CatalogueStep place (Calculation.lookup place name)
  | factorOf (name : Value) : CatalogueStep place (Calculation.factorOf place name)
  | has (name : Value) : CatalogueStep place (Calculation.has place name)
  | names : CatalogueStep place (Calculation.names place)
  | evaluate (expression : Value) : CatalogueStep place (Calculation.evaluate place expression)
  | unitBy (expression : Value) : CatalogueStep place (Calculation.unitBy place expression)
  | measureBy (v expression : Value) :
    CatalogueStep place (Calculation.measureBy place v expression)
  | quantityName (d : Value) : CatalogueStep place (Calculation.quantityName place d)
  | define (names v : Value) : CatalogueStep place (Calculation.define place names v)
  | defineFactor (names f : Value) : CatalogueStep place (Calculation.defineFactor place names f)
  | nameQuantity (d name : Value) : CatalogueStep place (Calculation.nameQuantity place d name)

theorem all_offerOfCatalogue {place : Nat} {m : Member} {o : Offer}
    (h : offerOfCatalogue place m = some o) : o.All (CatalogueStep place) := by
  cases m with
  | lookup => cases h; exact all_unaryStep .refused .lookup
  | factor => cases h; exact all_unaryStep .refused .factorOf
  | has => cases h; exact all_unaryStep .refused .has
  | names =>
    cases h
    rintro (_ | ⟨_, _⟩)
    · exact .names
    · exact .refused
  | evaluate => cases h; exact all_unaryStep .refused .evaluate
  | unit => cases h; exact all_unaryStep .refused .unitBy
  | measure => cases h; exact all_binaryStep .refused .measureBy
  | quantityName => cases h; exact all_unaryStep .refused .quantityName
  | define => cases h; exact all_binaryStep .refused .define
  | defineFactor => cases h; exact all_binaryStep .refused .defineFactor
  | nameQuantity => cases h; exact all_binaryStep .refused .nameQuantity
  | _ => cases h

theorem CatalogueStep.blind {place : Nat} {step : Calculation Value}
    (h : CatalogueStep place step) : Blind step := by
  cases h with
  | refused => exact blind_throw _
  | lookup name => exact blind_lookup place name
  | factorOf name => exact blind_factorOf place name
  | has name => exact blind_has place name
  | names => exact blind_names place
  | evaluate expression => exact blind_evaluate place expression
  | unitBy expression => exact blind_unitBy place expression
  | measureBy v expression => exact blind_measureBy place v expression
  | quantityName d => exact blind_quantityName place d
  | define names v => exact blind_define place names v
  | defineFactor names f => exact blind_defineFactor place names f
  | nameQuantity d name => exact blind_nameQuantity place d name

theorem CatalogueStep.keepsTo {place : Nat} {step : Calculation Value}
    (h : CatalogueStep place step) : KeepsTo {place} step := by
  cases h with
  | refused => exact keepsTo_ofExcept _ (.error _)
  | lookup name => exact keepsTo_lookup place name
  | factorOf name => exact keepsTo_factorOf place name
  | has name => exact keepsTo_has place name
  | names => exact keepsTo_names place
  | evaluate expression => exact keepsTo_evaluate place expression
  | unitBy expression => exact keepsTo_unitBy place expression
  | measureBy v expression => exact keepsTo_measureBy place v expression
  | quantityName d => exact keepsTo_quantityName place d
  | define names v => exact keepsTo_define place names v
  | defineFactor names f => exact keepsTo_defineFactor place names f
  | nameQuantity d name => exact keepsTo_nameQuantity place d name

/-- A call does not see whether what is in use is kept as a catalogue or as a register. -/
theorem blind_call (v : Value) (m : Member) (operands : List Value) :
    Blind (v.call m operands) := by
  refine call_of_all blind_ofExcept (fun o h => ?_) operands
  cases v with
  | catalogue place names prefixes =>
    exact (all_offerOfCatalogue h).imp fun _ => CatalogueStep.blind
  | _ => exact all_offer blind_ofExcept rfl h

/-- A call changes nothing but the catalogue that is called. -/
theorem keepsTo_call (v : Value) (m : Member) (operands : List Value) :
    KeepsTo { place | v.place? = some place } (v.call m operands) := by
  cases v with
  | catalogue place names prefixes =>
    have h : KeepsTo {place} ((catalogue place names prefixes).call m operands) := by
      refine call_of_all (keepsTo_ofExcept _) (fun o ho => ?_) operands
      exact (all_offerOfCatalogue ho).imp fun _ => CatalogueStep.keepsTo
    exact fun s => (h s).mono fun q hq => congrArg some (Set.mem_singleton_iff.mp hq).symm
  | _ =>
    exact call_of_all (keepsTo_ofExcept _) (fun _ => all_offer (keepsTo_ofExcept _) rfl) operands

/-- What is in use at a place may change, but a catalogue stays at its place. -/
theorem place?_current (s : Session) (v : Value) : (s.current v).place? = v.place? := by
  cases v with
  | catalogue place names prefixes =>
    rw [current]
    cases s.holdings[place]? with
    | none => rfl
    | some h => rfl
  | primitive p =>
    rw [current]
    cases s.labels.lookup p.index with
    | none => rfl
    | some label => rfl
  | _ => rfl

end Value

/-! ### Rows of calls -/

/-- A member of a value called with operands. -/
structure Call where
  receiver : Value
  member : Member
  operands : List Value

namespace Call

/-- What a call does to the values as they have become. -/
def perform (call : Call) : Calculation Value := fun s =>
  (s.current call.receiver).call call.member (s.currentAll call.operands) s

/-- The outcomes of a row of calls, which goes on after those that fail, and the session
afterwards. -/
def run : List Call → Session → List (Outcome Value) × Session
  | [], s => ([], s)
  | call :: rest, s =>
    let (outcome, later) := call.perform s
    let (outcomes, last) := run rest later
    (outcome :: outcomes, last)

theorem blind_perform (call : Call) : Blind call.perform := by
  intro s t h
  rw [perform, perform, h.current, h.currentAll]
  exact Value.blind_call _ _ _ s t h

theorem keepsTo_perform (call : Call) :
    KeepsTo { place | call.receiver.place? = some place } call.perform := by
  intro s
  have h := Value.keepsTo_call (s.current call.receiver) call.member (s.currentAll call.operands) s
  rwa [Value.place?_current] at h

/-- **Catalogues answer like registers**: in sessions that differ only in what is kept as a
catalogue and what as a register with its definitions, every row of calls has the same outcomes. -/
theorem run_of_alike (calls : List Call) {s t : Session} (h : s.Alike t) :
    (run calls s).1 = (run calls t).1 ∧ (run calls s).2.Alike (run calls t).2 := by
  induction calls generalizing s t with
  | nil => exact ⟨rfl, h⟩
  | cons call rest ih =>
    obtain ⟨houtcome, hlater⟩ := call.blind_perform s t h
    obtain ⟨houtcomes, hlast⟩ := ih hlater
    refine ⟨?_, hlast⟩
    show (call.perform s).1 :: (run rest (call.perform s).2).1 =
      (call.perform t).1 :: (run rest (call.perform t).2).1
    rw [houtcome, houtcomes]

/-- **Calls change only catalogues that are called**: a row of calls mints no primitives, takes no
catalogues into use, forgets no events and leaves what is in use at other places alone. -/
theorem changedWithin_run (calls : List Call) (s : Session) :
    s.ChangedWithin { place | ∃ call ∈ calls, call.receiver.place? = some place }
      (run calls s).2 := by
  induction calls generalizing s with
  | nil => exact .refl s
  | cons call rest ih =>
    have hcall : { place | call.receiver.place? = some place } ⊆
        { place | ∃ c ∈ call :: rest, c.receiver.place? = some place } :=
      fun place h => ⟨call, List.mem_cons_self, h⟩
    have hrest : { place | ∃ c ∈ rest, c.receiver.place? = some place } ⊆
        { place | ∃ c ∈ call :: rest, c.receiver.place? = some place } :=
      fun place ⟨c, hc, h⟩ => ⟨c, List.mem_cons_of_mem call hc, h⟩
    exact ((call.keepsTo_perform s).mono hcall).trans ((ih (call.perform s).2).mono hrest)

end Call

end Metrology.Calculator
