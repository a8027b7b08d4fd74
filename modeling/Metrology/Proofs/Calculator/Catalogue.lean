import Metrology.Calculator.Catalogue
import Metrology.Proofs.Calculator.Operation
import Metrology.Proofs.Calculator.Session
import Metrology.Proofs.Calculator.Sorting

/-!
# Catalogues of a calculation are read as registers are

Every way of reading or changing a catalogue of a calculation does with a catalogue what it does
with a register that has the same definitions (`blind_lookup` and the others), and changes nothing
but what is in use at its place (`keepsTo_lookup` and the others).

An expression is evaluated in a catalogue in one step and in a register name by name.  A calculation
follows an activity (`Follows`) if it does the same in a session where the catalogue is in use.
Looking a name up does (`follows_lookupMeaning`), so by induction evaluating an expression does,
which makes the two ways one (`evaluate_catalogue`).
-/

namespace Metrology.Calculator.Calculation

open Value Session

variable {α β : Type} {s : Session} {place : Nat} {c : Catalogue}

/-! ### Looking up -/

/-- A name that is no text is looked up in a catalogue without a trace. -/
theorem sameResult_lookup_of_notText (hc : s.holdings[place]? = some (.catalogue c)) {name : Value}
    (hname : ∀ n, name ≠ text n) :
    SameResult ((MonadExcept.ofExcept ((Register.ofCatalogue c).lookup name).1 :
      Calculation Value) s) (onRegister place (fun r => r.lookup name) s) := by
  rw [ofExcept_apply, onRegister_apply, inUse_of_catalogue hc, Holding.toRegister,
    Register.lookup_of_notText hname]
  exact ⟨rfl, alike_register hc⟩

theorem blind_lookup (place : Nat) (name : Value) : Blind (lookup place name) := by
  refine blind_holding (fun h => ?_) fun s c hc => ?_
  · cases h with
    | catalogue c =>
      cases name with
      | text n => exact (blind_onCatalogue place c _).map unit
      | _ => exact blind_ofExcept _
    | register r => exact blind_onRegister place _
  · cases name with
    | text n => exact sameResult_onRegister hc (Register.lookup_ofCatalogue c n)
    | _ => exact sameResult_lookup_of_notText hc (by rintro n ⟨⟩)

theorem keepsTo_lookup (place : Nat) (name : Value) : KeepsTo {place} (lookup place name) := by
  refine (keepsTo_holding {place} place).bind fun h => ?_
  cases h with
  | catalogue c =>
    cases name with
    | text n =>
      exact (keepsTo_onCatalogue place c _).bind fun u => keepsTo_ofExcept _ (.ok (unit u))
    | _ => exact keepsTo_ofExcept _ _
  | register r => exact keepsTo_onRegister place _

theorem blind_has (place : Nat) (name : Value) : Blind (has place name) := by
  refine (blind_lookup place name).observed.bind fun found => ?_
  split
  · exact blind_pure _
  · exact blind_pure _
  · exact blind_throw _

theorem keepsTo_has (place : Nat) (name : Value) : KeepsTo {place} (has place name) := by
  refine (keepsTo_lookup place name).observed.bind fun found => ?_
  split
  · exact keepsTo_ofExcept _ (.ok (truth true))
  · exact keepsTo_ofExcept _ (.ok (truth false))
  · exact keepsTo_ofExcept _ (.error _)

theorem blind_lookupMeaning (place : Nat) (name : String) : Blind (lookupMeaning place name) := by
  refine (blind_lookup place (text name)).observed.bind fun found => ?_
  split
  · exact blind_pure _
  · refine blind_holding (fun h => ?_) fun s c _ => ⟨rfl, rfl⟩
    split
    · exact blind_pure _
    · exact blind_throw _
  · exact blind_throw _

theorem keepsTo_lookupMeaning (place : Nat) (name : String) :
    KeepsTo {place} (lookupMeaning place name) := by
  refine (keepsTo_lookup place (text name)).observed.bind fun found => ?_
  split
  · exact keepsTo_ofExcept _ (.ok _)
  · refine (keepsTo_holding _ place).bind fun h => ?_
    split
    · exact keepsTo_ofExcept _ (.ok _)
    · exact keepsTo_ofExcept _ (.error _)
  · exact keepsTo_ofExcept _ (.error _)

/-! ### Calculations that follow activities -/

/-- Whether a calculation does in a session what an activity does with the catalogue that is in use
at a place. -/
def Follows (place : Nat) (f : α → β) (a : Activity α) (b : Calculation β) : Prop :=
  ∀ (s : Session) (j : Journal), place < s.holdings.size →
    b (s.after place (.catalogue j.catalogue) j.events) =
      (f <$> (a j).1, s.after place (.catalogue (a j).2.catalogue) (a j).2.events)

theorem follows_ofExcept (place : Nat) (f : α → β) (x : Outcome α) :
    Follows place f (MonadExcept.ofExcept x) (MonadExcept.ofExcept (f <$> x)) := by
  intro s j _
  rw [ofExcept_apply, ofExcept_apply]

theorem Follows.bind {γ δ : Type} {f : α → β} {g : γ → δ} {a : Activity α} {b : Calculation β}
    {k : α → Activity γ} {l : β → Calculation δ} (h : Follows place f a b)
    (hk : ∀ x, Follows place g (k x) (l (f x))) : Follows place g (a >>= k) (b >>= l) := by
  intro s j hplace
  have hb := h s j hplace
  -- By the first step both go on from the same value, or both stop with the same failure.
  cases ha : (a j).1 with
  | ok x =>
    rw [ha] at hb
    rw [bind_of_ok (congrArg Prod.fst hb), bind_of_ok ha, hb]
    exact hk x s (a j).2 hplace
  | error e =>
    rw [ha] at hb
    rw [bind_of_error (congrArg Prod.fst hb), bind_of_error ha, hb]
    rfl

/-- A calculation that follows an activity does what the catalogue does by itself. -/
theorem Follows.apply {f : α → β} {a : Activity α} {b : Calculation β} (h : Follows place f a b)
    (hc : s.holdings[place]? = some (.catalogue c)) : b s = (f <$> onCatalogue place c a) s := by
  have hb := h s c.start (Array.getElem?_eq_some_iff.mp hc).1
  rw [Catalogue.start, after_self hc] at hb
  rw [hb, map_apply, onCatalogue_apply]
  rfl

/-- Looking a name up adds to the events and does not see them. -/
theorem lookup_eq_start (name : String) (j : Journal) :
    Catalogue.lookup name j =
      ((Catalogue.lookup name j.catalogue.start).1,
        ⟨(Catalogue.lookup name j.catalogue.start).2.catalogue,
          j.events ++ (Catalogue.lookup name j.catalogue.start).2.events⟩) := by
  -- Only a name that is composed leaves an event behind.
  have hnil : j = ⟨j.catalogue, j.events ++ []⟩ := by rw [List.append_nil]
  rw [Catalogue.lookup, Catalogue.lookup, Catalogue.start]
  cases j.catalogue.units.get? name with
  | some u => exact congrArg (Prod.mk _) hnil
  | none =>
    cases j.catalogue.composed.get? name with
    | some u => exact congrArg (Prod.mk _) hnil
    | none =>
      cases j.catalogue.compose name with
      | ok u => rfl
      | error e => exact congrArg (Prod.mk _) hnil

theorem follows_lookup (place : Nat) (name : String) :
    Follows place unit (Catalogue.lookup name) (lookup place (text name)) := by
  intro s j hplace
  have hinUse := inUse_of_catalogue (getElem?_after hplace (.catalogue j.catalogue) j.events)
  rw [lookup, bind_holding, hinUse, lookup_eq_start]
  show (unit <$> onCatalogue place j.catalogue (Catalogue.lookup name)) _ = _
  rw [map_apply, onCatalogue_apply, after_after]

/-- A step that is observed begins without events, and adds its own to those before. -/
theorem Follows.observed {f : α → β} {a : Activity α} {b : Calculation β}
    (h : Follows place f a b) (hplace : place < s.holdings.size) (c : Catalogue)
    (events : List Event) :
    observed b (s.after place (.catalogue c) events) =
      (.ok (f <$> (a c.start).1, (a c.start).2.events),
        s.after place (.catalogue (a c.start).2.catalogue) (events ++ (a c.start).2.events)) := by
  have hb := h { s with events := [] } c.start hplace
  change b { s.after place (.catalogue c) events with events := [] } = _ at hb
  rw [observed_apply, hb, after, after, after, List.append_assoc]
  rfl

theorem follows_lookupMeaning (place : Nat) (name : String) :
    Follows place ofQuantity (Catalogue.lookupQuantity name) (lookupMeaning place name) := by
  intro s j hplace
  have hobserved := (follows_lookup place name).observed hplace j.catalogue j.events
  have hprefixes := (Catalogue.lookup_leadsTo name j.catalogue.start).agrees.prefixes
  rw [lookupMeaning, bind_of_ok (congrArg Prod.fst hobserved), hobserved,
    Catalogue.lookupQuantity_eq, lookup_eq_start name j]
  generalize Catalogue.lookup name j.catalogue.start = x at hprefixes ⊢
  obtain ⟨found, k⟩ := x
  change k.catalogue.prefixes = j.catalogue.prefixes at hprefixes
  cases found with
  | ok u => rfl
  | error e =>
    cases e with
    | unknownUnit unknown =>
      -- No unit has the name, so that of the prefixes counts.
      have hinUse := inUse_of_catalogue
        (getElem?_after hplace (.catalogue k.catalogue) (j.events ++ k.events))
      show (holding place >>= fun h => _) _ = _
      rw [bind_holding, hinUse, Holding.toRegister, Register.prefixes_ofCatalogue,
        valueAt?_entriesOf keepsApart_text, hprefixes]
      dsimp only
      cases j.catalogue.prefixes.get? name with
      | some f => rfl
      | none => rfl
    | _ => rfl

/-! ### Evaluating expressions -/

/-- The value of an expression, looked for name by name. -/
def evaluateByNames (place : Nat) (expression : Value) : Calculation Value := do
  ofExpression (lookupMeaning place) (← MonadExcept.ofExcept expression.toExpression)

theorem follows_evaluateByNames (place : Nat) (x : String) :
    Follows place ofQuantity (Catalogue.evaluate x) (evaluateByNames place (text x)) := by
  have htree : Follows place id (MonadExcept.ofExcept (Expression.ofText x) : Activity Expression)
      (MonadExcept.ofExcept (text x).toExpression) := by
    have h := follows_ofExcept place id (Expression.ofText x)
    rwa [id_map] at h
  refine htree.bind fun e => ?_
  exact related_ofExpression (fun b a => Follows place ofQuantity a b)
    (follows_ofExcept place ofQuantity) (fun _ _ _ _ => Follows.bind)
    (follows_lookupMeaning place) e

/-- **An expression has one value in a catalogue**: it is the same whether the catalogue evaluates
it, or its names are looked up one after the other. -/
theorem evaluate_catalogue (hc : s.holdings[place]? = some (.catalogue c)) (x : String) :
    evaluate place (text x) s = evaluateByNames place (text x) s := by
  rw [evaluate, bind_holding, inUse_of_catalogue hc, (follows_evaluateByNames place x).apply hc]

theorem blind_evaluateByNames (place : Nat) (expression : Value) :
    Blind (evaluateByNames place expression) := by
  refine (blind_ofExcept _).bind fun e => ?_
  exact closed_ofExpression Blind blind_ofExcept (fun _ _ => Blind.bind)
    (blind_lookupMeaning place) e

theorem blind_evaluate (place : Nat) (expression : Value) : Blind (evaluate place expression) := by
  refine blind_holding (fun h => ?_) fun s c hc => .of_eq ?_
  · split
    · exact (blind_onCatalogue _ _ _).map ofQuantity
    · exact blind_evaluateByNames place expression
  · cases expression with
    | text x =>
      have hvalue := evaluate_catalogue hc x
      rw [evaluate, bind_holding, inUse_of_catalogue hc] at hvalue
      exact hvalue
    | _ => rfl

theorem keepsTo_evaluateByNames (place : Nat) (expression : Value) :
    KeepsTo {place} (evaluateByNames place expression) := by
  refine (keepsTo_ofExcept _ _).bind fun e => ?_
  exact closed_ofExpression (KeepsTo {place}) (keepsTo_ofExcept _) (fun _ _ => KeepsTo.bind)
    (keepsTo_lookupMeaning place) e

theorem keepsTo_evaluate (place : Nat) (expression : Value) :
    KeepsTo {place} (evaluate place expression) := by
  refine (keepsTo_holding _ place).bind fun h => ?_
  split
  · exact (keepsTo_onCatalogue _ _ _).map ofQuantity
  · exact keepsTo_evaluateByNames place expression

/-! ### Units and measurements -/

/-- What a calculation does goes on when the way of evaluating in a catalogue is another one. -/
theorem follows_evaluate (place : Nat) (x : String) :
    Follows place ofQuantity (Catalogue.evaluate x) (evaluate place (text x)) := by
  intro s j hplace
  rw [evaluate_catalogue (getElem?_after hplace _ _)]
  exact follows_evaluateByNames place x s j hplace

/-- The unit that an expression writes, by its value. -/
def unitByValue (place : Nat) (expression : Value) : Calculation Value := do
  let v ← evaluate place expression
  let u ← MonadExcept.ofExcept (v.toUnit (truth false))
  match v.measurement?, expression with
  | some _, text s => return u.relabelled (text (Text.trim s))
  | _, _ => return u

theorem follows_unitByValue (place : Nat) (x : String) :
    Follows place unit (Catalogue.unit x) (unitByValue place (text x)) := by
  refine (follows_evaluate place x).bind fun q => ?_
  rw [toUnit_ofQuantity]
  refine (follows_ofExcept place unit (q.toUnit false)).bind fun u => ?_
  -- The unit that a measurement stands for is called by the text of the expression.
  cases q with
  | number q => exact follows_ofExcept place unit (.ok u)
  | unit v => exact follows_ofExcept place unit (.ok u)
  | measurement m => exact follows_ofExcept place unit (.ok (u.renamed (Text.trim x)))

theorem unitBy_catalogue (hc : s.holdings[place]? = some (.catalogue c)) (x : String) :
    unitBy place (text x) s = unitByValue place (text x) s := by
  rw [unitBy, bind_holding, inUse_of_catalogue hc, (follows_unitByValue place x).apply hc]

theorem blind_unitByValue (place : Nat) (expression : Value) :
    Blind (unitByValue place expression) := by
  refine (blind_evaluate place expression).bind fun v => (blind_ofExcept _).bind fun u => ?_
  split
  · exact blind_pure _
  · exact blind_pure _

theorem blind_unitBy (place : Nat) (expression : Value) : Blind (unitBy place expression) := by
  refine blind_holding (fun h => ?_) fun s c hc => .of_eq ?_
  · split
    · exact (blind_onCatalogue _ _ _).map unit
    · exact blind_unitByValue place expression
  · cases expression with
    | text x =>
      have hunit := unitBy_catalogue hc x
      rw [unitBy, bind_holding, inUse_of_catalogue hc] at hunit
      exact hunit
    | _ => rfl

theorem keepsTo_unitBy (place : Nat) (expression : Value) :
    KeepsTo {place} (unitBy place expression) := by
  refine (keepsTo_holding _ place).bind fun h => ?_
  split
  · exact (keepsTo_onCatalogue _ _ _).map unit
  · refine (keepsTo_evaluate place expression).bind fun v => (keepsTo_ofExcept _ _).bind fun u => ?_
    split
    · exact keepsTo_ofExcept _ (.ok _)
    · exact keepsTo_ofExcept _ (.ok _)

theorem newMeasurement_unit (v : Value) (u : UnitOfMeasure) :
    v.newMeasurement (unit u) = measurement <$> (do return ⟨← v.toRat, u⟩) := by
  rw [newMeasurement]
  cases v.toRat with
  | error e => rfl
  | ok q => rfl

/-- The measurement of a value in the unit that an expression writes, by the value of that. -/
def measureByValue (place : Nat) (v expression : Value) : Calculation Value := do
  MonadExcept.ofExcept (v.newMeasurement (← unitBy place expression))

theorem follows_measureByValue (place : Nat) (v : Value) (x : String) :
    Follows place measurement (Catalogue.measure v.toRat x) (measureByValue place v (text x)) := by
  have hunit : Follows place unit (Catalogue.unit x) (unitBy place (text x)) := by
    intro s j hplace
    rw [unitBy_catalogue (getElem?_after hplace _ _)]
    exact follows_unitByValue place x s j hplace
  refine hunit.bind fun u => ?_
  rw [newMeasurement_unit]
  cases v.toRat with
  | error e => exact follows_ofExcept place measurement (.error e)
  | ok q => exact follows_ofExcept place measurement (.ok ⟨q, u⟩)

theorem blind_measureByValue (place : Nat) (v expression : Value) :
    Blind (measureByValue place v expression) :=
  (blind_unitBy place expression).bind fun u => blind_ofExcept (v.newMeasurement u)

theorem blind_measureBy (place : Nat) (v expression : Value) :
    Blind (measureBy place v expression) := by
  refine blind_holding (fun h => ?_) fun s c hc => .of_eq ?_
  · split
    · exact (blind_onCatalogue _ _ _).map measurement
    · exact blind_measureByValue place v expression
  · cases expression with
    | text x => exact ((follows_measureByValue place v x).apply hc).symm
    | _ => rfl

theorem keepsTo_measureBy (place : Nat) (v expression : Value) :
    KeepsTo {place} (measureBy place v expression) := by
  refine (keepsTo_holding _ place).bind fun h => ?_
  split
  · exact (keepsTo_onCatalogue _ _ _).map measurement
  · exact (keepsTo_unitBy place expression).bind fun u => keepsTo_ofExcept _ (v.newMeasurement u)

/-! ### Names, prefixes and quantities -/

theorem blind_factorOf (place : Nat) (name : Value) : Blind (factorOf place name) :=
  blind_holding (fun _ => blind_ofExcept _) fun _ _ _ => .of_eq rfl

theorem keepsTo_factorOf (place : Nat) (name : Value) : KeepsTo {place} (factorOf place name) :=
  (keepsTo_holding _ place).bind fun _ => keepsTo_ofExcept _ _

theorem blind_names (place : Nat) : Blind (names place) := by
  refine blind_holding (fun h => ?_) fun s c hc => .of_eq ?_
  · split
    · exact blind_pure _
    · exact (blind_ofExcept _).bind fun vs => blind_pure (list vs)
  · show _ = (MonadExcept.ofExcept (sorted ((Register.ofCatalogue c).units.map Prod.fst)) >>=
      fun vs => pure (list vs) : Calculation Value) s
    rw [Register.names_ofCatalogue, sorted_map_text]
    rfl

theorem keepsTo_names (place : Nat) : KeepsTo {place} (names place) := by
  refine (keepsTo_holding _ place).bind fun h => ?_
  split
  · exact keepsTo_ofExcept _ (.ok _)
  · exact (keepsTo_ofExcept _ _).bind fun vs => keepsTo_ofExcept _ (.ok (list vs))

theorem blind_quantityName (place : Nat) (v : Value) : Blind (quantityName place v) := by
  refine (blind_ofExcept v.quantityDimension).bind fun d => ?_
  refine blind_holding (fun h => ?_) fun s c hc => .of_eq ?_
  · split
    · exact blind_pure _
    · exact blind_pure _
  · show _ = (pure ((valueAt? (Register.ofCatalogue c).quantities (dimension d)).getD nothing) :
      Calculation Value) s
    rw [Register.quantities_ofCatalogue, valueAt?_entriesOf keepsApart_dimension]
    show (pure ((c.quantities.get? d).elim nothing text) : Calculation Value) s = _
    cases c.quantities.get? d with
    | none => rfl
    | some name => rfl

theorem keepsTo_quantityName (place : Nat) (v : Value) :
    KeepsTo {place} (quantityName place v) := by
  refine (keepsTo_ofExcept _ v.quantityDimension).bind fun d => ?_
  refine (keepsTo_holding _ place).bind fun h => ?_
  split
  · exact keepsTo_ofExcept _ (.ok _)
  · exact keepsTo_ofExcept _ (.ok _)

/-! ### Definitions -/

theorem eq_map_text (items : List Value) {names : List String}
    (h : items.mapM asText = .ok names) : items = names.map text := by
  induction items generalizing names with
  | nil =>
    cases h
    rfl
  | cons v rest ih =>
    rw [List.mapM_cons] at h
    obtain ⟨name, hname, h⟩ := Outcome.bind_eq_ok_iff.mp h
    obtain ⟨others, hothers, h⟩ := Outcome.bind_eq_ok_iff.mp h
    cases h
    rw [List.map_cons, ← ih hothers]
    cases v with
    | text s =>
      cases hname
      rfl
    | _ => cases hname

theorem blind_define (place : Nat) (names v : Value) : Blind (define place names v) := by
  refine (blind_ofExcept names.items).bind fun items => ?_
  refine blind_holding (fun h => ?_) fun s c hc => ?_
  · split
    · exact (blind_onCatalogue _ _ _).bind fun _ => blind_pure nothing
    · exact (blind_onRegister _ _).bind fun _ => blind_pure nothing
  · cases hitems : items.mapM asText with
    | error e => exact .of_eq rfl
    | ok names =>
      cases v with
      | unit u =>
        obtain rfl := eq_map_text items hitems
        refine SameResult.bind (sameResult_onRegister_of_eq hc ?_) fun _ => blind_pure nothing
        exact Register.define_ofCatalogue c names u
      | _ => exact .of_eq rfl

theorem keepsTo_define (place : Nat) (names v : Value) :
    KeepsTo {place} (define place names v) := by
  refine (keepsTo_ofExcept _ names.items).bind fun items => ?_
  refine (keepsTo_holding _ place).bind fun h => ?_
  split
  · exact (keepsTo_onCatalogue _ _ _).bind fun _ => keepsTo_ofExcept _ (.ok nothing)
  · exact (keepsTo_onRegister _ _).bind fun _ => keepsTo_ofExcept _ (.ok nothing)

theorem blind_defineFactor (place : Nat) (names f : Value) :
    Blind (defineFactor place names f) := by
  refine (blind_ofExcept f.toRat).bind fun q => (blind_ofExcept names.items).bind fun items => ?_
  refine blind_holding (fun h => ?_) fun s c hc => ?_
  · split
    · exact (blind_onCatalogue _ _ _).bind fun _ => blind_pure nothing
    · exact (blind_onRegister _ _).bind fun _ => blind_pure nothing
  · cases hitems : items.mapM asText with
    | error e => exact .of_eq rfl
    | ok names =>
      obtain rfl := eq_map_text items hitems
      refine SameResult.bind (sameResult_onRegister_of_eq hc ?_) fun _ => blind_pure nothing
      exact Register.defineFactor_ofCatalogue c names q

theorem keepsTo_defineFactor (place : Nat) (names f : Value) :
    KeepsTo {place} (defineFactor place names f) := by
  refine (keepsTo_ofExcept _ f.toRat).bind fun q => ?_
  refine (keepsTo_ofExcept _ names.items).bind fun items => ?_
  refine (keepsTo_holding _ place).bind fun h => ?_
  split
  · exact (keepsTo_onCatalogue _ _ _).bind fun _ => keepsTo_ofExcept _ (.ok nothing)
  · exact (keepsTo_onRegister _ _).bind fun _ => keepsTo_ofExcept _ (.ok nothing)

theorem blind_nameQuantity (place : Nat) (d name : Value) :
    Blind (nameQuantity place d name) := by
  refine blind_holding (fun h => ?_) fun s c hc => ?_
  · split
    · exact (blind_onCatalogue _ _ _).bind fun _ => blind_pure nothing
    · exact (blind_onRegister _ _).bind fun _ => blind_pure nothing
  · cases d with
    | dimension d =>
      cases name with
      | text name =>
        refine SameResult.bind (sameResult_onRegister_of_eq hc ?_) fun _ => blind_pure nothing
        exact Register.nameQuantity_ofCatalogue c d name
      | _ => exact .of_eq rfl
    | _ => exact .of_eq rfl

theorem keepsTo_nameQuantity (place : Nat) (d name : Value) :
    KeepsTo {place} (nameQuantity place d name) := by
  refine (keepsTo_holding _ place).bind fun h => ?_
  split
  · exact (keepsTo_onCatalogue _ _ _).bind fun _ => keepsTo_ofExcept _ (.ok nothing)
  · exact (keepsTo_onRegister _ _).bind fun _ => keepsTo_ofExcept _ (.ok nothing)

/-! ### Expressions by themselves -/

theorem blind_contains (whole part : Value) : Blind (contains whole part) := by
  unfold contains
  split
  · exact blind_has _ part
  · exact (blind_ofExcept _).map truth

theorem blind_meaning (names : Value) (name : String) : Blind (meaning names name) := by
  unfold meaning
  split
  · exact blind_ofExcept _
  · refine (blind_contains names (text name)).bind fun found => ?_
    split
    · exact blind_throw _
    · exact blind_throw _

theorem blind_evaluateIn (expression names : Value) : Blind (evaluateIn expression names) := by
  have hmeaning (names : Value) (e : Expression) : Blind (ofExpression (meaning names) e) :=
    closed_ofExpression Blind blind_ofExcept (fun _ _ => Blind.bind) (blind_meaning names) e
  refine (blind_ofExcept expression.toExpression).bind fun e => ?_
  split
  · split
    · exact (blind_ofExcept _).bind fun q => blind_pure (ofQuantity q)
    · exact hmeaning _ e
  · exact hmeaning _ e

theorem eq_map_ofQuantity (entries : List (Value × Value)) {known : List (Value × Quantity)}
    (h : quantities? entries = some known) :
    entries = known.map fun e => (e.1, ofQuantity e.2) := by
  induction entries generalizing known with
  | nil =>
    cases h
    rfl
  | cons e rest ih =>
    rw [quantities?, List.mapM_cons] at h
    obtain ⟨pair, hpair, h⟩ := Option.bind_eq_some_iff.mp h
    obtain ⟨others, hothers, h⟩ := Option.bind_eq_some_iff.mp h
    obtain ⟨q, hq, rfl⟩ := Option.map_eq_some_iff.mp hpair
    cases h
    rw [List.map_cons, ← ih hothers, ← eq_ofQuantity hq]

/-- A table of quantities says of a name what the table with these as values says. -/
theorem entryOf_quantities? {entries : List (Value × Value)} {known : List (Value × Quantity)}
    (h : quantities? entries = some known) (name : String) :
    entryOf entries name = ofQuantity <$> entryOf known name := by
  rw [eq_map_ofQuantity entries h, entryOf, entryOf, List.find?_map]
  have hkeys : ((fun e : Value × Value => e.1.equal (text name)) ∘
      fun e : Value × Quantity => (e.1, ofQuantity e.2)) = fun e => e.1.equal (text name) := rfl
  rw [hkeys]
  cases known.find? fun e => e.1.equal (text name) with
  | some e => rfl
  | none => rfl

/-- **An expression has one value by a table of quantities**: it is the same whether it is found
among quantities, or among values with the names looked for one after the other. -/
theorem evaluateIn_table {entries : List (Value × Value)} {known : List (Value × Quantity)}
    (h : quantities? entries = some known) (expression : Value) :
    evaluateIn expression (table entries) = (do
      ofExpression (meaning (table entries)) (← MonadExcept.ofExcept expression.toExpression)) := by
  have hvalue (e : Expression) : ofExpression (meaning (table entries)) e =
      MonadExcept.ofExcept (ofQuantity <$> e.eval (entryOf known)) := by
    refine related_ofExpression
      (fun b a => b = MonadExcept.ofExcept (ofQuantity <$> a)) (fun x => ?_) ?_ (fun name => ?_) e
    · rw [Expression.ofExcept_outcome]
    · rintro b a f g rfl hfg
      cases a with
      | ok q => exact hfg q
      | error e => rfl
    · rw [← entryOf_quantities? h]
      rfl
  unfold evaluateIn
  refine congrArg _ (funext fun e => ?_)
  dsimp only
  rw [hvalue, h]
  show (MonadExcept.ofExcept (e.eval (entryOf known)) >>= fun q => pure (ofQuantity q) :
    Calculation Value) = _
  cases e.eval (entryOf known) with
  | ok q => rfl
  | error e => rfl

/-! ### New primitives and catalogues -/

/-- It is enough to compare sessions that differ in nothing but in how what is in use is kept. -/
theorem blind_of_holdings {a : Calculation α}
    (h : ∀ minted labels events (hs ht : Array Holding),
      (hs.map fun h => Holding.register h.toRegister) = ht.map (fun h => .register h.toRegister) →
        SameResult (a ⟨minted, labels, hs, events⟩) (a ⟨minted, labels, ht, events⟩)) :
    Blind a := by
  rintro ⟨minted, labels, hs, events⟩ ⟨minted', labels', ht, events'⟩ halike
  obtain ⟨rfl, rfl, hholdings, rfl⟩ := Session.mk.inj halike
  exact h _ _ _ _ _ hholdings

theorem blind_keep (h : Holding) : Blind (keep h) := by
  refine blind_of_holdings fun minted labels events hs ht hholdings => ?_
  have hsize : hs.size = ht.size := by
    rw [← Array.size_map, hholdings, Array.size_map]
  refine ⟨?_, ?_⟩
  · show Except.ok (h.toValue hs.size) = Except.ok (h.toValue ht.size)
    rw [hsize]
  · show Alike ⟨minted, labels, hs.push h, events⟩ ⟨minted, labels, ht.push h, events⟩
    rw [Alike, asRegisters, asRegisters, Array.map_push, hholdings, Array.map_push]

theorem blind_mint (name : Value) : Blind (mint name) := by
  refine blind_of_holdings fun minted labels events hs ht hholdings => ?_
  cases name with
  | text n => exact ⟨rfl, congrArg (Session.mk (minted + 1) labels · events) hholdings⟩
  | _ => exact ⟨rfl, congrArg (Session.mk (minted + 1) _ · events) hholdings⟩

theorem blind_mintUnit (name symbol : Value) : Blind (mintUnit name symbol) :=
  (blind_mint name).bind fun _ => blind_ofExcept _

theorem parse_of_error {r : Request} {e : Error} (h : r.source v s.minted = .error e) :
    parse r v s = (.error e, s) := by
  rw [parse, bind_of_ok rfl, h]
  rfl

theorem parse_of_broken {r : Request} {minted : Nat} {e : Error}
    (h : r.source v s.minted = .ok (.broken minted e)) :
    parse r v s = (.error e, { s with minted }) := by
  rw [parse, bind_of_ok rfl, h]
  rfl

theorem parse_of_complete {r : Request} {reading : Reading}
    (h : r.source v s.minted = .ok (.complete reading)) :
    parse r v s = reading.catalogue.elim (pure none) (fun c => some <$> keep (.catalogue c))
      { s with minted := reading.minted, events := s.events ++ reading.events } := by
  rw [parse, bind_of_ok rfl, h, bind_of_ok rfl]
  dsimp only
  cases reading.catalogue with
  | some c => rfl
  | none => rfl

theorem blind_parse (r : Request) (v : Value) : Blind (parse r v) := by
  refine blind_of_holdings fun minted labels events hs ht hholdings => ?_
  cases hsource : r.source v minted with
  | error e =>
    have hparse (holdings : Array Holding) :=
      parse_of_error (s := ⟨minted, labels, holdings, events⟩) hsource
    rw [hparse, hparse]
    exact ⟨rfl, congrArg (Session.mk minted labels · events) hholdings⟩
  | ok source =>
    cases source with
    | broken k e =>
      have hparse (holdings : Array Holding) :=
        parse_of_broken (s := ⟨minted, labels, holdings, events⟩) hsource
      rw [hparse, hparse]
      exact ⟨rfl, congrArg (Session.mk k labels · events) hholdings⟩
    | complete reading =>
      have hkeep : Blind (reading.catalogue.elim (pure none : Calculation (Option Value))
          fun c => some <$> keep (.catalogue c)) := by
        cases reading.catalogue with
        | some c => exact (blind_keep _).map some
        | none => exact blind_pure none
      have hparse (holdings : Array Holding) :=
        parse_of_complete (s := ⟨minted, labels, holdings, events⟩) hsource
      rw [hparse, hparse]
      exact hkeep _ _
        (congrArg (Session.mk reading.minted labels · (events ++ reading.events)) hholdings)

end Metrology.Calculator.Calculation
