import Metrology.Proofs.Catalogue.Cache
import Metrology.Proofs.Expression.Evaluation

/-!
# Reading a catalogue in use

`Catalogue.Reads` says that an activity only reads: it may keep composed units, but its outcome is
an answer that the tables give.  It passes from activities to what is made of them (`Reads.bind`),
so that it can be followed through a whole expression by induction (`reads_evalM`).  All ways of
reading a catalogue have it: `reads_lookup`, `reads_has`, `reads_evaluate`, `reads_unit` and
`reads_measure`.

`Catalogue.Blind` says the same of activities that may also define something: on two catalogues
that differ only in the units that they keep, they have one outcome and leave two such catalogues
behind.
-/

namespace Metrology

/-! ### One step after another -/

section

variable {α β σ : Type} {a : ExceptT Error (StateM σ) α} {s : σ}

theorem ofExcept_apply (x : Outcome α) (s : σ) :
    (MonadExcept.ofExcept x : ExceptT Error (StateM σ) α) s = (x, s) := by
  cases x <;> rfl

/-- What follows a step starts where that one ended. -/
theorem bind_of_ok {x : α} (h : (a s).1 = .ok x) (b : α → ExceptT Error (StateM σ) β) :
    (a >>= b) s = b x (a s).2 := by
  obtain ⟨after, ha⟩ : ∃ after, a s = (.ok x, after) := ⟨(a s).2, Prod.ext h rfl⟩
  rw [ha]
  show (ExceptT.bindCont b (a s).1) (a s).2 = b x after
  rw [ha]
  rfl

/-- Nothing follows a step that failed. -/
theorem bind_of_error {e : Error} (h : (a s).1 = .error e) (b : α → ExceptT Error (StateM σ) β) :
    (a >>= b) s = (.error e, (a s).2) := by
  obtain ⟨after, ha⟩ : ∃ after, a s = (.error e, after) := ⟨(a s).2, Prod.ext h rfl⟩
  rw [ha]
  show (ExceptT.bindCont b (a s).1) (a s).2 = (.error e, after)
  rw [ha]
  rfl

end

namespace Catalogue

variable {α β : Type}

/-! ### Activities that only read -/

/-- Whether an activity only reads, and its outcome is an answer that the tables give. -/
structure Reads (a : Activity α) (answer : Catalogue → Outcome α) : Prop where
  /-- What it does to a catalogue. -/
  leadsTo : ∀ j : Journal, j.LeadsTo (a j).2
  /-- It names no quantities. -/
  quantities : ∀ j : Journal, (a j).2.catalogue.quantities = j.catalogue.quantities
  /-- Where kept units are sound, they do not count. -/
  outcome : ∀ j : Journal, j.catalogue.Sound → (a j).1 = answer j.catalogue
  /-- Only the tables count by which names have their meanings. -/
  congr : ∀ c d, c.Agrees d → answer d = answer c

/-- What is read later, when only reading has come between, is an answer of the same tables. -/
theorem Reads.outcome_of_leadsTo {a : Activity α} {answer : Catalogue → Outcome α}
    (h : Reads a answer) {j k : Journal} (hj : j.catalogue.Sound) (hleads : j.LeadsTo k) :
    (a k).1 = answer j.catalogue := by
  rw [h.outcome k (hleads.sound hj)]
  exact h.congr _ _ hleads.agrees

theorem Reads.pure (x : α) : Reads (Pure.pure x) fun _ => .ok x where
  leadsTo := fun j => .refl j
  quantities := fun _ => rfl
  outcome := fun _ _ => rfl
  congr := fun _ _ _ => rfl

theorem Reads.ofExcept (x : Outcome α) : Reads (MonadExcept.ofExcept x) fun _ => x where
  leadsTo := fun j => by rw [ofExcept_apply]; exact .refl j
  quantities := fun j => by rw [ofExcept_apply]
  outcome := fun j _ => by rw [ofExcept_apply]
  congr := fun _ _ _ => rfl

theorem Reads.bind {a : Activity α} {b : α → Activity β} {f : Catalogue → Outcome α}
    {g : α → Catalogue → Outcome β} (ha : Reads a f) (hb : ∀ x, Reads (b x) (g x)) :
    Reads (a >>= b) fun c => f c >>= fun x => g x c where
  leadsTo := by
    intro j
    cases h : (a j).1 with
    | ok x =>
      rw [bind_of_ok h]
      exact (ha.leadsTo j).trans ((hb x).leadsTo _)
    | error e =>
      rw [bind_of_error h]
      exact ha.leadsTo j
  quantities := by
    intro j
    cases h : (a j).1 with
    | ok x =>
      rw [bind_of_ok h]
      exact ((hb x).quantities _).trans (ha.quantities j)
    | error e =>
      rw [bind_of_error h]
      exact ha.quantities j
  outcome := by
    intro j hj
    have hf := ha.outcome j hj
    cases h : (a j).1 with
    | ok x =>
      rw [bind_of_ok h, ← hf, h, (hb x).outcome _ ((ha.leadsTo j).sound hj)]
      -- The tables are still those from which `a` read.
      exact (hb x).congr _ _ (ha.leadsTo j).agrees
    | error e =>
      rw [bind_of_error h, ← hf, h]
      rfl
  congr := by
    intro c d h
    show (f d >>= fun x => g x d) = f c >>= fun x => g x c
    rw [ha.congr c d h, funext fun x => (hb x).congr c d h]

/-! ### The ways of reading a catalogue -/

theorem lookup_quantities (name : String) (j : Journal) :
    (lookup name j).2.catalogue.quantities = j.catalogue.quantities := by
  obtain h | ⟨unit, -, -, h⟩ := lookup_cases name j
  · rw [h]
  · rw [h]

theorem reads_lookup (name : String) : Reads (lookup name) fun c => c.find name where
  leadsTo := lookup_leadsTo name
  quantities := lookup_quantities name
  outcome := fun _ hj => lookup_eq_find hj name
  congr := fun _ _ h => h.find name

/-- Whether a name means a unit, by the tables alone. -/
def means (c : Catalogue) (name : String) : Outcome Bool :=
  match c.find name with
  | .ok _ => .ok true
  | .error (.unknownUnit _) => .ok false
  | .error e => .error e

theorem has_eq (name : String) (j : Journal) :
    has name j = (match (lookup name j).1 with
      | .ok _ => .ok true
      | .error (.unknownUnit _) => .ok false
      | .error e => .error e, (lookup name j).2) := by
  unfold has
  split <;> simp_all

theorem reads_has (name : String) : Reads (has name) fun c => c.means name where
  leadsTo := fun j => by rw [has_eq]; exact lookup_leadsTo name j
  quantities := fun j => by rw [has_eq]; exact lookup_quantities name j
  outcome := fun j hj => by rw [has_eq, lookup_eq_find hj]; rfl
  congr := fun c d h => by unfold means; rw [h.find name]

theorem lookupQuantity_eq (name : String) (j : Journal) :
    lookupQuantity name j = (match (lookup name j).1 with
      | .error (.unknownUnit unknown) =>
        match j.catalogue.prefixes.get? name with
        | some f => .ok (.number f)
        | none => .error (.unknownUnit unknown)
      | .error e => .error e
      | .ok unit => .ok (.unit unit), (lookup name j).2) := by
  have hprefixes := (lookup_leadsTo name j).agrees.prefixes
  unfold lookupQuantity
  split <;> simp_all
  split <;> simp_all

theorem reads_lookupQuantity (name : String) :
    Reads (lookupQuantity name) fun c => c.resolve name where
  leadsTo := fun j => by rw [lookupQuantity_eq]; exact lookup_leadsTo name j
  quantities := fun j => by rw [lookupQuantity_eq]; exact lookup_quantities name j
  outcome := fun j hj => by rw [lookupQuantity_eq, lookup_eq_find hj]; rfl
  congr := fun _ _ h => h.resolve name

/-- Evaluating an expression looks its names up as the tables have them. -/
theorem reads_evalM (e : Expression) :
    Reads (e.evalM lookupQuantity) fun c => e.eval c.resolve := by
  induction e with
  | number q => exact .pure (Quantity.number q)
  | name text => exact reads_lookupQuantity text
  | neg e ih => exact ih.bind fun v => .pure v.neg
  | pow base exponent ihb ihe =>
    simp only [Expression.eval_pow]
    exact ihb.bind fun a => ihe.bind fun x => .ofExcept (a.pow x)
  | mul left right ihl ihr =>
    simp only [Expression.eval_mul]
    exact ihl.bind fun a => ihr.bind fun b => .pure (a.mul b)
  | div left right ihl ihr =>
    simp only [Expression.eval_div]
    exact ihl.bind fun a => ihr.bind fun b => .ofExcept (a.div b)

/-- The value of the expression that a text writes, by the tables alone. -/
def value (c : Catalogue) (text : String) : Outcome Quantity := do
  let e ← Expression.ofText text
  e.eval c.resolve

theorem reads_evaluate (text : String) : Reads (evaluate text) fun c => c.value text :=
  (Reads.ofExcept (Expression.ofText text)).bind reads_evalM

/-- The unit that an expression writes, by the tables alone. -/
def unitOf (c : Catalogue) (text : String) : Outcome UnitOfMeasure := do
  let value ← c.value text
  let unit ← value.toUnit false
  match value with
  | .measurement _ => return unit.renamed (Text.trim text)
  | _ => return unit

theorem reads_unit (text : String) : Reads (unit text) fun c => c.unitOf text := by
  refine (reads_evaluate text).bind fun v => (Reads.ofExcept (v.toUnit false)).bind fun u => ?_
  cases v with
  | number q => exact .pure u
  | unit _ => exact .pure u
  | measurement _ => exact .pure (u.renamed (Text.trim text))

theorem reads_measure (v : Outcome Rat) (text : String) :
    Reads (measure v text) fun c => do
      let unit ← c.unitOf text
      return ⟨← v, unit⟩ :=
  (reads_unit text).bind fun u => (Reads.ofExcept v).bind fun q => .pure (⟨q, u⟩ : Measurement)

end Catalogue

/-! ### Activities that do not see kept units -/

/-- Whether two catalogues in use differ only in the units that they keep, and in what happened. -/
structure Journal.Alike (j k : Journal) : Prop where
  agrees : j.catalogue.Agrees k.catalogue
  quantities : k.catalogue.quantities = j.catalogue.quantities
  soundLeft : j.catalogue.Sound
  soundRight : k.catalogue.Sound

namespace Catalogue

variable {α β : Type}

/-- Whether an activity does not see which units are kept. -/
def Blind (a : Activity α) : Prop :=
  ∀ j k : Journal, j.Alike k → (a k).1 = (a j).1 ∧ (a j).2.Alike (a k).2

theorem Reads.blind {a : Activity α} {f : Catalogue → Outcome α} (h : Reads a f) : Blind a := by
  intro j k hjk
  constructor
  · rw [h.outcome k hjk.soundRight, h.outcome j hjk.soundLeft]
    exact h.congr _ _ hjk.agrees
  · constructor
    · exact (h.leadsTo j).agrees.symm.trans (hjk.agrees.trans (h.leadsTo k).agrees)
    · rw [h.quantities j, h.quantities k]
      exact hjk.quantities
    · exact (h.leadsTo j).sound hjk.soundLeft
    · exact (h.leadsTo k).sound hjk.soundRight

theorem Blind.bind {a : Activity α} {b : α → Activity β} (ha : Blind a)
    (hb : ∀ x, Blind (b x)) : Blind (a >>= b) := by
  intro j k hjk
  obtain ⟨houtcome, halike⟩ := ha j k hjk
  cases h : (a j).1 with
  | ok x =>
    rw [bind_of_ok h, bind_of_ok (houtcome.trans h)]
    exact hb x _ _ halike
  | error e =>
    rw [bind_of_error h, bind_of_error (houtcome.trans h)]
    exact ⟨rfl, halike⟩

theorem blind_define (names : List String) (unit : UnitOfMeasure) : Blind (define names unit) := by
  intro j k hjk
  refine ⟨rfl, ⟨?_, hjk.agrees.prefixes, hjk.agrees.plurals⟩, hjk.quantities, ?_, ?_⟩
  · show names.foldl _ k.catalogue.units = names.foldl _ j.catalogue.units
    rw [hjk.agrees.units]
  · exact sound_of_composed_empty rfl
  · exact sound_of_composed_empty rfl

theorem blind_defineFactor (names : List String) (f : Rat) : Blind (defineFactor names f) := by
  intro j k hjk
  refine ⟨rfl, ⟨hjk.agrees.units, ?_, hjk.agrees.plurals⟩, hjk.quantities, ?_, ?_⟩
  · show names.foldl _ k.catalogue.prefixes = names.foldl _ j.catalogue.prefixes
    rw [hjk.agrees.prefixes]
  · exact sound_of_composed_empty rfl
  · exact sound_of_composed_empty rfl

/-- Names of quantities take no part in what is composed, so kept units stay sound. -/
theorem sound_nameQuantity (d : Dimension) (name : String) {j : Journal}
    (h : j.catalogue.Sound) : (nameQuantity d name j).2.catalogue.Sound := by
  have hagrees : j.catalogue.Agrees (nameQuantity d name j).2.catalogue := ⟨rfl, rfl, rfl⟩
  intro other unit hget
  rw [hagrees.compose other]
  exact h other unit hget

theorem blind_nameQuantity (d : Dimension) (name : String) : Blind (nameQuantity d name) := by
  intro j k hjk
  refine ⟨rfl, ⟨hjk.agrees.units, hjk.agrees.prefixes, hjk.agrees.plurals⟩, ?_,
    sound_nameQuantity d name hjk.soundLeft, sound_nameQuantity d name hjk.soundRight⟩
  show k.catalogue.quantities.putNew d name = j.catalogue.quantities.putNew d name
  rw [hjk.quantities]

end Catalogue

end Metrology
