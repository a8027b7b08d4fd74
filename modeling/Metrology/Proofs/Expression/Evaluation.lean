import Metrology.Expression.Tree
import Metrology.Proofs.Quantity.Amount

/-!
# Evaluation is exact

`Expression.Denotes` says what an expression stands for by its structure alone: magnitudes are
multiplied, divided and raised, exponents are added, subtracted and multiplied, and nothing is said
of units, lifted numbers or measurements.  `Expression.Fails` lists how an expression can fail to
stand for anything: a name does not resolve, a divisor is zero, a zero is raised to a negative
power, or an exponent is no bare integer.

The main result is `denotes_iff_and_fails_iff`: evaluation gives a value of the amount that the
structure demands, and it fails exactly where the structure says so, with a failure of that kind.
One direction goes through the tree (`eval_settled`), the other through the derivations
(`Denotes.eval_eq_ok`, `Fails.eval_eq_error`).
-/

namespace Metrology

namespace Expression

/-! ### Amount by structure -/

/-- Whether an expression is made of numbers alone, exponents aside. -/
def IsBare (resolve : String → Outcome Quantity) : Expression → Prop
  | number _ => True
  | name text => ∃ q, resolve text = .ok (.number q)
  | neg e => e.IsBare resolve
  | pow base _ => base.IsBare resolve
  | mul left right => left.IsBare resolve ∧ right.IsBare resolve
  | div left right => left.IsBare resolve ∧ right.IsBare resolve

/-- The amount that an expression stands for. -/
inductive Denotes (resolve : String → Outcome Quantity) : Expression → Amount → Prop
  | number (q : Rat) : Denotes resolve (.number q) ⟨q, .dimensionless⟩
  | name {text : String} {v : Quantity} (h : resolve text = .ok v) :
    Denotes resolve (.name text) v.amount
  | neg {e : Expression} {x : Amount} (h : Denotes resolve e x) :
    Denotes resolve (.neg e) ⟨-x.magnitude, x.dim⟩
  | mul {left right : Expression} {x y : Amount} {d : Dimension} (hl : Denotes resolve left x)
    (hr : Denotes resolve right y)
    (hd : ∀ p, d.exponent p = x.dim.exponent p + y.dim.exponent p) :
    Denotes resolve (.mul left right) ⟨x.magnitude * y.magnitude, d⟩
  | div {left right : Expression} {x y : Amount} {d : Dimension} (hl : Denotes resolve left x)
    (hr : Denotes resolve right y) (hy : y.magnitude ≠ 0)
    (hd : ∀ p, d.exponent p = x.dim.exponent p - y.dim.exponent p) :
    Denotes resolve (.div left right) ⟨x.magnitude / y.magnitude, d⟩
  | pow {base exponent : Expression} {x y : Amount} {n : Int} {d : Dimension}
    (hb : Denotes resolve base x) (he : Denotes resolve exponent y)
    (hbare : exponent.IsBare resolve) (hn : y.magnitude = n)
    (hx : ¬ (n < 0 ∧ x.magnitude = 0))
    (hd : ∀ p, d.exponent p = x.dim.exponent p * n) :
    Denotes resolve (.pow base exponent) ⟨x.magnitude ^ n, d⟩

/-- How an expression fails to stand for anything, from left to right. -/
inductive Fails (resolve : String → Outcome Quantity) : Expression → ErrorKind → Prop
  | name {text : String} {e : Error} (h : resolve text = .error e) :
    Fails resolve (.name text) e.kind
  | neg {e : Expression} {k : ErrorKind} (h : Fails resolve e k) : Fails resolve (.neg e) k
  | mulLeft {left right : Expression} {k : ErrorKind} (h : Fails resolve left k) :
    Fails resolve (.mul left right) k
  | mulRight {left right : Expression} {x : Amount} {k : ErrorKind} (hl : Denotes resolve left x)
    (h : Fails resolve right k) : Fails resolve (.mul left right) k
  | divLeft {left right : Expression} {k : ErrorKind} (h : Fails resolve left k) :
    Fails resolve (.div left right) k
  | divRight {left right : Expression} {x : Amount} {k : ErrorKind} (hl : Denotes resolve left x)
    (h : Fails resolve right k) : Fails resolve (.div left right) k
  | divisor {left right : Expression} {x y : Amount} (hl : Denotes resolve left x)
    (hr : Denotes resolve right y) (hy : y.magnitude = 0) :
    Fails resolve (.div left right) .zeroDivision
  | powBase {base exponent : Expression} {k : ErrorKind} (h : Fails resolve base k) :
    Fails resolve (.pow base exponent) k
  | powExponent {base exponent : Expression} {x : Amount} {k : ErrorKind}
    (hb : Denotes resolve base x) (h : Fails resolve exponent k) :
    Fails resolve (.pow base exponent) k
  | zeroBase {base exponent : Expression} {x y : Amount} {n : Int} (hb : Denotes resolve base x)
    (he : Denotes resolve exponent y) (hbare : exponent.IsBare resolve) (hy : y.magnitude = n)
    (hn : n < 0) (hx : x.magnitude = 0) : Fails resolve (.pow base exponent) .zeroDivision
  | exponent {base exponent : Expression} {x y : Amount} (hb : Denotes resolve base x)
    (he : Denotes resolve exponent y)
    (h : ¬ (exponent.IsBare resolve ∧ ∃ n : Int, y.magnitude = n)) :
    Fails resolve (.pow base exponent) .malformedText

variable {resolve : String → Outcome Quantity}

/-- An outcome is lifted to an outcome as it is. -/
theorem ofExcept_outcome {α : Type} (x : Outcome α) :
    (MonadExcept.ofExcept x : Outcome α) = x := by
  cases x <;> rfl

theorem eval_neg (e : Expression) :
    (neg e).eval resolve = (do return (← e.eval resolve).neg) := rfl

theorem eval_mul (left right : Expression) :
    (mul left right).eval resolve =
      (do let a ← left.eval resolve; let b ← right.eval resolve; return a.mul b) := rfl

theorem eval_div (left right : Expression) :
    (div left right).eval resolve =
      (do let a ← left.eval resolve; let b ← right.eval resolve; a.div b) := by
  simp only [eval, evalM, ofExcept_outcome]

theorem eval_pow (base exponent : Expression) :
    (pow base exponent).eval resolve =
      (do let a ← base.eval resolve; let x ← exponent.eval resolve; a.pow x) := by
  simp only [eval, evalM, ofExcept_outcome]

/-! ### From the tree to the structure -/

/-- What evaluation has to give for an expression: a value of the amount that it stands for, a bare
number if the expression is bare, or a failure for a reason that its structure shows. -/
def Settled (resolve : String → Outcome Quantity) (e : Expression) : Prop :=
  (∃ v, e.eval resolve = .ok v ∧ e.Denotes resolve v.amount ∧
    (v.isNumber = true ↔ e.IsBare resolve)) ∨
  ∃ err, e.eval resolve = .error err ∧ e.Fails resolve err.kind

theorem settled_name (text : String) : Settled resolve (.name text) := by
  cases h : resolve text with
  | error err => exact .inr ⟨err, h, .name h⟩
  | ok v =>
    refine .inl ⟨v, h, .name h, ?_⟩
    rw [IsBare, h]
    cases v <;> simp [Quantity.isNumber]

theorem Settled.neg {e : Expression} (h : Settled resolve e) : Settled resolve (.neg e) := by
  obtain ⟨v, hv, hd, hb⟩ | ⟨err, herr, hf⟩ := h
  · refine .inl ⟨v.neg, by rw [eval_neg, hv]; rfl, ?_, by rw [v.isNumber_neg]; exact hb⟩
    rw [Quantity.amount, v.magnitude_neg, v.dim_neg]
    exact hd.neg
  · exact .inr ⟨err, by rw [eval_neg, herr]; rfl, hf.neg⟩

theorem Settled.mul {left right : Expression} (hl : Settled resolve left)
    (hr : Settled resolve right) : Settled resolve (.mul left right) := by
  obtain ⟨a, ha, had, hab⟩ | ⟨err, herr, hf⟩ := hl
  · obtain ⟨b, hb, hbd, hbb⟩ | ⟨err, herr, hf⟩ := hr
    · refine .inl ⟨a.mul b, by rw [eval_mul, ha, hb]; rfl, ?_, ?_⟩
      · rw [Quantity.amount, a.magnitude_mul b]
        exact had.mul hbd (a.exponent_mul b)
      · rw [a.isNumber_mul b, Bool.and_eq_true]
        exact and_congr hab hbb
    · exact .inr ⟨err, by rw [eval_mul, ha, herr]; rfl, .mulRight had hf⟩
  · exact .inr ⟨err, by rw [eval_mul, herr]; rfl, .mulLeft hf⟩

theorem Settled.div {left right : Expression} (hl : Settled resolve left)
    (hr : Settled resolve right) : Settled resolve (.div left right) := by
  obtain ⟨a, ha, had, hab⟩ | ⟨err, herr, hf⟩ := hl
  · obtain ⟨b, hb, hbd, hbb⟩ | ⟨err, herr, hf⟩ := hr
    · by_cases h0 : b.magnitude = 0
      · obtain ⟨err, herr, hk⟩ := a.div_eq_error h0
        refine .inr ⟨err, by rw [eval_div, ha, hb, ← herr]; rfl, ?_⟩
        rw [hk]
        exact .divisor had hbd h0
      · obtain ⟨v, hv, hq⟩ := a.div_eq_ok h0
        refine .inl ⟨v, by rw [eval_div, ha, hb, ← hv]; rfl, ?_, ?_⟩
        · rw [Quantity.amount, hq.magnitude]
          exact had.div hbd h0 hq.exponent
        · rw [hq.isNumber, Bool.and_eq_true]
          exact and_congr hab hbb
    · exact .inr ⟨err, by rw [eval_div, ha, herr]; rfl, .divRight had hf⟩
  · exact .inr ⟨err, by rw [eval_div, herr]; rfl, .divLeft hf⟩

/-- A bare number of integer magnitude is that integer. -/
theorem eq_number_of_isNumber {x : Quantity} {n : Int} (hx : x.isNumber = true)
    (hn : x.magnitude = n) : x = .number n := by
  cases x with
  | number q => exact congrArg Quantity.number hn
  | unit u => cases hx
  | measurement m => cases hx

theorem Settled.pow {base exponent : Expression} (hb : Settled resolve base)
    (he : Settled resolve exponent) : Settled resolve (.pow base exponent) := by
  obtain ⟨a, ha, had, hab⟩ | ⟨err, herr, hf⟩ := hb
  · obtain ⟨x, hx, hxd, hxb⟩ | ⟨err, herr, hf⟩ := he
    · have heval : (Expression.pow base exponent).eval resolve = a.pow x := by
        rw [eval_pow, ha, hx]
        rfl
      -- The exponent is looked at before the base, so that a zero base does not count without it.
      by_cases hint : x.isNumber = true ∧ ∃ n : Int, x.magnitude = n
      · obtain ⟨hnum, n, hn⟩ := hint
        rw [eq_number_of_isNumber hnum hn] at heval
        by_cases h0 : n < 0 ∧ a.magnitude = 0
        · obtain ⟨err, herr, hk⟩ := Quantity.pow_eq_error h0.1 h0.2
          refine .inr ⟨err, heval.trans herr, ?_⟩
          rw [hk]
          exact .zeroBase had hxd (hxb.mp hnum) hn h0.1 h0.2
        · obtain ⟨v, hv, hp⟩ := a.pow_eq_ok h0
          refine .inl ⟨v, heval.trans hv, ?_, by rw [hp.isNumber]; exact hab⟩
          rw [Quantity.amount, hp.magnitude]
          exact had.pow hxd (hxb.mp hnum) hn h0 hp.exponent
      · obtain ⟨err, herr, hk⟩ := a.pow_eq_error_of_not_integer hint
        refine .inr ⟨err, heval.trans herr, ?_⟩
        rw [hk]
        exact .exponent had hxd fun h => hint ⟨hxb.mpr h.1, h.2⟩
    · exact .inr ⟨err, by rw [eval_pow, ha, herr]; rfl, .powExponent had hf⟩
  · exact .inr ⟨err, by rw [eval_pow, herr]; rfl, .powBase hf⟩

theorem eval_settled (resolve : String → Outcome Quantity) (e : Expression) :
    Settled resolve e := by
  induction e with
  | number q => exact .inl ⟨.number q, rfl, .number q, iff_of_true rfl trivial⟩
  | name text => exact settled_name text
  | neg e ih => exact ih.neg
  | pow base exponent ihb ihe => exact ihb.pow ihe
  | mul left right ihl ihr => exact ihl.mul ihr
  | div left right ihl ihr => exact ihl.div ihr

/-! ### From the structure to the tree -/

/-- A bare expression has a bare value, and no other has. -/
theorem isNumber_iff_isBare {e : Expression} {v : Quantity} (h : e.eval resolve = .ok v) :
    v.isNumber = true ↔ e.IsBare resolve := by
  obtain ⟨w, hw, -, hb⟩ | ⟨err, herr, -⟩ := eval_settled resolve e
  · obtain rfl : v = w := Except.ok.inj (h.symm.trans hw)
    exact hb
  · cases h.symm.trans herr

/-- What has a value stands for the amount of it. -/
theorem denotes_of_eval {e : Expression} {v : Quantity} (h : e.eval resolve = .ok v) :
    e.Denotes resolve v.amount := by
  obtain ⟨w, hw, hd, -⟩ | ⟨err, herr, -⟩ := eval_settled resolve e
  · obtain rfl : v = w := Except.ok.inj (h.symm.trans hw)
    exact hd
  · cases h.symm.trans herr

/-- What stands for an amount has a value of that amount. -/
theorem Denotes.eval_eq_ok {e : Expression} {x : Amount} (h : e.Denotes resolve x) :
    ∃ v, e.eval resolve = .ok v ∧ v.amount = x := by
  induction h with
  | number q => exact ⟨.number q, rfl, rfl⟩
  | name h => exact ⟨_, h, rfl⟩
  | neg _ ih =>
    obtain ⟨v, hv, rfl⟩ := ih
    exact ⟨v.neg, by rw [eval_neg, hv]; rfl, Amount.ext v.magnitude_neg v.dim_neg⟩
  | mul _ _ hd ihl ihr =>
    obtain ⟨a, ha, rfl⟩ := ihl
    obtain ⟨b, hb, rfl⟩ := ihr
    refine ⟨a.mul b, by rw [eval_mul, ha, hb]; rfl, Amount.ext (a.magnitude_mul b) ?_⟩
    exact Dimension.ext_exponent fun p => (a.exponent_mul b p).trans (hd p).symm
  | div _ _ hy hd ihl ihr =>
    obtain ⟨a, ha, rfl⟩ := ihl
    obtain ⟨b, hb, rfl⟩ := ihr
    obtain ⟨v, hv, hq⟩ := a.div_eq_ok hy
    refine ⟨v, by rw [eval_div, ha, hb]; exact hv, Amount.ext hq.magnitude ?_⟩
    exact Dimension.ext_exponent fun p => (hq.exponent p).trans (hd p).symm
  | pow _ _ hbare hn hx hd ihb ihe =>
    obtain ⟨a, ha, rfl⟩ := ihb
    obtain ⟨x, hxe, rfl⟩ := ihe
    obtain rfl := eq_number_of_isNumber ((isNumber_iff_isBare hxe).mpr hbare) hn
    obtain ⟨v, hv, hp⟩ := a.pow_eq_ok hx
    refine ⟨v, by rw [eval_pow, ha, hxe]; exact hv, Amount.ext hp.magnitude ?_⟩
    exact Dimension.ext_exponent fun p => (hp.exponent p).trans (hd p).symm

/-- What fails to stand for anything has no value, for that kind of reason. -/
theorem Fails.eval_eq_error {e : Expression} {k : ErrorKind} (h : e.Fails resolve k) :
    ∃ err, e.eval resolve = .error err ∧ err.kind = k := by
  induction h with
  | name h => exact ⟨_, h, rfl⟩
  | neg _ ih =>
    obtain ⟨err, herr, hk⟩ := ih
    exact ⟨err, by rw [eval_neg, herr]; rfl, hk⟩
  | mulLeft _ ih =>
    obtain ⟨err, herr, hk⟩ := ih
    exact ⟨err, by rw [eval_mul, herr]; rfl, hk⟩
  | mulRight hl _ ih =>
    obtain ⟨a, ha, -⟩ := hl.eval_eq_ok
    obtain ⟨err, herr, hk⟩ := ih
    exact ⟨err, by rw [eval_mul, ha, herr]; rfl, hk⟩
  | divLeft _ ih =>
    obtain ⟨err, herr, hk⟩ := ih
    exact ⟨err, by rw [eval_div, herr]; rfl, hk⟩
  | divRight hl _ ih =>
    obtain ⟨a, ha, -⟩ := hl.eval_eq_ok
    obtain ⟨err, herr, hk⟩ := ih
    exact ⟨err, by rw [eval_div, ha, herr]; rfl, hk⟩
  | divisor hl hr hy =>
    obtain ⟨a, ha, -⟩ := hl.eval_eq_ok
    obtain ⟨b, hb, rfl⟩ := hr.eval_eq_ok
    obtain ⟨err, herr, hk⟩ := a.div_eq_error hy
    exact ⟨err, by rw [eval_div, ha, hb]; exact herr, hk⟩
  | powBase _ ih =>
    obtain ⟨err, herr, hk⟩ := ih
    exact ⟨err, by rw [eval_pow, herr]; rfl, hk⟩
  | powExponent hb _ ih =>
    obtain ⟨a, ha, -⟩ := hb.eval_eq_ok
    obtain ⟨err, herr, hk⟩ := ih
    exact ⟨err, by rw [eval_pow, ha, herr]; rfl, hk⟩
  | zeroBase hb he hbare hy hn hx =>
    obtain ⟨a, ha, rfl⟩ := hb.eval_eq_ok
    obtain ⟨x, hxe, rfl⟩ := he.eval_eq_ok
    obtain rfl := eq_number_of_isNumber ((isNumber_iff_isBare hxe).mpr hbare) hy
    obtain ⟨err, herr, hk⟩ := Quantity.pow_eq_error hn hx
    exact ⟨err, by rw [eval_pow, ha, hxe]; exact herr, hk⟩
  | exponent hb he h =>
    obtain ⟨a, ha, -⟩ := hb.eval_eq_ok
    obtain ⟨x, hxe, rfl⟩ := he.eval_eq_ok
    obtain ⟨err, herr, hk⟩ := a.pow_eq_error_of_not_integer
      fun hx => h ⟨(isNumber_iff_isBare hxe).mp hx.1, hx.2⟩
    exact ⟨err, by rw [eval_pow, ha, hxe]; exact herr, hk⟩

/-- **Evaluation is exact**: an expression has a value of just the amount that its structure gives
it, and it has none just where its structure gives it none, for a reason of the same kind. -/
theorem denotes_iff_and_fails_iff (resolve : String → Outcome Quantity) (e : Expression) :
    (∀ x, e.Denotes resolve x ↔ ∃ v, e.eval resolve = .ok v ∧ v.amount = x) ∧
    ∀ k, e.Fails resolve k ↔ ∃ err, e.eval resolve = .error err ∧ err.kind = k := by
  constructor
  · intro x
    refine ⟨Denotes.eval_eq_ok, ?_⟩
    rintro ⟨v, hv, rfl⟩
    exact denotes_of_eval hv
  · intro k
    refine ⟨Fails.eval_eq_error, ?_⟩
    rintro ⟨err, herr, rfl⟩
    obtain ⟨w, hw, -, -⟩ | ⟨err', herr', hf⟩ := eval_settled resolve e
    · cases herr.symm.trans hw
    · obtain rfl : err = err' := Except.error.inj (herr.symm.trans herr')
      exact hf

end Expression

end Metrology
