import Metrology.Proofs.Dimension.Exponent
import Metrology.Proofs.Measurement.BaseValue

/-!
# Chains of units

A chain says how a unit is built from given ones by products, quotients, powers, reciprocals and
multiples.  Its scale and its exponents are told by numbers alone, without a look at units, names or
lists of powers; `Chain.build_eq_ok` says that the unit that is built has just these.
-/

namespace Metrology.UnitOfMeasure

/-- How a unit is built from given ones. -/
inductive Chain
  | given (u : UnitOfMeasure)
  | mul (s t : Chain)
  | div (s t : Chain)
  | pow (s : Chain) (n : Int)
  | reciprocal (s : Chain)
  | scaled (f : Rat) (s : Chain)

namespace Chain

/-- The unit that comes of a chain, unless a factor is zero. -/
def build : Chain → Outcome UnitOfMeasure
  | given u => .ok u
  | mul s t => do return (← s.build).mul (← t.build)
  | div s t => do return (← s.build).div (← t.build)
  | pow s n => do return (← s.build).pow n
  | reciprocal s => do return (← s.build).reciprocal
  | scaled f s => do (← s.build).scaled f

/-- The scale at the end of a chain. -/
def scale : Chain → Rat
  | given u => u.scale
  | mul s t => s.scale * t.scale
  | div s t => s.scale / t.scale
  | pow s n => s.scale ^ n
  | reciprocal s => s.scale⁻¹
  | scaled f s => f * s.scale

/-- The exponent of a primitive at the end of a chain. -/
def exponent (p : Primitive) : Chain → Int
  | given u => u.dim.exponent p
  | mul s t => s.exponent p + t.exponent p
  | div s t => s.exponent p - t.exponent p
  | pow s n => s.exponent p * n
  | reciprocal s => -s.exponent p
  | scaled _ s => s.exponent p

/-- A unit has the scale and the exponents of the chain by which it is built. -/
theorem build_eq_ok {s : Chain} {u : UnitOfMeasure} (h : s.build = .ok u) :
    u.scale = s.scale ∧ ∀ p, u.dim.exponent p = s.exponent p := by
  induction s generalizing u with
  | given v =>
    cases h
    exact ⟨rfl, fun p => rfl⟩
  | mul s t ihs iht =>
    simp only [build, Outcome.bind_eq_ok_iff] at h
    obtain ⟨v, hv, w, hw, h⟩ := h
    cases h
    obtain ⟨hvs, hvp⟩ := ihs hv
    obtain ⟨hws, hwp⟩ := iht hw
    exact ⟨by rw [scale_mul, hvs, hws, scale], fun p => by simp [hvp p, hwp p, exponent]⟩
  | div s t ihs iht =>
    simp only [build, Outcome.bind_eq_ok_iff] at h
    obtain ⟨v, hv, w, hw, h⟩ := h
    cases h
    obtain ⟨hvs, hvp⟩ := ihs hv
    obtain ⟨hws, hwp⟩ := iht hw
    exact ⟨by rw [scale_div, hvs, hws, scale], fun p => by simp [hvp p, hwp p, exponent]⟩
  | pow s n ih =>
    simp only [build, Outcome.bind_eq_ok_iff] at h
    obtain ⟨v, hv, h⟩ := h
    cases h
    obtain ⟨hvs, hvp⟩ := ih hv
    exact ⟨by rw [scale_pow, hvs, scale], fun p => by simp [hvp p, exponent]⟩
  | reciprocal s ih =>
    simp only [build, Outcome.bind_eq_ok_iff] at h
    obtain ⟨v, hv, h⟩ := h
    cases h
    obtain ⟨hvs, hvp⟩ := ih hv
    exact ⟨by rw [scale_reciprocal, hvs, scale], fun p => by simp [hvp p, exponent]⟩
  | scaled f s ih =>
    simp only [build, Outcome.bind_eq_ok_iff] at h
    obtain ⟨v, hv, h⟩ := h
    obtain ⟨hvs, hvp⟩ := ih hv
    obtain ⟨hdim, hscale⟩ := dim_and_scale_of_ofScale h
    exact ⟨by rw [hscale, hvs, scale], fun p => by rw [hdim, hvp p, exponent]⟩

end Chain

end Metrology.UnitOfMeasure
