import Metrology.Calculator.Value
import Metrology.Text.Search

/-!
# Comparison of values

Numbers are equal or ordered by their exact values; an undefined number is neither. Units and
measurements are equal when they agree but for their names. Measurements, numbers, dimensions, texts
and lists are ordered, each among themselves; a measurement beside any other value is a failure of
its own.
-/

namespace Metrology.Calculator

namespace Value

/-- Whether two primitives, units or measurements are equal, whatever they are called. -/
def equalQuantities (a b : Value) : Bool :=
  match a.unit?, b.unit?, a.measurement?, b.measurement?, a.primitive?, b.primitive? with
  | some u, some v, _, _, _, _ => u.equivalent v
  | _, _, some m, some n, _, _ => m.equivalent n
  | _, _, _, _, some p, some q => p = q
  | _, _, _, _, _, _ => false

mutual

/-- Whether two values are equal. -/
def equal : Value → Value → Bool
  | nothing, nothing => true
  | truth a, b => match b.number? with
    | some n => Number.equal (.integer (if a then 1 else 0)) n
    | none => false
  | number a, b => match b.number? with
    | some n => a.equal n
    | none => false
  | text a, text b => a = b
  | list a, list b => equalAll a b
  | tuple a, tuple b => equalAll a b
  | settings a, settings b => equalAll a b
  | table a, table b => a.length = b.length && equalEntries a b
  | dimension a, dimension b => a = b
  | catalogue a _ _, catalogue b _ _ => a = b
  | a, b => equalQuantities a b

/-- Whether two lists have equal items. -/
def equalAll : List Value → List Value → Bool
  | [], [] => true
  | a :: as, b :: bs => equal a b && equalAll as bs
  | _, _ => false

/-- Whether every entry of a table is an entry of another. -/
def equalEntries : List (Value × Value) → List (Value × Value) → Bool
  | [], _ => true
  | e :: rest, b => b.any (fun entry => equalEntry e entry) && equalEntries rest b

/-- Whether two entries of tables have equal keys and values. -/
def equalEntry : Value × Value → Value × Value → Bool
  | (k, v), (k', v') => equal k k' && equal v v'

end

mutual

/-- Whether two values that may be compared are equal. A number that announces that it is none may
not, on its own or inside of a list. -/
def equality : Value → Value → Outcome Bool
  | list a, list b => if a.length = b.length then equalityOfAll a b else .ok false
  | tuple a, tuple b => if a.length = b.length then equalityOfAll a b else .ok false
  | settings a, settings b => equalityOfAll a b
  | table a, table b => if a.length = b.length then equalityOfEntries a b else .ok false
  | a, b =>
    match a.number?, b.number? with
    | some x, some y => x.equality y
    | _, _ => .ok (equal a b)

/-- Whether two lists have equal items. -/
def equalityOfAll : List Value → List Value → Outcome Bool
  | [], [] => .ok true
  | a :: as, b :: bs => do if ← equality a b then equalityOfAll as bs else return false
  | _, _ => .ok false

/-- Whether every entry of a table is an entry of another. -/
def equalityOfEntries : List (Value × Value) → List (Value × Value) → Outcome Bool
  | [], _ => .ok true
  | e :: rest, b => do if ← equalityOfEntry e b then equalityOfEntries rest b else return false

/-- Whether an entry is an entry of a table. -/
def equalityOfEntry : Value × Value → List (Value × Value) → Outcome Bool
  | (k, v), b =>
    match b.find? fun e => e.1.equal k with
    | some (_, w) => equality v w
    | none => .ok false

end

/-- The relations by which values are ordered. -/
inductive Relation
  | less
  | atMost
  | greater
  | atLeast
  deriving DecidableEq, Repr

/-- Whether a relation holds between values that compare in a given way. -/
def Relation.holds : Relation → Ordering → Bool
  | less, o => o = .lt
  | atMost, o => o ≠ .gt
  | greater, o => o = .gt
  | atLeast, o => o ≠ .lt

/-- How the entries of two dimensions compare: the first two that differ decide, if they are
powers of the same primitive, and else the shorter list is less. -/
def compareEntries : List Entry → List Entry → Outcome Ordering
  | [], [] => .ok .eq
  | [], _ :: _ => .ok .lt
  | _ :: _, [] => .ok .gt
  | (p, m) :: as, (q, n) :: bs =>
    if p ≠ q then .error .unsupportedOperands
    else if m < n then .ok .lt
    else if n < m then .ok .gt
    else compareEntries as bs

/-- How two texts compare, character by character. -/
def compareTexts (a b : String) : Ordering := if a = b then .eq else if a < b then .lt else .gt

/-- Whether a relation holds between two values of which one at least is a measurement. -/
def relatedMeasurements (r : Relation) (a b : Value) : Outcome Bool := do
  match a.measurement?, b.measurement? with
  | some m, some n =>
    if m.unit.dim = n.unit.dim then return r.holds (Ord.compare (← m.compare n) 0)
    else throw (.incompatibleUnits (← (ofUnitOf b).display) (← (ofUnitOf a).display))
  | some _, none => throw (.incomparable b.typePath)
  | none, _ => throw (.incomparable a.typePath)

mutual

/-- Whether a relation holds between two values. -/
def related (r : Relation) : Value → Value → Outcome Bool
  | dimension d, dimension e => do return r.holds (← compareEntries d.entries e.entries)
  | text a, text b => .ok (r.holds (compareTexts a b))
  | list a, list b => relatedAll r a b
  | tuple a, tuple b => relatedAll r a b
  | a, b =>
    if a.measurement?.isSome || b.measurement?.isSome then relatedMeasurements r a b
    else match a.number?, b.number? with
      | some x, some y => do return (← x.order y).any r.holds
      | _, _ => .error .unsupportedOperands

/-- Whether a relation holds between two lists: the first items that differ decide, and else the
shorter list is less. -/
def relatedAll (r : Relation) : List Value → List Value → Outcome Bool
  | [], [] => .ok (r.holds .eq)
  | [], _ :: _ => .ok (r.holds .lt)
  | _ :: _, [] => .ok (r.holds .gt)
  | a :: as, b :: bs => do if ← equality a b then relatedAll r as bs else related r a b

end

/-- Whether two values have the same key, which all equal values have. -/
def sameKey (a b : Value) : Outcome Bool :=
  if a.isKey && b.isKey then a.equality b else .error .unsupportedOperands

/-- Whether a value is among the parts of another. A text has all the texts in it as parts. -/
def hasPart (whole part : Value) : Outcome Bool :=
  match whole, part with
  | text s, text t => .ok (Text.breakOn t.toList s.toList).isSome
  | text _, _ => .error .unsupportedOperands
  | table entries, _ =>
    if part.isKey then .ok (entries.any fun e => e.1.equal part) else .error .unsupportedOperands
  | _, _ => do (← whole.items).anyM fun item => item.equality part

/-! ### Tables -/

/-- The value of a key in the entries of a table. -/
def valueAt? (entries : List (Value × Value)) (key : Value) : Option Value :=
  (entries.find? fun e => e.1.equal key).map Prod.snd

/-- The entries after a key has been given a value: a key that is there keeps its place. -/
def withEntry (entries : List (Value × Value)) (key v : Value) : List (Value × Value) :=
  if entries.any (fun e => e.1.equal key) then
    entries.map fun e => if e.1.equal key then (e.1, v) else e
  else entries ++ [(key, v)]

/-- The table made of entries one after the other: a key that comes again keeps its place and
takes its last value. -/
def tableOf (entries : List (Value × Value)) : List (Value × Value) :=
  entries.foldl (fun table e => withEntry table e.1 e.2) []

/-- A value put into its place among values in increasing order. -/
def insertSorted (v : Value) : List Value → Outcome (List Value)
  | [] => .ok [v]
  | last :: rest => do
    -- The order is looked for from the end.
    if ← related .less v last then return last :: (← insertSorted v rest)
    else return v :: last :: rest

/-- Values in increasing order. -/
def sorted (vs : List Value) : Outcome (List Value) := do
  return (← vs.foldlM (fun descending v => insertSorted v descending) []).reverse

end Value

end Metrology.Calculator
