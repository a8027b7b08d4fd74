import Metrology.Number.Decimal
import Metrology.Text.Quoted

/-!
# The record of what happened

Reading a database and looking names up leave events behind: details that help to find out why a
name means what it means, and one summary of every database that was read.
-/

namespace Metrology

/-- Something that happened while a catalogue was built or read. -/
inductive Event
  /-- A unit was defined that was defined before. -/
  | redefinedUnit (name : String)
  /-- A prefix was defined that was defined before. -/
  | redefinedFactor (name : String)
  /-- A unit was composed for a name that is not defined itself. -/
  | composed (name : String) (scale : Rat)
  /-- A record of a database was skipped. -/
  | skipped (line : Nat) (reason record : String)
  /-- A database had no text. -/
  | noText
  /-- A database defined no unit. -/
  | noUnits (rejected : Nat)
  /-- A database was read. -/
  | parsed (units prefixes accepted rejected : Nat)
  deriving DecidableEq, Repr

/-- How much an event matters. -/
inductive Event.Level
  /-- A detail. -/
  | debug
  /-- A summary. -/
  | info
  deriving DecidableEq, Repr

/-- The part of the library that an event comes from. -/
inductive Event.Source
  | catalogue
  | database
  deriving DecidableEq, Repr

namespace Event

/-- How much an event matters. -/
def level : Event → Level
  | redefinedUnit _ | redefinedFactor _ | composed _ _ | skipped _ _ _ => .debug
  | noText | noUnits _ | parsed _ _ _ _ => .info

/-- Where an event comes from. -/
def source : Event → Source
  | redefinedUnit _ | redefinedFactor _ | composed _ _ => .catalogue
  | skipped _ _ _ | noText | noUnits _ | parsed _ _ _ _ => .database

/-- An event in words. -/
def message : Event → String
  | redefinedUnit name => s!"Redefining unit {Text.quoted name}"
  | redefinedFactor name => s!"Redefining prefix {Text.quoted name}"
  | composed name scale =>
    s!"Composed unit {Text.quoted name} (scale {Decimal.exactText scale})"
  | skipped line reason record => s!"Skipping line {line} ({reason}): {record}"
  | noText => "No unit database text to parse"
  | noUnits rejected => s!"Unit database defined no units ({rejected} lines skipped)"
  | parsed units prefixes accepted rejected =>
    s!"Parsed unit database: {units} units, {prefixes} prefixes, " ++
      s!"{accepted} records accepted, {rejected} skipped"

end Event

end Metrology
