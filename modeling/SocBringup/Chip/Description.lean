import SocBringup.Clock.Tree
import SocBringup.Line
import SocBringup.Mmc.Setter

/-! # Descriptions of control units

The control unit of a chip is described by tables. A *flat* description has one entry per clock,
which names the gate and may carry a rate setter; an entry or reset line with an empty mask is a
hole. A *typed* description says of every number whether there is a line, and may have a clock tree
but no rate setters. -/

namespace SocBringup

/-- The entry of a clock in a flat description. -/
structure ClockEntry where
  /-- The gate of the clock; its register is also the one the setter programs. -/
  gate : Line
  setter : Option Mmc.Setter := none

namespace ClockEntry

/-- The entry of a clock number that is not wired. -/
def hole : ClockEntry := { gate := ⟨0, 0⟩ }

/-- A clock with a gate only. -/
def bit (offset position : Nat) : ClockEntry := { gate := .bit offset position }

/-- An MMC module clock, whose gate is the top bit of its control register. -/
def mmc (offset : Nat) (setter : Mmc.Setter) : ClockEntry :=
  { gate := .bit offset 31, setter := some setter }

/-- How an entry is shown. -/
def text (e : ClockEntry) : String :=
  s!"CcuClkMap \x7b off: {e.gate.offset}, bit: {e.gate.mask}, set_rate: {e.setter.isSome} \x7d"

end ClockEntry

/-- The tables of a control unit. -/
inductive Description where
  | flat (clocks : List ClockEntry) (resets : List Line)
  | typed (tree : Option Clock.Tree) (gates resets : Bank)

namespace Description

/-- The clock gates by number. -/
def gates : Description → Bank
  | flat clocks _ => clocks.map (·.gate.wired?)
  | typed _ gates _ => gates

/-- The reset lines by number. -/
def resets : Description → Bank
  | flat _ resets => resets.map (·.wired?)
  | typed _ _ resets => resets

/-- The clock tree, if the description has one. -/
def tree? : Description → Option Clock.Tree
  | flat _ _ => none
  | typed tree _ _ => tree

end Description

/-- A chip: the description of its control unit, and how many reset lines its bindings declare. -/
structure Chip where
  description : Description
  resetCount : Nat

/-- The clock entries of a given size with the listed ones at their numbers. -/
def ClockEntry.table (size : Nat) (entries : List (Nat × ClockEntry)) : List ClockEntry :=
  (List.range size).map fun number => (entries.lookup number).getD .hole

/-- The reset lines of a given size with the listed ones at their numbers, and empty masks
elsewhere. -/
def Line.table (size : Nat) (lines : List (Nat × Line)) : List Line :=
  (List.range size).map fun number => (lines.lookup number).getD ⟨0, 0⟩

end SocBringup
