import SocBringup.Register.Space
import Mathlib.Tactic

/-! # What a trace says of the registers

* `Registers.reads`, `Registers.writes`: the registers that were read and written, in order.
* `Registers.accesses`: both together.
* `state_eq_foldl_writes`: the writes are all that happens to a register file. -/

namespace SocBringup.Registers

/-- The register that was read, if one was. -/
def read? : Exchange Registers → Option Nat
  | ⟨.read offset, _⟩ => some offset
  | _ => none

/-- The register that was written, with its word, if one was. -/
def write? : Exchange Registers → Option (Nat × UInt32)
  | ⟨.write offset word, _⟩ => some (offset, word)
  | _ => none

/-- The registers that were read, in order. -/
def reads (trace : List (Exchange Registers)) : List Nat := trace.filterMap read?

/-- The registers that were written, in order, with their words. -/
def writes (trace : List (Exchange Registers)) : List (Nat × UInt32) := trace.filterMap write?

theorem reads_append (xs ys : List (Exchange Registers)) :
    reads (xs ++ ys) = reads xs ++ reads ys := List.filterMap_append

theorem writes_append (xs ys : List (Exchange Registers)) :
    writes (xs ++ ys) = writes xs ++ writes ys := List.filterMap_append

/-- The request is about a register, and no note. -/
def touches : Register.Request → Bool
  | .note _ => false
  | _ => true

/-- What was said to the registers, in order. -/
def accesses (trace : List (Exchange Registers)) : List (Exchange Registers) :=
  trace.filter (touches ·.request)

/-- **The writes are all that happens to a register file.** -/
theorem state_eq_foldl_writes {α : Type} (p : Program Registers α) (file : RegisterFile) :
    (p.run RegisterFile.serve file).state =
      (writes (p.run RegisterFile.serve file).trace).foldl (fun f w => f.set w.1 w.2) file := by
  induction p generalizing file with
  | done a => rfl
  | ask q next ih =>
    cases q with
    | read offset => exact ih _ _
    | write offset word => exact ih _ _
    | note diagnostic => exact ih _ _

end SocBringup.Registers
