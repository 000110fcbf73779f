import SocBringup.Diagnostic
import SocBringup.Program
import SocBringup.Register.File

/-! # Register space: reading and writing 32-bit registers

The requests of code that works on a window of 32-bit registers: read a register, write one, report
a diagnostic. A read-modify-write is one read followed by one write. `RegisterFile.serve` answers
the requests from a register file. -/

namespace SocBringup

namespace Register

/-- A request on a register window; registers are named by their byte offset. -/
inductive Request where
  | read (offset : Nat)
  | write (offset : Nat) (word : UInt32)
  | note (diagnostic : Diagnostic)

/-- What a request on a register window answers. -/
abbrev Request.Answer : Request → Type
  | read _ => UInt32
  | write _ _ => Unit
  | note _ => Unit

end Register

/-- Access to a window of 32-bit registers. -/
abbrev Registers : Interface := ⟨Register.Request, Register.Request.Answer⟩

namespace Registers

/-- The word of a register. -/
def read (offset : Nat) : Program Registers UInt32 := .ask (.read offset) .done

/-- Set a register. -/
def write (offset : Nat) (word : UInt32) : Program Registers Unit :=
  .ask (.write offset word) .done

/-- Report a diagnostic. -/
def note (diagnostic : Diagnostic) : Program Registers Unit :=
  .ask (.note diagnostic) .done

/-- Set the bits of a mask in a register. -/
def setBits (offset : Nat) (mask : UInt32) : Program Registers Unit := do
  let word ← read offset
  write offset (word ||| mask)

/-- Clear the bits of a mask in a register. -/
def clearBits (offset : Nat) (mask : UInt32) : Program Registers Unit := do
  let word ← read offset
  write offset (word &&& ~~~mask)

end Registers

/-- A register file answers the requests of a register window. -/
def RegisterFile.serve : Handler Registers RegisterFile
  | .read offset, file => (file.get offset, file)
  | .write offset word, file => ((), file.set offset word)
  | .note _, file => ((), file)

namespace RegisterFile

/-- **Setting bits is one read and one write of the register.** -/
theorem run_setBits (offset : Nat) (mask : UInt32) (file : RegisterFile) :
    (Registers.setBits offset mask).run serve file =
      ⟨(), file.set offset (file.get offset ||| mask),
        [⟨.read offset, file.get offset⟩, ⟨.write offset (file.get offset ||| mask), ()⟩]⟩ := rfl

/-- **Clearing bits is one read and one write of the register.** -/
theorem run_clearBits (offset : Nat) (mask : UInt32) (file : RegisterFile) :
    (Registers.clearBits offset mask).run serve file =
      ⟨(), file.set offset (file.get offset &&& ~~~mask),
        [⟨.read offset, file.get offset⟩, ⟨.write offset (file.get offset &&& ~~~mask), ()⟩]⟩ := rfl

end RegisterFile

end SocBringup
