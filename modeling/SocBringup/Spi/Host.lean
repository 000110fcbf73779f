import SocBringup.Diagnostic
import SocBringup.Fault
import SocBringup.Spi.Block

/-! # The surroundings of an SPI controller

A controller has its register block, and depends on two clocks and a reset line that something else
supplies. Its programs make requests to both and report diagnostics. -/

namespace SocBringup.Spi

namespace Supply

/-- A request for a clock or a reset line. -/
inductive Request where
  | enable (clock : Nat)
  | disable (clock : Nat)
  | request (line : Nat)
  | assert (line : Nat)
  | deassert (line : Nat)
  deriving DecidableEq

end Supply

/-- Access to clocks and reset lines. -/
abbrev Supply : Interface := ⟨Supply.Request, fun _ => Except Fault Unit⟩

namespace Host

/-- A request of a controller: to its block, to its supply, or to report a diagnostic. -/
inductive Request where
  | block (q : Block.Request)
  | supply (q : Supply.Request)
  | note (diagnostic : Diagnostic)

/-- What a request of a controller answers. -/
abbrev Request.Answer : Request → Type
  | block q => q.Answer
  | supply _ => Except Fault Unit
  | note _ => Unit

end Host

/-- What a controller has access to. -/
abbrev Host : Interface := ⟨Host.Request, Host.Request.Answer⟩

namespace Host

def read (offset : Nat) : Program Host UInt32 := .ask (.block (.read offset)) .done

def write (offset : Nat) (word : UInt32) : Program Host Unit :=
  .ask (.block (.write offset word)) .done

def push (byte : UInt8) : Program Host Unit := .ask (.block (.push byte)) .done
def pull : Program Host UInt8 := .ask (.block .pull) .done
def supply (q : Supply.Request) : Program Host (Except Fault Unit) := .ask (.supply q) .done
def note (diagnostic : Diagnostic) : Program Host Unit := .ask (.note diagnostic) .done

/-- Read a word and write it back changed. -/
def modify (offset : Nat) (change : UInt32 → UInt32) : Program Host Unit := do
  let word ← read offset
  write offset (change word)

end Host

end SocBringup.Spi
