import SocBringup.Controller.Clock
import SocBringup.Controller.Reset
import SocBringup.Spi.Controller

/-! # Boards: SPI controllers on one control unit

A board has a control unit and any number of SPI controllers, each with a register block of its own.
The clocks and reset lines of the controllers are those of the control unit.

* `Chip.supply`: the control unit answers requests for clocks and reset lines.
* `Board.host`: what an SPI controller asks for, on its own block and the shared control unit. -/

namespace SocBringup

namespace Board

/-- A request on a board: to the register block of an SPI controller, or to the control unit. -/
inductive Request where
  | block (unit : Nat) (q : Spi.Block.Request)
  | control (q : Register.Request)

/-- What a request on a board answers. -/
abbrev Request.Answer : Request → Type
  | block _ q => q.Answer
  | control q => q.Answer

end Board

/-- Access to a board. -/
abbrev Board : Interface := ⟨Board.Request, Board.Request.Answer⟩

/-- The control unit of a chip answers requests for clocks and reset lines. -/
def Chip.supply (chip : Chip) : Spi.Supply.Request → Program Registers (Except Fault Unit)
  | .enable clock => chip.enableClock clock
  | .disable clock => chip.disableClock clock
  | .request line => chip.requestReset line
  | .assert line => chip.assertReset line
  | .deassert line => chip.deassertReset line

namespace Board

/-- A program of the control unit, on a board. -/
def control {α : Type} (p : Program Registers α) : Program Board α :=
  p.expand fun q => .ask (.control q) .done

/-- What the SPI controller of a given number asks for, on a board. -/
def host (chip : Chip) (unit : Nat) : (q : Spi.Host.Request) → Program Board q.Answer
  | .block q => .ask (.block unit q) .done
  | .supply q => control (chip.supply q)
  | .note diagnostic => .ask (.control (.note diagnostic)) .done

end Board

end SocBringup
