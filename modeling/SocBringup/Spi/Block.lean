import SocBringup.Program
import SocBringup.Register.Field

/-! # The register block of an SPI controller

The words of the block by byte offset and the fields in them. Beside words that are read and written
there is one byte-wide entrance to the transmit FIFO and one byte-wide exit of the receive FIFO. -/

namespace SocBringup.Spi

/-! ### Layout -/

namespace Block

/-- The word that switches the block as a whole. -/
def globalControl : Nat := 0x04

/-- The word that says how bits are moved, drives the chip select and starts exchanges. -/
def transferControl : Nat := 0x08

/-- The word that resets the FIFOs. -/
def fifoControl : Nat := 0x18

/-- The word that says how full the FIFOs are. -/
def fifoStatus : Nat := 0x1c

/-- The word that divides the module clock. -/
def clockControl : Nat := 0x24

/-- The number of bytes in an exchange. -/
def burstCount : Nat := 0x30

/-- The number of bytes of an exchange that come from the transmit FIFO. -/
def transmitCount : Nat := 0x34

/-- The number of bytes of an exchange that go out on a single line. -/
def burstControl : Nat := 0x38

/-! ### Fields of the global control word -/

/-- The block takes part in bus traffic. -/
def busEnable : Field := { shift := 0, width := 1 }

/-- The block is the master of its bus. -/
def master : Field := { shift := 1, width := 1 }

/-- Stop transmitting while the receive FIFO is full. -/
def transmitPause : Field := { shift := 7, width := 1 }

/-- Reset the block; the bit clears itself. -/
def softReset : Field := { shift := 31, width := 1 }

/-! ### Fields of the transfer control word -/

/-- Sample on the trailing edge of the clock. -/
def trailingEdge : Field := { shift := 0, width := 1 }

/-- The clock idles high. -/
def idleHigh : Field := { shift := 1, width := 1 }

/-- The number of the chip select. -/
def chipSelect : Field := { shift := 4, width := 2 }

/-- The chip select line is driven by hand. -/
def manualSelect : Field := { shift := 6, width := 1 }

/-- The level of the chip select line where it is driven by hand. -/
def selectLevel : Field := { shift := 7, width := 1 }

/-- The least significant bit goes first. -/
def lsbFirst : Field := { shift := 12, width := 1 }

/-- Start the exchange; the bit clears itself when the exchange is done. -/
def startExchange : Field := { shift := 31, width := 1 }

/-! ### Fields of the FIFO control and status words -/

/-- Empty the receive FIFO. -/
def receiveReset : Field := { shift := 15, width := 1 }

/-- Empty the transmit FIFO. -/
def transmitReset : Field := { shift := 31, width := 1 }

/-- The number of bytes in the receive FIFO. -/
def receiveCount : Field := { shift := 0, width := 8 }

/-! ### Fields of the clock control word and of the counters -/

/-- Divide the module clock by twice this number plus one. -/
def linearDivider : Field := { shift := 0, width := 8 }

/-- Divide the module clock by two to this power. -/
def powerDivider : Field := { shift := 8, width := 4 }

/-- The linear divider is in use, not the power of two. -/
def linearSelected : Field := { shift := 12, width := 1 }

/-- The count in each of the three counter words. -/
def counter : Field := { shift := 0, width := 24 }

/-! ### Requests -/

/-- A request on the register block. -/
inductive Request where
  | read (offset : Nat)
  | write (offset : Nat) (word : UInt32)
  /-- Put a byte into the transmit FIFO. -/
  | push (byte : UInt8)
  /-- Take a byte out of the receive FIFO. -/
  | pull
  deriving DecidableEq

/-- What a request on the register block answers. -/
abbrev Request.Answer : Request → Type
  | read _ => UInt32
  | write _ _ => Unit
  | push _ => Unit
  | pull => UInt8

end Block

/-- Access to the register block. -/
abbrev Block : Interface := ⟨Block.Request, Block.Request.Answer⟩

end SocBringup.Spi
