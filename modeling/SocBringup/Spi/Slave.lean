import SocBringup.Spi.Bus

/-! # SPI slaves: what is spoken to over a bus

A slave sits on a chip select of a bus and has a maximum speed and a mode of its own. A session on
the bus starts by applying both and claiming the bus. A transaction is one stretch of the chip select
in which an opcode goes out and then either data goes out or an answer comes in. -/

namespace SocBringup.Spi

/-- A slave on a bus. A maximum speed of zero stands for the default. -/
structure Slave where
  bus : Nat := 0
  select : Nat := 0
  maxHz : Nat := 0
  mode : Mode := {}

/-- The bus speed of slaves that ask for none. -/
def defaultSpeed : Nat := 100000

/-- The length of a run of bytes in bits, as a 64-bit number, which wraps. -/
def bitLength (bytes : Nat) : Nat := bytes * 8 % UInt64.size

namespace Slave

/-- The speed a slave is spoken to at. -/
def speed (s : Slave) : Nat := if s.maxHz = 0 then defaultSpeed else s.maxHz

/-- Apply the slave's speed and mode, then claim the bus. -/
def claim (s : Slave) : Program Bus (Except Error Unit) := do
  Bus.note (.spiClaim s.bus s.select s.speed s.mode)
  match ← Bus.setSpeed s.speed with
  | .error e => return .error e
  | .ok () =>
    match ← Bus.setMode s.mode with
    | .error e => return .error e
    | .ok () => Bus.claim

/-- Release the bus. -/
def release (_ : Slave) : Program Bus (Except Error Unit) := Bus.release

/-- One transfer on the slave's chip select. -/
def transfer (s : Slave) (bits : Nat) (send receive : Option Bytes) (framing : Framing) :
    Program Bus Outcome :=
  Bus.transfer { select := s.select, bits, send, receive, framing }

/-- The length of the payload of a transaction: that of the data to send if there is any, else that
of the receive buffer. -/
def payloadLength : (send receive : Option Bytes) → Nat
  | some send, _ => send.length
  | none, some receive => receive.length
  | none, none => 0

/-- Send an opcode, then the payload in one direction or both, as one transaction. -/
def writeThenRead (s : Slave) (opcode : Bytes) (send receive : Option Bytes) :
    Program Bus Outcome := do
  let length := payloadLength send receive
  let framing := if length = 0 then Framing.whole else Framing.opening
  let first ← s.transfer (bitLength opcode.length) (some opcode) none framing
  match first.result with
  | .error e => return ⟨.error e, receive⟩
  | .ok () =>
    if length = 0 then return ⟨.ok (), receive⟩
    else s.transfer (bitLength length) send receive .closing

end Slave

end SocBringup.Spi
