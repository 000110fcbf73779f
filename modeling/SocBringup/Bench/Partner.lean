import SocBringup.Bench.SpiBlock
import SocBringup.Board
import SocBringup.Spi.Bus

/-! # Partners to run programs against

Handlers for trying out programs: clocks and reset lines that refuse chosen calls, a bus controller
that refuses chosen calls, and a board of simulated blocks. -/

namespace SocBringup.Bench

open Spi

/-! ### Clocks and reset lines -/

/-- The calls that are refused, each with the fault it answers. -/
abbrev Refusals := List (Supply.Request × Fault)

/-- The answer to a call: the fault of the first refusal that names it, or success. -/
def Refusals.answer (refusals : Refusals) (q : Supply.Request) : Except Fault Unit :=
  match refusals.lookup q with
  | some fault => .error fault
  | none => .ok ()

/-- A simulated block with clocks and reset lines that refuse chosen calls. -/
def host (refusals : Refusals) : Handler Host SpiBlock
  | .block q, b => SpiBlock.serve q b
  | .supply q, b => (refusals.answer q, b)
  | .note _, b => ((), b)

/-! ### A bus controller -/

/-- The kinds of calls on a bus. -/
inductive Call where
  | claim
  | release
  | speed
  | mode
  | transfer
  deriving DecidableEq

/-- A bus controller that refuses chosen calls, named by kind and by their number in that kind from
one on, and that fills every receive buffer with one byte. -/
structure BusScript where
  refusals : List ((Call × Nat) × Error) := []
  fillByte : UInt8 := 0x5a

namespace BusScript

/-- The answer to a call after the given calls: the error of the first refusal that names it, or
success. -/
def answer (script : BusScript) (call : Call) (earlier : List Call) : Except Error Unit :=
  match script.refusals.lookup (call, earlier.count call + 1) with
  | some e => .error e
  | none => .ok ()

/-- The bus controller, which keeps the calls made so far. -/
def serve (script : BusScript) : Handler Bus (List Call)
  | .claim, calls => (script.answer .claim calls, .claim :: calls)
  | .release, calls => (script.answer .release calls, .release :: calls)
  | .setSpeed _, calls => (script.answer .speed calls, .speed :: calls)
  | .setMode _, calls => (script.answer .mode calls, .mode :: calls)
  | .transfer t, calls =>
    (⟨script.answer .transfer calls, t.receive.map fun buffer => buffer.map fun _ => script.fillByte⟩,
      .transfer :: calls)
  | .note _, calls => ((), calls)

end BusScript

/-! ### A board -/

/-- The state of a board: its control unit and its SPI blocks by number. -/
structure BoardState where
  control : RegisterFile := {}
  blocks : Nat → SpiBlock := fun _ => {}

/-- A board of simulated blocks. -/
def board : Handler Board BoardState
  | .block unit q, s =>
    let (a, b) := SpiBlock.serve q (s.blocks unit)
    (a, { s with blocks := fun other => if other = unit then b else s.blocks other })
  | .control q, s =>
    let (a, control) := RegisterFile.serve q s.control
    (a, { s with control })

end SocBringup.Bench
