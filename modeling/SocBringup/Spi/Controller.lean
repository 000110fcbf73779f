import SocBringup.Device
import SocBringup.Spi.Bus
import SocBringup.Spi.Host

/-! # The SPI controller

A controller moves bytes through two FIFOs of limited depth. A transfer is cut into exchanges that
leave a place free in the FIFO; each sets the counters, fills the transmit FIFO, starts, waits until
the receive FIFO holds as many bytes and takes them out. The chip select is driven by hand, before
the first exchange and after the last, as the framing says.

* `Controller.claim`, `release`: power the block up and down.
* `Controller.transfer`: one transfer, refused before it touches the block if its length, chip
  select or buffers do not fit.
* `Controller.setSpeed`, `setMode`.
* `Controller.serve`: the controller answers the requests of a bus. -/

namespace SocBringup.Spi

/-- A controller: the depth of its FIFOs, the numbers of its clocks and its reset line, and how often
it looks for received bytes before it gives up. -/
structure Controller where
  depth : Nat
  busClock : Nat
  moduleClock : Nat
  resetLine : Nat
  patience : Nat := 65536

/-- The rate of the module clock. -/
def moduleRate : Nat := 24000000

/-- The slowest speed. -/
def minSpeed : Nat := 3000

/-- The greatest linear divider, less one. -/
def maxLinear : Nat := 0xff

/-- The greatest number of a chip select. -/
def maxSelect : Nat := 3

/-- A speed within what the controller can do. -/
def clampSpeed (hz : Nat) : Nat := Nat.max minSpeed (Nat.min hz moduleRate)

/-- The clock control word for a speed that the controller can do. The linear divider is preferred
and the other taken where the ratio is too large for it. -/
def clockWord (hz : Nat) : UInt32 :=
  let ratio := moduleRate / (2 * hz)
  if ratio ≤ maxLinear + 1 then
    Block.linearSelected.store (Block.linearDivider.store 0 (ratio - 1)) 1
  else Block.powerDivider.store 0 (moduleRate.log2 - hz.log2)

/-- A transfer control word in which the chip select is driven low or let go. -/
def selectWord (select : Nat) (active : Bool) (word : UInt32) : UInt32 :=
  if active then Block.selectLevel.store (Block.chipSelect.store word select) 0
  else Block.selectLevel.store (Block.chipSelect.store word 0) 1

/-- A transfer control word with the mode of a slave. -/
def modeWord (mode : Mode) (word : UInt32) : UInt32 :=
  Block.lsbFirst.store (Block.trailingEdge.store (Block.idleHigh.store word mode.idleHigh.toNat)
    mode.trailingEdge.toNat) mode.lsbFirst.toNat

/-- Bytes cut into pieces of a given size, of which the last may be shorter. -/
def chunks (size : Nat) (bytes : Bytes) : List Bytes :=
  if size = 0 ∨ bytes = [] then [] else bytes.take size :: chunks size (bytes.drop size)
termination_by bytes.length
decreasing_by
  rename_i h
  rw [not_or] at h
  have := List.length_pos_iff.mpr h.2
  rw [List.length_drop]; omega

namespace Controller

/-! ### Power -/

/-- The result of a step, with faults wrapped as errors. -/
def wrapped (wrap : Fault → Error) : Except Fault Unit → Except Error Unit
  | .ok () => .ok ()
  | .error fault => .error (wrap fault)

/-- Power the block up: both clocks, then the reset line. What was enabled is disabled again, last
first, if a later step is refused; the block is touched only when all are on. -/
def claim (c : Controller) : Program Host (Except Error Unit) := do
  match ← Host.supply (.enable c.busClock) with
  | .error fault =>
    Host.note .spiBusClockRefused
    return .error (.clock fault)
  | .ok () =>
    match ← Host.supply (.enable c.moduleClock) with
    | .error fault =>
      Host.note .spiModuleClockRefused
      let _ ← Host.supply (.disable c.busClock)
      return .error (.clock fault)
    | .ok () =>
      match ← Host.supply (.deassert c.resetLine) with
      | .error fault =>
        Host.note .spiResetReleaseRefused
        let _ ← Host.supply (.disable c.moduleClock)
        let _ ← Host.supply (.disable c.busClock)
        return .error (.reset fault)
      | .ok () =>
        Host.modify Block.globalControl fun word =>
          Block.softReset.store (Block.transmitPause.store (Block.busEnable.store
            (Block.master.store word 1) 1) 1) 1
        Host.modify Block.transferControl fun word =>
          Block.selectLevel.store (Block.manualSelect.store word 1) 1
        return .ok ()

/-- Power the block down. Every step is taken whatever becomes of the others; the answer is the first
error. -/
def release (c : Controller) : Program Host (Except Error Unit) := do
  Host.modify Block.globalControl fun word => Block.busEnable.store word 0
  let busClock ← Host.supply (.disable c.busClock)
  let moduleClock ← Host.supply (.disable c.moduleClock)
  let resetLine ← Host.supply (.assert c.resetLine)
  return do
    wrapped .clock busClock
    wrapped .clock moduleClock
    wrapped .reset resetLine

/-! ### Transfers -/

/-- Drive the chip select of a slave low, or let it go. -/
def drive (select : Nat) (active : Bool) : Program Host Unit :=
  Host.modify Block.transferControl (selectWord select active)

/-- Look for received bytes until there are `count`, or patience runs out. -/
def await (count : Nat) : (patience : Nat) → Program Host Bool
  | 0 => return false
  | patience + 1 => do
    let status ← Host.read Block.fifoStatus
    if Block.receiveCount.raw status < count then await count patience else return true

/-- Put bytes into the transmit FIFO. -/
def fill : Bytes → Program Host Unit
  | [] => return ()
  | b :: rest => do
    Host.push b
    fill rest

/-- Take bytes out of the receive FIFO. -/
def drain : (count : Nat) → Program Host Bytes
  | 0 => return []
  | count + 1 => do
    let b ← Host.pull
    let rest ← drain count
    return b :: rest

/-- One exchange: as many bytes come in as go out, unless patience runs out. -/
def exchange (c : Controller) (bytes : Bytes) : Program Host (Option Bytes) := do
  let count := Block.counter.store 0 bytes.length
  Host.write Block.burstCount count
  Host.write Block.transmitCount count
  Host.write Block.burstControl count
  fill bytes
  Host.modify Block.transferControl fun word => Block.startExchange.store word 1
  if ← await bytes.length c.patience then
    let received ← drain bytes.length
    return some received
  else return none

/-- One exchange after the other; the bytes that came in, unless patience ran out. -/
def exchangeAll (c : Controller) : List Bytes → Program Host (Option Bytes)
  | [] => return some []
  | bytes :: rest => do
    match ← c.exchange bytes with
    | none => return none
    | some received =>
      let more ← c.exchangeAll rest
      return more.map (received ++ ·)

/-- The most bytes in an exchange: one less than the FIFO is deep, as a 64-bit number, which
wraps. -/
def chunkSize (c : Controller) : Nat := (c.depth + (UInt64.size - 1)) % UInt64.size

/-- Whether a buffer, if there is one, is shorter than a length. -/
def isShort (buffer : Option Bytes) (length : Nat) : Bool :=
  match buffer with
  | none => false
  | some bytes => bytes.length < length

/-- Why a transfer is refused, if it is. -/
def refusal? (t : Transfer) : Option Error :=
  if t.bits % 8 ≠ 0 then some .nonByteAligned
  else if maxSelect < t.select then some .invalidChipSelect
  else if isShort t.send (t.bits / 8) || isShort t.receive (t.bits / 8) then some .shortBuffer
  else none

/-- The bytes a transfer sends. -/
def outgoing (t : Transfer) : Bytes :=
  match t.send with
  | some bytes => bytes.take (t.bits / 8)
  | none => List.replicate (t.bits / 8) 0

/-- The receive buffer of a transfer after some bytes came in. -/
def filled (t : Transfer) (received : Bytes) : Option Bytes :=
  t.receive.map fun buffer => received ++ buffer.drop received.length

/-- The part of a transfer between its checks and its end. -/
def move (c : Controller) (t : Transfer) : Program Host (Option Bytes) := do
  if t.framing.opens then drive t.select true
  Host.modify Block.fifoControl fun word =>
    Block.transmitReset.store (Block.receiveReset.store word 1) 1
  if c.chunkSize = 0 ∧ outgoing t ≠ [] then return none
  else c.exchangeAll (chunks c.chunkSize (outgoing t))

/-- One transfer. A transfer that is refused touches neither the block nor the buffer. -/
def transfer (c : Controller) (t : Transfer) : Program Host Outcome :=
  match refusal? t with
  | some e => do
    if e = .nonByteAligned then Host.note .spiUnaligned
    return ⟨.error e, t.receive⟩
  | none => do
    match ← c.move t with
    | none => return ⟨.error .stalled, t.receive⟩
    | some received =>
      if t.framing.closes then drive t.select false
      return ⟨.ok (), filled t received⟩

/-! ### Speed and mode -/

/-- Set the speed of the bus, within what the controller can do. -/
def setSpeed (hz : Nat) : Program Host (Except Error Unit) := do
  Host.write Block.clockControl (clockWord (clampSpeed hz))
  let word ← Host.read Block.clockControl
  Host.note (.spiSpeed (clampSpeed hz) word)
  return .ok ()

/-- Set the mode of the bus. -/
def setMode (mode : Mode) : Program Host (Except Error Unit) := do
  Host.modify Block.transferControl (modeWord mode)
  return .ok ()

/-- The controller answers the requests of its bus. -/
def serve (c : Controller) : (q : Bus.Request) → Program Host q.Answer
  | .claim => c.claim
  | .release => c.release
  | .setSpeed hz => setSpeed hz
  | .setMode mode => setMode mode
  | .transfer t => c.transfer t
  | .note diagnostic => Host.note diagnostic

/-! ### Binding to a device -/

/-- The driver of controllers; its data is the depth of the FIFOs. -/
def driver : Driver Nat := ⟨"sun6i_spi", .spi, [⟨"allwinner,sun8i-h3-spi", some 64⟩]⟩

/-- Set up the controller of a device with the given clocks and reset line. The line is requested
here; the clocks are left alone until the bus is claimed. -/
def probe (device : Device) (busClock moduleClock resetLine : Nat) :
    Program Host (Except Error Controller) :=
  match driver.match? device with
  | none => return .error (.device .notFound)
  | some entry =>
    match device.resources entry with
    | .error fault => return .error (.device fault)
    | .ok (base, depth) => do
      match ← Host.supply (.request resetLine) with
      | .error fault =>
        Host.note (.spiResetRefused device.name)
        return .error (.reset fault)
      | .ok () =>
        Host.note (.spiBound device.name base depth)
        return .ok { depth, busClock, moduleClock, resetLine }

end Controller

end SocBringup.Spi
