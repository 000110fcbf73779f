import SocBringup.Bytes
import SocBringup.Register.File
import SocBringup.Spi.Block

/-! # A simulated SPI register block

The block stores its words, except that the start and reset bits clear themselves. Starting an
exchange moves as many bytes as the burst counter says from the transmit FIFO onto the wire; what is
on the wire comes into the receive FIFO when the status is read, all of it or a few bytes at a time.
The bytes received are those of a script, or those sent where there is no script. -/

namespace SocBringup.Bench

open Spi

/-- The state of a simulated block. -/
structure SpiBlock where
  words : RegisterFile := {}
  transmit : Bytes := []
  wire : Bytes := []
  receive : Bytes := []
  /-- The bytes a slave will answer; without a script it answers what it is sent. -/
  script : Option Bytes := none
  /-- How many bytes come in each time the status is read; zero stands for all. -/
  dribble : Nat := 0

namespace SpiBlock

/-- The first bytes of a list, made up to `count` with a byte of choice. -/
def upTo (count : Nat) (bytes : Bytes) (more : UInt8) : Bytes :=
  bytes.take count ++ List.replicate (count - bytes.length) more

/-- The bytes an exchange of `count` bytes sends: what the transmit FIFO has, then zeroes. -/
def sent (b : SpiBlock) (count : Nat) : Bytes := upTo count b.transmit 0

/-- The bytes an exchange of `count` bytes receives: what the script has, then ones; without a
script, what was sent. -/
def answered (b : SpiBlock) (count : Nat) : Bytes :=
  match b.script with
  | none => b.sent count
  | some script => upTo count script 0xff

/-- The block after an exchange: what is received comes onto the wire. -/
def start (b : SpiBlock) : SpiBlock :=
  let count := Block.counter.raw (b.words.get Block.burstCount)
  { b with
    transmit := b.transmit.drop count
    wire := b.wire ++ b.answered count
    script := b.script.map (·.drop count) }

/-- The block after a write to one of its words. -/
def write (b : SpiBlock) (offset : Nat) (word : UInt32) : SpiBlock :=
  if offset = Block.transferControl then
    let b := if Block.startExchange.raw word = 0 then b else b.start
    { b with words := b.words.set offset (Block.startExchange.store word 0) }
  else if offset = Block.globalControl then
    { b with words := b.words.set offset (Block.softReset.store word 0) }
  else if offset = Block.fifoControl then
    { b with
      words := b.words.set offset word
      wire := if Block.receiveReset.raw word = 0 then b.wire else []
      receive := if Block.receiveReset.raw word = 0 then b.receive else []
      transmit := if Block.transmitReset.raw word = 0 then b.transmit else [] }
  else { b with words := b.words.set offset word }

/-- The block after bytes came in from the wire. -/
def comeIn (b : SpiBlock) : SpiBlock :=
  let count := if b.dribble = 0 then b.wire.length else b.dribble
  { b with wire := b.wire.drop count, receive := b.receive ++ b.wire.take count }

/-- The status word: the number of bytes received, as far as it fits, and what else was stored. -/
def status (b : SpiBlock) : UInt32 :=
  Block.receiveCount.store (b.words.get Block.fifoStatus) (Nat.min b.receive.length 255)

/-- A simulated block answers the requests on a register block. -/
def serve : Handler Block SpiBlock
  | .read offset, b =>
    if offset = Block.fifoStatus then (b.comeIn.status, b.comeIn) else (b.words.get offset, b)
  | .write offset word, b => ((), b.write offset word)
  | .push byte, b => ((), { b with transmit := b.transmit ++ [byte] })
  | .pull, b => (b.receive.headD 0, { b with receive := b.receive.tail })

end SpiBlock

end SocBringup.Bench
