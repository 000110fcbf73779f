import SocBringup.Register.Space

/-! # Byte memory under a register window

A block of memory cells, with access by byte and by little-endian 32-bit word. A register window at
some address of the block answers register requests: the register at offset `o` is the word at the
window's address plus `o`. Cells outside the block read as zero and cannot be written. -/

namespace SocBringup

/-- A block of memory, one entry per byte address. -/
structure Memory where
  cells : Array UInt8

namespace Memory

/-- A block of zeroes. -/
def zero (size : Nat) : Memory := ⟨Array.replicate size 0⟩

/-- The byte at an address. -/
def byte (m : Memory) (address : Nat) : UInt8 := m.cells.getD address 0

/-- The block with one byte set. -/
def setByte (m : Memory) (address : Nat) (b : UInt8) : Memory :=
  ⟨m.cells.setIfInBounds address b⟩

/-- The little-endian word at an address. -/
def word (m : Memory) (address : Nat) : UInt32 :=
  UInt32.ofNat ((m.byte address).toNat + (m.byte (address + 1)).toNat <<< 8 +
    (m.byte (address + 2)).toNat <<< 16 + (m.byte (address + 3)).toNat <<< 24)

/-- Byte `index` of a word, counted from the least significant. -/
def wordByte (w : UInt32) (index : Nat) : UInt8 := UInt8.ofNat (w.toNat >>> (8 * index))

/-- The block with a little-endian word set. -/
def setWord (m : Memory) (address : Nat) (w : UInt32) : Memory :=
  (((m.setByte address (wordByte w 0)).setByte (address + 1) (wordByte w 1)).setByte
    (address + 2) (wordByte w 2)).setByte (address + 3) (wordByte w 3)

/-- The block with bits of a word set. -/
def setWordBits (m : Memory) (address : Nat) (mask : UInt32) : Memory :=
  m.setWord address (m.word address ||| mask)

/-- The block with bits of a word cleared. -/
def clearWordBits (m : Memory) (address : Nat) (mask : UInt32) : Memory :=
  m.setWord address (m.word address &&& ~~~mask)

/-- The window at address `base` answers register requests. -/
def serve (base : Nat) : Handler Registers Memory
  | .read offset, m => (m.word (base + offset), m)
  | .write offset w, m => ((), m.setWord (base + offset) w)
  | .note _, m => ((), m)

end Memory

end SocBringup
