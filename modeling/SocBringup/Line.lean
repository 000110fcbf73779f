import SocBringup.Register.Space

/-! # Lines: single bits of control registers

A clock gate or a reset line is a mask in a control register: set, the clock runs or the block is
out of reset; clear, the clock is gated or the block held in reset. A bank lists the lines of a chip
by number and may have holes; a number without a line is reported and otherwise ignored.

* `switchGate`, `switchReset`: one read and one write of the line's register. -/

namespace SocBringup

/-- A mask in a control register. -/
structure Line where
  offset : Nat
  mask : UInt32
  deriving DecidableEq

/-- The lines of a chip by number, with holes. -/
abbrev Bank := List (Option Line)

namespace Line

/-- The line of a single bit. -/
def bit (offset position : Nat) : Line := ⟨offset, UInt32.ofNat (1 <<< position)⟩

/-- The line, unless its mask is empty. -/
def wired? (l : Line) : Option Line := if l.mask = 0 then none else some l

/-- The position of the lowest bit of a mask, 32 if there is none. -/
def position (l : Line) : Nat := ((List.range 32).find? (l.mask.toNat.testBit ·)).getD 32

/-- Set or clear the bits of a line. -/
def switch (l : Line) (on : Bool) : Program Registers Unit :=
  if on then Registers.setBits l.offset l.mask else Registers.clearBits l.offset l.mask

end Line

namespace Bank

/-- The line of a number. -/
def line? (bank : Bank) (number : Nat) : Option Line := bank[number]?.join

/-- The bank of a given size with the listed lines at their numbers. -/
def ofList (size : Nat) (lines : List (Nat × Line)) : Bank :=
  (List.range size).map fun number => lines.lookup number

/-- Open or close the gate of a clock. -/
def switchGate (bank : Bank) (clock : Nat) (on : Bool) : Program Registers Unit :=
  match bank.line? clock with
  | none => Registers.note (.gateMissing clock)
  | some l => do
    Registers.note (.gateSwitched clock l.offset l.position on)
    l.switch on

/-- Release a reset line, or hold it in reset. -/
def switchReset (bank : Bank) (number : Nat) (released : Bool) : Program Registers Unit :=
  match bank.line? number with
  | none => Registers.note (.resetMissing number)
  | some l => do
    Registers.note (.resetSwitched number l.offset l.position released)
    l.switch released

end Bank

end SocBringup
