import SocBringup.Bytes

/-! # The layout of flattened devicetrees

A flattened devicetree is a header of ten big-endian words followed by the blocks it points to. The
structure block is a stream of tokens, each a number in a word of its own with what belongs to it
behind, filled up to whole words. The strings block holds the names of properties, each ended by a
NUL. -/

namespace SocBringup.Devicetree

/-- The mark at the start of a blob. -/
def magic : Nat := 0xd00dfeed

/-- The length of the header in bytes. -/
def headerSize : Nat := 40

/-! ### Tokens -/

def beginNode : Nat := 1
def endNode : Nat := 2
def propertyMark : Nat := 3
def noOperation : Nat := 4

/-- The token at the end of a structure block. -/
def endMark : Nat := 9

/-- A length rounded up to whole words. -/
def padded (length : Nat) : Nat := (length + 3) / 4 * 4

end SocBringup.Devicetree
