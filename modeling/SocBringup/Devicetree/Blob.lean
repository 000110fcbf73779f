import SocBringup.Devicetree.Layout

/-! # Devicetree blobs: header, numbers and strings

* `Blob.ofBytes`: the two blocks of a blob, or why the header is refused. -/

namespace SocBringup.Devicetree

/-- The number in the first `count` bytes, if there are as many. -/
def number? (count : Nat) (bytes : Bytes) : Option Nat :=
  if (bytes.take count).length = count then some (bigEndian (bytes.take count)) else none

/-- The word in the first four bytes, if there are as many. -/
def word? (bytes : Bytes) : Option Nat := number? 4 bytes

/-- The bytes before the first NUL. -/
def untilNul (bytes : Bytes) : Bytes := bytes.takeWhile (· ≠ 0)

/-! ### The header -/

/-- Why a blob is refused. -/
inductive BlobError where
  /-- The blob is shorter than the header, or than the size the header gives. -/
  | tooSmall
  /-- The blob does not start with the mark of devicetrees. -/
  | badMagic
  deriving DecidableEq

/-- The text shown for a refused blob. -/
def BlobError.message : BlobError → String
  | tooSmall => "the given buffer was too small to contain a FDT header"
  | badMagic => "bad FDT magic value"

/-- The blocks of a flattened devicetree. -/
structure Blob where
  structureBlock : Bytes
  stringsBlock : Bytes

namespace Blob

/-- A word of the header; zero if the bytes end before it. -/
def headerWord (bytes : Bytes) (index : Nat) : Nat := (word? (bytes.drop (4 * index))).getD 0

/-- The blocks of a blob. Nothing of the header is checked but its mark and that the bytes hold the
header and as much as it says the blob is long. -/
def ofBytes (bytes : Bytes) : Except BlobError Blob :=
  if bytes.length < headerSize then .error .tooSmall
  else if headerWord bytes 0 ≠ magic then .error .badMagic
  else if bytes.length < headerWord bytes 1 then .error .tooSmall
  else .ok {
    structureBlock := (bytes.drop (headerWord bytes 2)).take (headerWord bytes 9)
    stringsBlock := (bytes.drop (headerWord bytes 3)).take (headerWord bytes 8) }

end Blob

end SocBringup.Devicetree
