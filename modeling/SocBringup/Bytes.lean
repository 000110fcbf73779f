/-! # Runs of bytes -/

namespace SocBringup

/-- A run of bytes. -/
abbrev Bytes := List UInt8

/-- The number that bytes stand for, the most significant first. -/
def bigEndian (bytes : Bytes) : Nat := bytes.foldl (fun n b => 256 * n + b.toNat) 0

/-- The text that bytes stand for, if they are UTF-8. -/
def text? (bytes : Bytes) : Option String := String.fromUTF8? bytes.toByteArray

/-- The bytes of a text. -/
def bytesOf (text : String) : Bytes := text.toUTF8.toList

end SocBringup
