/-! # Hexadecimal text

Numbers in base sixteen with lower-case digits and no leading zeroes. -/

namespace SocBringup

/-- The hexadecimal digits of a number. -/
def hexDigits (n : Nat) : String := String.ofList (Nat.toDigits 16 n)

/-- The hexadecimal digits of a number, marked as such. -/
def hexText (n : Nat) : String := "0x" ++ hexDigits n

end SocBringup
