/-!
# Hexadecimal text

Numbers as they appear in messages: `0x`, then lower-case digits.
-/

namespace Hotswap.Text

/-- The lower-case hexadecimal digits of `n`, without leading zeros. -/
def hexDigits (n : Nat) : String :=
  String.ofList (Nat.toDigits 16 n)

/-- `n` behind `0x`. -/
def hex (n : Nat) : String :=
  "0x" ++ hexDigits n

/-- `n` behind `0x`, filled with zeros to the eight digits of a 32-bit word. -/
def hexWord (n : Nat) : String :=
  let digits := Nat.toDigits 16 n
  "0x" ++ String.ofList (List.replicate (8 - digits.length) '0' ++ digits)

end Hotswap.Text
