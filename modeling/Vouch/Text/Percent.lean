import Vouch.Text.Digit
import Vouch.Text.Utf8

namespace Vouch.Text

/-- The bytes of ASCII characters, each escape being the byte that it stands for. A percent sign
without two hexadecimal digits after it is no escape. -/
def octets : List Char → List UInt8
  | '%' :: a :: b :: cs =>
    match hexDigit? a, hexDigit? b with
    | some high, some low => UInt8.ofNat (high * 16 + low) :: octets cs
    | _, _ => 37 :: octets (a :: b :: cs)
  | c :: cs => UInt8.ofNat c.toNat :: octets cs
  | [] => []

/-- Resolves the escapes in each stretch of ASCII characters, after the stretch that is given in
reverse. An escape and a character beyond ASCII never make one character. -/
def unescapeFrom (stretch : List Char) : List Char → List Char
  | [] => Utf8.decodeAnyway (octets stretch.reverse)
  | c :: cs =>
    if c.toNat < 128 then unescapeFrom (c :: stretch) cs
    else Utf8.decodeAnyway (octets stretch.reverse) ++ c :: unescapeFrom [] cs

/-- A text with its percent escapes resolved. -/
def unescape (cs : List Char) : List Char := unescapeFrom [] cs

end Vouch.Text
