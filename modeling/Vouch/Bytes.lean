namespace Vouch.Bytes

/-- A number in so many bytes, the lowest first. What does not fit is left out. -/
def little : Nat → Nat → List UInt8
  | 0, _ => []
  | width + 1, n => UInt8.ofNat n :: little width (n / 256)

/-- A number in so many bytes, the highest first. -/
def big (width n : Nat) : List UInt8 := (little width n).reverse

/-- The bytes of a text. -/
def ofText (text : String) : List UInt8 := text.toUTF8.toList

/-- Bytes with zeros after them up to a multiple of a length. -/
def fill (unit : Nat) (bytes : List UInt8) : List UInt8 :=
  bytes ++ List.replicate ((unit - bytes.length % unit) % unit) 0

/-- Bytes cut, or filled up with zeros, to a length. -/
def field (width : Nat) (bytes : List UInt8) : List UInt8 :=
  bytes.take width ++ List.replicate (width - bytes.length) 0

/-- A number in so many bits, the highest first. -/
def bits (width n : Nat) : List Bool := (List.range width).reverse.map n.testBit

/-- Bits on the way into bytes: whole bytes, the latest first, and the number that is made of the
bits after them. -/
structure Gathering where
  bytes : List UInt8 := []
  count : Nat := 0
  value : Nat := 0

namespace Gathering

def push (g : Gathering) (bit : Bool) : Gathering :=
  let value := g.value * 2 + bit.toNat
  if g.count = 7 then { bytes := UInt8.ofNat value :: g.bytes }
  else { g with count := g.count + 1, value }

/-- All bytes. Zeros fill up the last one. -/
def finish (g : Gathering) : List UInt8 :=
  if g.count = 0 then g.bytes.reverse
  else (UInt8.ofNat (g.value <<< (8 - g.count)) :: g.bytes).reverse

end Gathering

/-- The bytes that bits make, the highest bit of each byte first. -/
def ofBits (bits : List Bool) : List UInt8 := (bits.foldl Gathering.push {}).finish

end Vouch.Bytes
