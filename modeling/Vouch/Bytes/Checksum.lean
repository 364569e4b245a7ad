namespace Vouch.Checksum

/-- The remainder after one more bit, the lowest bit being the next. -/
def stepLow (r : UInt32) : UInt32 :=
  if r &&& 1 = 1 then (r >>> 1) ^^^ 0xedb88320 else r >>> 1

/-- The remainder after one more bit, the highest bit being the next. -/
def stepHigh (r : UInt32) : UInt32 :=
  if r &&& 0x80000000 = 0 then r <<< 1 else (r <<< 1) ^^^ 0x04c11db7

/-- The remainder after one more byte, the lowest bit first. -/
def byteLow (r : UInt32) (byte : UInt8) : UInt32 := Nat.repeat stepLow 8 (r ^^^ byte.toUInt32)

/-- The remainder after one more byte, the highest bit first. -/
def byteHigh (r : UInt32) (byte : UInt8) : UInt32 :=
  Nat.repeat stepHigh 8 (r ^^^ (byte.toUInt32 <<< 24))

/-- The cyclic checksum of 32 bits that takes the lowest bit of a byte first. -/
def low (bytes : List UInt8) : UInt32 := ~~~ bytes.foldl byteLow 0xffffffff

/-- The cyclic checksum of 32 bits that takes the highest bit of a byte first. -/
def high (bytes : List UInt8) : UInt32 := ~~~ bytes.foldl byteHigh 0xffffffff

end Vouch.Checksum
