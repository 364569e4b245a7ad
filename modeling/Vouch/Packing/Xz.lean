import Vouch.Bytes
import Vouch.Bytes.Checksum

namespace Vouch.Xz

open Bytes

/-- A number in groups of seven bits, the lowest first. The high bit says that more follow. -/
def varied (n : Nat) : List UInt8 :=
  if n < 128 then [UInt8.ofNat n] else UInt8.ofNat (128 + n % 128) :: varied (n / 128)
  termination_by n
  decreasing_by omega

/-- The checksum of bytes. -/
def sum (bytes : List UInt8) : List UInt8 := little 4 (Checksum.low bytes).toNat

/-- Bytes with their checksum after them. -/
def sealed (bytes : List UInt8) : List UInt8 := bytes ++ sum bytes

/-- Bytes as they are, in pieces that tell their length. The first piece has a mark of its own. -/
def pieces (mark : UInt8) (content : List UInt8) : List UInt8 :=
  if content.length = 0 then [0]
  else
    let piece := content.take 65536
    mark :: (big 2 (piece.length - 1) ++ piece ++ pieces 2 (content.drop 65536))
  termination_by content.length
  decreasing_by simp only [List.length_drop]; omega

/-- Says that contents are followed by a checksum. -/
def flags : List UInt8 := [0, 1]

/-- The beginning of a block: its length in words without the first one, one filter, and eight
mebibytes to look back on. -/
def blockHeader : List UInt8 := sealed [2, 0, 0x21, 1, 22, 0, 0, 0]

/-- A packed file of one block. -/
def pack (content : List UInt8) : List UInt8 :=
  let packed := pieces 1 content
  let size := blockHeader.length + packed.length + 4
  let index := sealed (fill 4 ([0, 1] ++ varied size ++ varied content.length))
  let tail := little 4 (index.length / 4 - 1) ++ flags
  [0xfd, 0x37, 0x7a, 0x58, 0x5a, 0] ++ sealed flags ++ blockHeader ++ fill 4 packed ++
    sum content ++ index ++ sum tail ++ tail ++ [0x59, 0x5a]

end Vouch.Xz
