import Vouch.Bytes
import Vouch.Bytes.Checksum

namespace Vouch.Gzip

open Bytes

/-- Bytes as they are, in blocks that tell their length twice, the second time with all bits
turned. The first byte of a block says whether it is the last one. -/
def storedBlocks (content : List UInt8) : List UInt8 :=
  if content.length ≤ 65535 then block 1 content
  else block 0 (content.take 65535) ++ storedBlocks (content.drop 65535)
  termination_by content.length
  decreasing_by simp only [List.length_drop]; omega
where
  block (mark : UInt8) (bytes : List UInt8) : List UInt8 :=
    mark :: (little 2 bytes.length ++ little 2 (65535 - bytes.length) ++ bytes)

/-- A packed file without a name and a time. -/
def pack (content : List UInt8) : List UInt8 :=
  [0x1f, 0x8b, 8, 0, 0, 0, 0, 0, 2, 255] ++ storedBlocks content ++
    little 4 (Checksum.low content).toNat ++ little 4 content.length

end Vouch.Gzip
