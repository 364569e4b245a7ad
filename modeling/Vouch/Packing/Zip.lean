import Vouch.Bytes
import Vouch.Bytes.Checksum
import Vouch.Calendar.Reading

namespace Vouch.Zip

open Bytes

/-- The time of day in steps of two seconds, and the day, counted from 1980 on. -/
def moment (r : Reading) : List UInt8 :=
  little 2 ((r.hour * 64 + r.minute) * 32 + r.second / 2) ++
    little 2 (((r.date.year - 1980) * 16 + r.date.month) * 32 + r.date.day)

/-- An archive with one file in it, which is stored as it is. Names beyond ASCII are marked as
such. -/
def pack (now : Reading) (name : String) (content : List UInt8) : List UInt8 :=
  let name := ofText name
  let marks := if name.all (· < 128) then 0 else 0x800
  let size := little 4 content.length
  let facts := little 2 20 ++ little 2 marks ++ little 2 0 ++ moment now ++
    little 4 (Checksum.low content).toNat ++ size ++ size ++ little 2 name.length ++ little 2 0
  let file := [0x50, 0x4b, 3, 4] ++ facts ++ name ++ content
  let entry := [0x50, 0x4b, 1, 2] ++ little 2 0x314 ++ facts ++ List.replicate 6 0 ++
    little 4 (0o600 * 65536) ++ little 4 0 ++ name
  file ++ entry ++ [0x50, 0x4b, 5, 6] ++ List.replicate 4 0 ++ little 2 1 ++ little 2 1 ++
    little 4 entry.length ++ little 4 file.length ++ little 2 0

end Vouch.Zip
