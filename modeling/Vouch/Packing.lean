import Vouch.Files
import Vouch.Packing.Bzip
import Vouch.Packing.Gzip
import Vouch.Packing.Tar
import Vouch.Packing.Xz
import Vouch.Packing.Zip

namespace Vouch

/-- How the content of a file is packed. -/
inductive Packing where
  | plain
  | tar
  | gzip
  | bzip
  | zip
  | xz
  | zstandard
  deriving DecidableEq

/-- The name of the file at a path. -/
def nameOf (path : String) : String := (((namesOf path).filter (· ≠ ".")).getLast?).getD ""

/-- The end of a name from its last point on. A point at either end of the name does not count. -/
def endingOf (name : String) : String :=
  let tail := name.toList.reverse.takeWhile (· ≠ '.')
  if tail = [] ∨ name.length ≤ tail.length + 1 then "" else String.ofList ('.' :: tail.reverse)

/-- A name without its ending. -/
def stemOf (name : String) : String :=
  String.ofList (name.toList.take (name.length - (endingOf name).length))

namespace Packing

/-- The ends of paths that ask for a packing. The first one that fits counts. -/
def endings : List (String × Packing) :=
  [(".tar", tar), (".tar.gz", tar), (".tar.bz2", tar), (".tar.xz", tar), (".gz", gzip),
    (".bz2", bzip), (".zip", zip), (".xz", xz), (".zst", zstandard)]

/-- The packing that a path asks for, in letters of either case. Of a chain of places, which two
colons hold together, the first one is asked. -/
def ofPath (path : String) : Packing :=
  let first := ((path.splitOn "::").head?.getD path).toList.map Char.toLower
  ((endings.find? fun e => e.1.toList.isSuffixOf first).map (·.2)).getD plain

/-- The content of a packed file at a path. An archive names the file in it after the path. An
archive may be packed itself, if the path says so in small letters. There is no packer for
`zstandard`. -/
def pack? (now : Reading) (path : String) (content : List UInt8) : Packing → Option (List UInt8)
  | plain => some content
  | tar =>
    let name := nameOf path
    let ending := endingOf name
    let archive := Tar.pack (if ending = ".tar" then stemOf name else name) content
    some (
      if ending = ".gz" then Gzip.pack archive
      else if ending = ".bz2" then Bzip.pack archive
      else if ending = ".xz" then Xz.pack archive
      else archive)
  | gzip => some (Gzip.pack content)
  | bzip => some (Bzip.pack content)
  | zip =>
    let name := nameOf path
    some (Zip.pack now (if endingOf name = ".zip" then stemOf name else name) content)
  | xz => some (Xz.pack content)
  | zstandard => none

end Packing

end Vouch
