import Vouch.Bytes

namespace Vouch.Tar

open Bytes

/-- A number in octal, with zeros in front and the null character after it. -/
def octal (width n : Nat) : List UInt8 :=
  let digits := Nat.toDigits 8 n
  ofText (String.ofList (List.replicate (width - 1 - digits.length) '0' ++ digits)) ++ [0]

/-- A name in ASCII. A question mark stands for all other characters. -/
def plainName (name : String) : List UInt8 :=
  name.toList.map fun c => if c.toNat < 128 then UInt8.ofNat c.toNat else 63

/-- The block in front of a file. It knows no owner and no time. Its checksum counts as eight blanks
in the sum. -/
def header (name : String) (mode size : Nat) (kind : Char) : List UInt8 :=
  let front := field 100 (plainName name) ++ octal 8 mode ++ octal 8 0 ++ octal 8 0 ++
    octal 12 size ++ octal 12 0
  let back := UInt8.ofNat kind.toNat :: (field 100 [] ++ ofText "ustar\x0000")
  let sum := ((front ++ back).map UInt8.toNat).foldr (· + ·) 256
  fill 512 (front ++ octal 7 sum ++ [32] ++ back)

/-- A fact on a line that begins with its own length. -/
def record (key value : String) : List UInt8 :=
  let rest := ofText (" " ++ key ++ "=" ++ value ++ "\n")
  let digits := ((List.range 20).find? fun d =>
    (Nat.toDigits 10 (rest.length + d)).length = d).getD 0
  ofText (toString (rest.length + digits)) ++ rest

/-- A name that is too long or not in ASCII is told in a file of its own. -/
def nameFile (name : String) : List UInt8 :=
  if name.length ≤ 100 ∧ name.toList.all (·.toNat < 128) then []
  else
    let facts := record "path" name
    header "././@PaxHeader" 0 facts.length 'x' ++ fill 512 facts

/-- An archive with one file in it. -/
def pack (name : String) (content : List UInt8) : List UInt8 :=
  fill 10240 (nameFile name ++ header name 0o644 content.length '0' ++ fill 512 content ++
    List.replicate 1024 0)

end Vouch.Tar
