import Vouch.Bytes
import Vouch.Bytes.Checksum

namespace Vouch.Bzip

open Bytes

/-- A byte, and how many times it stands in a row. -/
abbrev Run := UInt8 × Nat

/-- Runs, the latest first, with one more byte after them. A run is no longer than 255. -/
def extend : List Run → UInt8 → List Run
  | (b, n) :: earlier, byte =>
    if byte = b ∧ n < 255 then (b, n + 1) :: earlier else (byte, 1) :: (b, n) :: earlier
  | [], byte => [(byte, 1)]

/-- The runs of equal bytes. -/
def runs (content : List UInt8) : List Run := (content.foldl extend []).reverse

/-- The bytes of a run. -/
def Run.bytes (r : Run) : List UInt8 := List.replicate r.2 r.1

/-- A run as it is stored: after four equal bytes stands how many more there are. -/
def Run.stored (r : Run) : List UInt8 :=
  if r.2 < 4 then r.bytes else List.replicate 4 r.1 ++ [UInt8.ofNat (r.2 - 4)]

/-- How many stored bytes make a block full. -/
def blockLimit : Nat := 899981

/-- The blocks that runs make, after a block that is not full yet and is given in reverse. -/
def blocksFrom (size : Nat) (block : List Run) : List Run → List (List Run)
  | [] => if block.isEmpty then [] else [block.reverse]
  | r :: rest =>
    let size := size + r.stored.length
    if blockLimit ≤ size then (r :: block).reverse :: blocksFrom 0 [] rest
    else blocksFrom size (r :: block) rest

/-- Whether the rotation of a block that begins at one place comes before the one that begins at
another, or is equal to it, as far as the given number of bytes shows. -/
def notAfter (block : Array UInt8) : Nat → Nat → Nat → Bool
  | 0, _, _ => true
  | count + 1, i, j =>
    let a := block.getD (i % block.size) 0
    let b := block.getD (j % block.size) 0
    if a = b then notAfter block count (i + 1) (j + 1) else a < b

/-- The places of a block in the order of the rotations that begin there. -/
def order (block : Array UInt8) : List Nat :=
  (List.range block.size).mergeSort (notAfter block block.size)

/-- The last bytes of all rotations in their order. -/
def lastBytes (block : Array UInt8) (order : List Nat) : List UInt8 :=
  order.map fun i => block.getD ((i + block.size - 1) % block.size) 0

/-- The bytes that occur, in their order. -/
def alphabet (bytes : List UInt8) : List UInt8 :=
  ((List.range 256).map UInt8.ofNat).filter (· ∈ bytes)

/-- The places of bytes in an alphabet, in which each byte moves to the front when it occurs. -/
def places (alphabet bytes : List UInt8) : List Nat :=
  (bytes.foldl (fun (found, front) byte =>
    (front.idxOf byte :: found, byte :: front.erase byte)) ([], alphabet)).1.reverse

/-- A number in the digits one and two, the lowest first. Zero stands for the digit one. -/
def runDigits : Nat → List Nat
  | 0 => []
  | n + 1 => n % 2 :: runDigits (n / 2)
  termination_by n => n
  decreasing_by omega

/-- Symbols, the latest first, after which so many zeros wait to be written, with one more place
after them. -/
def write : List Nat × Nat → Nat → List Nat × Nat
  | (symbols, waiting), 0 => (symbols, waiting + 1)
  | (symbols, waiting), place + 1 =>
    ((place + 2) :: ((runDigits waiting).reverse ++ symbols), 0)

/-- The symbols for places. A row of zeros is written as its length, and the last symbol ends the
block. -/
def symbols (last : Nat) (places : List Nat) : List Nat :=
  let (written, waiting) := places.foldl write ([], 0)
  written.reverse ++ runDigits waiting ++ [last]

/-- Which bytes occur: first which of the sixteen parts of the byte range have some, then which they
are in each of these. -/
def usedBits (alphabet : List UInt8) : List Bool :=
  let parts := (List.range 16).map fun high =>
    (List.range 16).map fun low => decide (UInt8.ofNat (high * 16 + low) ∈ alphabet)
  parts.map (·.any id) ++ (parts.filter (·.any id)).flatten

/-- How many code tables are usual for a number of symbols. -/
def tableCount (count : Nat) : Nat :=
  if count < 200 then 2
  else if count < 600 then 3
  else if count < 1200 then 4
  else if count < 2400 then 5
  else 6

/-- The checksum of a block. -/
def blockSum (block : List Run) : Nat := (Checksum.high (block.flatMap Run.bytes)).toNat

/-- A block. All tables give all symbols codes of one length, so that it does not matter which table
is taken for which fifty symbols. -/
def blockBits (block : List Run) : List Bool :=
  let stored := (block.flatMap Run.stored).toArray
  let order := order stored
  let alphabet := alphabet stored.toList
  let symbols := symbols (alphabet.length + 1) (places alphabet (lastBytes stored order))
  let width := (alphabet.length + 1).log2 + 1
  let tables := tableCount symbols.length
  let choices := (symbols.length + 49) / 50
  let table := bits 5 width ++ List.replicate (alphabet.length + 2) false
  bits 48 0x314159265359 ++ bits 32 (blockSum block) ++ [false] ++ bits 24 (order.idxOf 0) ++
    usedBits alphabet ++ bits 3 tables ++ bits 15 choices ++ List.replicate choices false ++
    (List.replicate tables table).flatten ++ symbols.flatMap (bits width)

/-- The checksum of all blocks: that of each is added after all others were turned by one bit. -/
def wholeSum (sums : List Nat) : Nat :=
  sums.foldl (fun whole sum => (whole * 2 % 0x100000000 + whole / 0x80000000) ^^^ sum) 0

/-- A packed file. -/
def pack (content : List UInt8) : List UInt8 :=
  let blocks := blocksFrom 0 [] (runs content)
  ofText "BZh9" ++ ofBits (blocks.flatMap blockBits ++ bits 48 0x177245385090 ++
    bits 32 (wholeSum (blocks.map blockSum)))

end Vouch.Bzip
