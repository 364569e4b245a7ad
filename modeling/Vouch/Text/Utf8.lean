import Vouch.Text.Quoted

namespace Vouch.Utf8

/-- Why bytes are not a text. -/
inductive Flaw where
  | startByte
  | continuationByte
  | endOfData
  deriving DecidableEq

/-- The first place where bytes are not a text: `length` bytes from `start` on, the first of which
is given. -/
structure Undecodable where
  flaw : Flaw
  first : UInt8
  start : Nat
  length : Nat
  deriving DecidableEq

def Flaw.describe : Flaw → String
  | .startByte => "invalid start byte"
  | .continuationByte => "invalid continuation byte"
  | .endOfData => "unexpected end of data"

def Undecodable.message (u : Undecodable) : String :=
  let place :=
    if u.length = 1 then
      "byte 0x" ++ Text.hex 2 u.first.toNat ++ " in position " ++ toString u.start
    else
      "bytes in position " ++ toString u.start ++ "-" ++ toString (u.start + u.length - 1)
  "'utf-8' codec can't decode " ++ place ++ ": " ++ u.flaw.describe

/-- What a first byte calls for: the number of bytes after it, its own bits of the code point, and
the bounds for the byte after it. The bounds keep out overlong forms, surrogates and all that lies
beyond `U+10FFFF`. -/
structure Lead where
  count : Nat
  bits : Nat
  low : Nat
  high : Nat

def lead? (byte : Nat) : Option Lead :=
  if byte < 0x80 then some ⟨0, byte, 0, 0⟩
  else if byte < 0xc2 then none
  else if byte < 0xe0 then some ⟨1, byte - 0xc0, 0x80, 0xbf⟩
  else if byte = 0xe0 then some ⟨2, 0, 0xa0, 0xbf⟩
  else if byte = 0xed then some ⟨2, 0xd, 0x80, 0x9f⟩
  else if byte < 0xf0 then some ⟨2, byte - 0xe0, 0x80, 0xbf⟩
  else if byte = 0xf0 then some ⟨3, 0, 0x90, 0xbf⟩
  else if byte < 0xf4 then some ⟨3, byte - 0xf0, 0x80, 0xbf⟩
  else if byte = 0xf4 then some ⟨3, 4, 0x80, 0x8f⟩
  else none

/-- Collects the bytes after a first byte. If one of them is wrong or missing, says so and tells how
many were right. -/
def tail (count good value low high : Nat) (bytes : List UInt8) : Except (Flaw × Nat) Nat :=
  match count, bytes with
  | 0, _ => .ok value
  | _ + 1, [] => .error (.endOfData, good)
  | count + 1, byte :: rest =>
    if low ≤ byte.toNat ∧ byte.toNat ≤ high then
      tail count (good + 1) (value * 64 + (byte.toNat - 0x80)) 0x80 0xbf rest
    else .error (.continuationByte, good)

/-- Decodes bytes from a position on, after the characters that are given in reverse. -/
def decodeFrom (position : Nat) (before : List Char) : List UInt8 → Except Undecodable (List Char)
  | [] => .ok before.reverse
  | byte :: rest =>
    match lead? byte.toNat with
    | none => .error ⟨.startByte, byte, position, 1⟩
    | some lead =>
      match tail lead.count 0 lead.bits lead.low lead.high rest with
      | .error (flaw, good) => .error ⟨flaw, byte, position, good + 1⟩
      | .ok value =>
        decodeFrom (position + 1 + lead.count) (Char.ofNat value :: before) (rest.drop lead.count)
  termination_by bytes => bytes.length
  decreasing_by simp only [List.length_drop, List.length_cons]; omega

/-- The text that bytes stand for. -/
def decode (bytes : List UInt8) : Except Undecodable (List Char) :=
  decodeFrom 0 [] bytes

/-- The text that bytes stand for, with the replacement character wherever they stand for none. -/
def decodeAnyway : List UInt8 → List Char
  | [] => []
  | byte :: rest =>
    match lead? byte.toNat with
    | none => '\ufffd' :: decodeAnyway rest
    | some lead =>
      match tail lead.count 0 lead.bits lead.low lead.high rest with
      | .error (_, good) => '\ufffd' :: decodeAnyway (rest.drop good)
      | .ok value => Char.ofNat value :: decodeAnyway (rest.drop lead.count)
  termination_by bytes => bytes.length
  decreasing_by all_goals simp only [List.length_drop, List.length_cons]; omega

end Vouch.Utf8
