import Vouch.Credential.Decode

namespace Vouch

/-- The items of a store taken apart: the credentials among them, and what is wrong with the
others. -/
structure Sifted where
  credentials : List Credential
  malformed : List Malformed

/-- Decodes all items. Malformed ones are put aside, and the first one that interrupts reading ends
it all. -/
def sift : List Item → Except Interruption Sifted
  | [] => .ok ⟨[], []⟩
  | item :: items =>
    match item.decode with
    | .error (.interrupted cause) => .error cause
    | .error (.malformed cause) =>
      (sift items).map fun s => { s with malformed := cause :: s.malformed }
    | .ok c => (sift items).map fun s => { s with credentials := c :: s.credentials }

end Vouch
