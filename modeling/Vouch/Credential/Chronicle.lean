import Vouch.Credential.Basic

namespace Vouch

namespace Credential

/-- The order in which credentials are taken in: older ones first, undated ones last, and by their
identifiers at the same time. -/
def notAfter (a b : Credential) : Bool :=
  match a.issuedAt, b.issuedAt with
  | some s, some t => s < t || (s = t && a.id ≤ b.id)
  | some _, none => true
  | none, some _ => false
  | none, none => a.id ≤ b.id

/-- Credentials in the order in which they are taken in. Those that the order does not tell apart
keep their places. -/
def chronicle (credentials : List Credential) : List Credential :=
  credentials.mergeSort notAfter

def key (c : Credential) : String × String × String := (c.issuer, c.subject, c.id)

end Credential

end Vouch
