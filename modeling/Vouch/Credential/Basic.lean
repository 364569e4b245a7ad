import Vouch.Calendar.Reading
import Vouch.Credential.Kind

namespace Vouch

/-- What a credential says beyond its issuer and its subject, by the relation that it states. -/
inductive Content where
  | membership (community status : Option String) (permissions : List String)
  | steward (permissions : List String)
  | invitation (message : Option String)
  | selfClaim
  | other (schema : String)
  deriving DecidableEq

def Content.kind : Content → Kind
  | .membership .. => .membership
  | .steward .. => .steward
  | .invitation .. => .invitation
  | .selfClaim => .selfClaim
  | .other .. => .other

/-- A statement of an issuer about a subject. Both are known, the rest may be missing. -/
structure Credential where
  id : String
  issuer : String
  subject : String
  issuedAt : Option Reading
  role : Option String
  displayName : Option String
  content : Content
  deriving DecidableEq

namespace Credential

def kind (c : Credential) : Kind := c.content.kind

/-- The verification that a membership carries. -/
def status? (c : Credential) : Option String :=
  match c.content with
  | .membership _ status _ => status
  | _ => none

end Credential

end Vouch
