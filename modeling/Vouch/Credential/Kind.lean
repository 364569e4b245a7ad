namespace Vouch

/-- The closed set of relations that a credential can state between its issuer and its subject. -/
inductive Kind where
  | membership
  | steward
  | invitation
  | selfClaim
  | other
  deriving DecidableEq

namespace Kind

def name : Kind → String
  | membership => "membership"
  | steward => "steward"
  | invitation => "invitation"
  | selfClaim => "self_claim"
  | other => "other"

def all : List Kind := [membership, steward, invitation, selfClaim, other]

def ofName? (name : String) : Option Kind :=
  all.find? (·.name == name)

/-- The known schemas, by their identifiers and by the plain names of what they state. -/
def schemas : List (String × Kind) :=
  [("ematoumembershipschemav1", membership), ("eoperationsstewardschemav1", steward),
    ("einvitationschemav1", invitation), ("eselfclaimschemav1", selfClaim),
    ("membership", membership), ("steward", steward), ("role", steward),
    ("invitation", invitation), ("self_claim", selfClaim), ("self-claim", selfClaim)]

/-- The relation that a schema stands for. Case does not count. The known names consist of ASCII
letters to which no other capitals belong, so folding ASCII is enough. -/
def ofSchema (schema : String) : Kind :=
  ((schemas.find? (·.1 == schema.toLower)).map (·.2)).getD other

end Kind

end Vouch
