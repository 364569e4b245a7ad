import Vouch.Calendar.Reading

namespace Vouch

/-- What each part of a standing is worth. A hop away from the root is a cost. -/
structure Weights (α : Type) where
  incoming : α
  issuer : α
  reciprocal : α
  hop : α
  rootIssued : α

/-- The roles and labels of identities about which credentials say nothing. -/
structure Naming where
  defaultRole : String := "member"
  rootRole : String := "organization"
  labelLength : Int := 8

/-- Everything that can be set. -/
structure Settings where
  weights : Weights Float := ⟨1.0, 2.0, 3.0, 0.1, 2.0⟩
  naming : Naming := {}
  hops : Int := 2
  listed : Int := 10

/-- The beginning of a text, `length` characters long. A negative length counts from the end. -/
def leading (length : Int) (text : String) : String :=
  let cs := text.toList
  String.ofList (cs.take (if length < 0 then cs.length + length else length).toNat)

/-- The label of an identity without a name: the identifier itself, or its beginning and an
ellipsis if it is longer than that. -/
def shortLabel (length : Int) (id : String) : String :=
  if (id.length : Int) ≤ length then id else leading length id ++ "..."

end Vouch
