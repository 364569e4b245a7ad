import Vouch.Address.Internet
import Vouch.Text.Quoted

namespace Vouch

/-- A text as the address that it may be: the kind of access that it names, and all that comes
after. -/
structure Address where
  scheme : Option String
  rest : List Char
  deriving DecidableEq

namespace Address

/-- The characters of the names of kinds of access. -/
def isSchemeChar (c : Char) : Bool := c.isAlphanum || c = '+' || c = '-' || c = '.'

/-- A name of a kind of access begins with a letter. -/
def isScheme (cs : List Char) : Bool := (cs.head?.any Char.isAlpha) && cs.all isSchemeChar

/-- Reads a text as an address. Blanks and control characters in front do not count, nor do tabs
and line ends in any place. -/
def ofText (text : String) : Address :=
  let cs := (text.toList.dropWhile (·.toNat ≤ 32)).filter (· ∉ ['\t', '\r', '\n'])
  let name := cs.takeWhile (· ≠ ':')
  if isScheme name ∧ name.length < cs.length then
    ⟨some (String.ofList (name.map Char.toLower)), cs.drop (name.length + 1)⟩
  else ⟨none, cs⟩

/-- What stands between two slashes and the next mark. -/
def hostPart (rest : List Char) : List Char :=
  match rest with
  | '/' :: '/' :: cs => cs.takeWhile (· ∉ ['/', '?', '#'])
  | _ => []

/-- What comes after two slashes and a host. It is taken to begin with a slash. -/
def pathPart (rest : List Char) : List Char :=
  match rest with
  | '/' :: '/' :: cs =>
    match cs.dropWhile (· ∉ ['/', '?', '#']) with
    | [] => []
    | c :: path => if c = '/' then c :: path else '/' :: c :: path
  | _ => rest

/-- Whether a text names a chain of kinds of access, which two colons hold together, and a host. -/
def isChained (text : String) : Bool :=
  let front := text.toList.takeWhile (· ≠ '/')
  let chain := String.ofList front.dropLast
  front.getLast? = some ':' && ['/', '/'].isPrefixOf (text.toList.drop front.length) &&
    isScheme (chain.toList.takeWhile (· ≠ ':')) &&
    (chain.splitOn "::").all fun name => name ≠ "" && name.toList.all isSchemeChar

end Address

/-- Why a text cannot be an address. -/
inductive AddressFault where
  | bracket
  | futureHost
  | bracketedNumbers
  | noHost (text : String)
  | lookalike (host : String)
  deriving DecidableEq

namespace AddressFault

def message : AddressFault → String
  | bracket => "Invalid IPv6 URL"
  | futureHost => "IPvFuture address is invalid"
  | bracketedNumbers => "An IPv4 address cannot be in brackets"
  | noHost text => Text.quoted text ++ " does not appear to be an IPv4 or IPv6 address"
  | lookalike host =>
    "netloc '" ++ host ++ "' contains invalid characters under NFKC normalization"

/-- The characters whose compatibility forms hold one of the marks that divide an address. -/
def lookalikes : List Char :=
  ['\u2047', '\u2048', '\u2049', '\u2100', '\u2101', '\u2105', '\u2106', '\u2a74', '\ufe13',
    '\ufe16', '\ufe55', '\ufe56', '\ufe5f', '\ufe6b', '\uff03', '\uff0f', '\uff1a', '\uff1f',
    '\uff20']

/-- What is wrong with a host in brackets. -/
def inBrackets? (host : List Char) : Option AddressFault :=
  let text := String.ofList host
  if host.head? = some 'v' then
    if Internet.isFutureHost host.tail then none else some futureHost
  else if Internet.isVersion4 text then some bracketedNumbers
  else if Internet.isVersion6 text then none
  else some (noHost text)

end AddressFault

/-- What is wrong with an address. Only the host of an address can be wrong. -/
def Address.fault? (a : Address) : Option AddressFault :=
  let host := hostPart a.rest
  let opened := '[' ∈ host
  let closed := ']' ∈ host
  let bracketed := ((host.dropWhile (· ≠ '[')).drop 1).takeWhile (· ≠ ']')
  if opened ≠ closed then some .bracket
  else (if opened then AddressFault.inBrackets? bracketed else none).or
    (if host.any (· ∈ AddressFault.lookalikes) then some (.lookalike (String.ofList host))
      else none)

end Vouch
