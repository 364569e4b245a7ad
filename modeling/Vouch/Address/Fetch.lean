import Vouch.Address
import Vouch.Files
import Vouch.Text.Integer
import Vouch.Text.Percent

namespace Vouch

/-- A request to fetch what is at an address. The host is known if the address has a place for
it. -/
structure Fetch where
  scheme : String
  host : Option String
  path : String
  deriving DecidableEq

/-- Why nothing can be fetched. -/
inductive FetchFault where
  | unknownScheme (scheme : String)
  | noHost
  | noFileHost
  | foreignFile
  | foreignHost
  | refused
  | unresolved
  | port (text : String)
  | control (text : String) (mark : Char)
  | beyondAscii (place : Nat) (cs : List Char)
  | nullInPath
  | blocked (path : String) (obstacle : Obstacle)
  deriving DecidableEq

namespace FetchFault

def message : FetchFault → String
  | nullInPath => nullComplaint
  | port text => "nonnumeric port: '" ++ text ++ "'"
  | control text mark =>
    "URL can't contain control characters. " ++ Text.quoted text ++ " (found at least " ++
      Text.quoted mark.toString ++ ")"
  | beyondAscii place [c] => notAscii ("character '" ++ numbered c ++ "' in position " ++
      toString place)
  | beyondAscii place cs => notAscii ("characters in position " ++ toString place ++ "-" ++
      toString (place + cs.length - 1))
  | unknownScheme scheme => wrapped ("unknown url type: " ++ scheme)
  | noHost => wrapped "no host given"
  | noFileHost => wrapped "ftp error: no host given"
  | foreignFile => wrapped "file:// scheme is supported only on localhost"
  | foreignHost => wrapped "file not on local host"
  | refused => wrapped "[Errno 111] Connection refused"
  | unresolved => wrapped "[Errno -3] Temporary failure in name resolution"
  | blocked path obstacle => wrapped (obstacle.message path)
where
  wrapped (reason : String) : String := "<urlopen error " ++ reason ++ ">"
  notAscii (what : String) : String :=
    "'ascii' codec can't encode " ++ what ++ ": ordinal not in range(128)"
  numbered (c : Char) : String :=
    if c.toNat < 0x100 then "\\x" ++ Text.hex 2 c.toNat
    else if c.toNat < 0x10000 then "\\u" ++ Text.hex 4 c.toNat
    else "\\U" ++ Text.hex 8 c.toNat

end FetchFault

namespace Fetch

/-- The kinds of access that make a text an address. -/
def knownSchemes : List String :=
  ["ftp", "http", "gopher", "nntp", "imap", "wais", "file", "https", "shttp", "mms", "prospero",
    "rtsp", "rtsps", "rtspu", "sftp", "svn", "svn+ssh", "ws", "wss", "telnet", "snews", "rsync",
    "nfs", "git", "git+ssh", "hdl", "sip", "sips", "tel"]

/-- A text without its last number sign and all after it. -/
def withoutMark (cs : List Char) : List Char :=
  if '#' ∈ cs then ((cs.reverse.dropWhile (· ≠ '#')).drop 1).reverse else cs

/-- The request that a text makes. The kind of access is all that comes before the first colon. -/
def ofText (text : String) : Fetch :=
  let cs := withoutMark (Text.trim text.toList)
  let scheme := cs.takeWhile (· ≠ ':')
  let rest := cs.drop (scheme.length + 1)
  let host := match rest with
    | '/' :: '/' :: _ => some (String.ofList (Text.unescape (Address.hostPart rest)))
    | _ => none
  ⟨String.ofList (scheme.map Char.toLower), host, String.ofList (Address.pathPart rest)⟩

/-- The path of the file that an address leads to. -/
def localPath (f : Fetch) : String := String.ofList (Text.unescape f.path.toList)

/-- The numbers of this computer for itself. -/
def ownNumbers : String := "127.0.0.1"

/-- Whether a host is this computer. -/
def isHome (host : String) : Bool :=
  host.toList.map Char.toLower = "localhost".toList || host = ownNumbers

/-- The name of a host, and the digits of the port after it. -/
def nameAndPort (host : String) : String × String :=
  let back := host.toList.reverse
  let port := back.takeWhile Char.isDigit
  match back.drop port.length with
  | ':' :: name => (String.ofList name.reverse, String.ofList port.reverse)
  | _ => (host, "")

/-- Whether the files of a host are those of this computer, which has no ports for files. -/
def isLocal (host : String) : Bool :=
  let (name, port) := nameAndPort host
  name = "" || (port = "" && isHome name)

/-- Why a file cannot be fetched. -/
def fileFault? (look : String → FileState) (f : Fetch) : Option FetchFault :=
  let host := f.host.getD ""
  let path := f.path.toList
  let doubled := path.take 2 = ['/', '/'] ∧ (path.drop 2).head? ≠ some '/'
  let away := if isLocal host then none else some FetchFault.foreignHost
  if doubled ∧ host ≠ "" ∧ host ≠ "localhost" then
    if host = ownNumbers then some (.unknownScheme f.scheme) else some .foreignFile
  else if holdsNull f.localPath then some .nullInPath
  else if f.localPath = "" then some (.blocked "" .absent)
  else
    match look f.localPath with
    | .blocked .isDirectory => away.or (some (.blocked f.localPath .isDirectory))
    | .blocked o => some (.blocked f.localPath o)
    | _ => away

/-- Why another computer does not answer. Names of other computers are not known, and nothing
answers on this one or at any number. -/
def networkFault (host : String) : FetchFault :=
  if isHome host || Internet.isVersion4 host || Internet.isVersion6 host then .refused
  else .unresolved

/-- The first character that must not stand in a request, as a fault of the text that it is in. -/
def controlFault? (text : String) : Option FetchFault :=
  (text.toList.find? fun c => c.toNat ≤ 32 || c.toNat = 127).map (.control text)

/-- The first characters beyond ASCII in the line of a request. -/
def asciiFault? (line : String) : Option FetchFault :=
  let plain := line.toList.takeWhile (·.toNat < 128)
  match (line.toList.drop plain.length).takeWhile (128 ≤ ·.toNat) with
  | [] => none
  | cs => some (.beyondAscii plain.length cs)

/-- The port after a host, which may be in brackets. -/
def portOf? (host : String) : Option String :=
  let port := host.toList.reverse.takeWhile (· ≠ ':')
  if ']' ∈ port ∨ port.length = host.length then none else some (String.ofList port.reverse)

/-- The name of a host without its port and its brackets. -/
def bareHost (host : String) : String :=
  let length := ((portOf? host).map (·.length + 1)).getD 0
  let cs := host.toList.take (host.length - length)
  String.ofList (if cs.head? = some '[' ∧ cs.getLast? = some ']' then cs.tail.dropLast else cs)

/-- Why a page cannot be fetched. Everything about the request is looked at before it is sent. -/
def webFault (host path : String) : FetchFault :=
  let path := if path = "" then "/" else path
  let port := (portOf? host).getD ""
  if host = "" then .noHost
  else if port ≠ "" ∧ (Text.integer? port).isNone then .port port
  else
    (((controlFault? (bareHost host)).or (controlFault? path)).or
      (asciiFault? ("GET " ++ path))).getD (networkFault (bareHost host))

/-- Why nothing can be fetched. -/
def fault? (look : String → FileState) (f : Fetch) : Option FetchFault :=
  let host := f.host.getD ""
  if f.scheme = "file" then f.fileFault? look
  else if f.scheme = "http" ∨ f.scheme = "https" then
    some (webFault host f.path)
  else if f.scheme = "ftp" then
    some (if host = "" then .noFileHost else networkFault (nameAndPort host).1)
  else some (.unknownScheme f.scheme)

end Fetch

end Vouch
