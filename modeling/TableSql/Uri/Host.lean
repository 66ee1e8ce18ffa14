import TableSql.Uri.Address
import TableSql.Uri.Domain
import TableSql.Uri.DottedAddress
import TableSql.Uri.Percent

/-!
# Hosts

What stands for a host in a URI. An address between brackets is the same in every scheme. Web
schemes and `file` know domain names and numeric addresses; for other schemes a host is a text.

## Implementation notes

Schemes fall into three kinds, and everything that depends on the scheme depends on its kind alone.
A host is kept as text in the form in which it is written again, not as a domain or an address, as
nothing but its text is asked for once it has been read.

## Main definitions

* `Uri.Fault` — what keeps a text from being a URI
* `Uri.SchemeKind` — the ways to read a URI
* `Uri.readHost` — the text of a host as a URI of a scheme has it
-/

namespace TableSql.Uri

/-! ### Faults -/

/-- What keeps a text from being a URI. -/
inductive Fault where
  | noScheme
  | emptyHost
  | invalidPort
  | invalidAddress
  | invalidDottedAddress
  | invalidDomain
  | invalidHostCharacter
deriving DecidableEq, Repr

/-- What a message says of the fault. -/
def Fault.message : Fault → String
  | .noScheme => "relative URL without a base"
  | .emptyHost => "empty host"
  | .invalidPort => "invalid port number"
  | .invalidAddress => "invalid IPv6 address"
  | .invalidDottedAddress => "invalid IPv4 address"
  | .invalidDomain => "invalid international domain name"
  | .invalidHostCharacter => "invalid domain character"

/-! ### Schemes -/

/-- How the URIs of a scheme are read. -/
inductive SchemeKind where
  /-- There always is a host, which is a domain name or an address. -/
  | web
  /-- There may be a host, which is a domain name or an address, but never a port. -/
  | file
  /-- There may be a host, which is any text or an address. -/
  | other
deriving DecidableEq, Repr

/-- The kind of a scheme. -/
def SchemeKind.ofName (scheme : String) : SchemeKind :=
  if scheme = "file" then .file
  else if ["http", "https", "ws", "wss", "ftp"].contains scheme then .web
  else .other

/-! ### Hosts -/

/-- A character that no host holds. -/
def isForbiddenInHost (c : Char) : Bool :=
  ['\x00', '\t', '\n', '\x0d', ' ', '#', '/', ':', '<', '>', '?', '@', '[', '\\', ']', '^',
    '|'].contains c

/-- The host of a text. -/
def readText (cs : List Char) : Except Fault (List Char) :=
  if cs.any isForbiddenInHost then .error .invalidHostCharacter
  else .ok (percentEncode isOpaqueSafe cs)

/-- The host of a domain name, or of an address without brackets. -/
def readDomain (cs : List Char) : Except Fault (List Char) :=
  match Domain.ofText? cs with
  | none => .error .invalidDomain
  | some [] => .error .emptyHost
  | some name =>
    if DottedAddress.endsInNumber name then
      match DottedAddress.parse? name with
      | some address => .ok (DottedAddress.chars address)
      | none => .error .invalidDottedAddress
    else .ok name

/-- The host of an address after its opening bracket. -/
def readBracketed (cs : List Char) : Except Fault (List Char) :=
  if cs.getLast? = some ']' then
    match Address.parse? cs.dropLast with
    | some address => .ok ('[' :: (address.chars ++ [']']))
    | none => .error .invalidAddress
  else .error .invalidAddress

/-- A host as a URI has it: an address in brackets, or what the scheme takes for a name. -/
def readHost (kind : SchemeKind) (cs : List Char) : Except Fault String :=
  let host := match cs with
    | '[' :: rest => readBracketed rest
    | cs =>
      match kind with
      | .other => readText cs
      | .web => readDomain cs
      | .file => readDomain cs
  host.map String.ofList

end TableSql.Uri
