import TableSql.Uri.Host
import TableSql.Uri.Path

/-!
# Reading a URI

A URI is split into scheme, user, password, host, port and path the way web browsers do it. Query
and fragment are dropped.

## Implementation notes

A URI is read from the front in one go: each part takes its characters and hands on the rest. Parts
are kept as they would be written again, that is encoded and with dot segments resolved, so that a
URI put together from its parts is read to the same parts.

There is no base that a relative reference could be resolved against: a text without a scheme is
refused. A port is kept even where it is the default of a web scheme.

## Main definitions

* `Uri` — the parts
* `Uri.parse` — the URI of a text
-/

namespace TableSql

/-- The parts of a URI. User, password and path are percent-encoded. -/
structure Uri where
  scheme : String
  user : String
  password : Option String
  host : Option String
  port : Option Nat
  path : String
deriving DecidableEq, Repr

namespace Uri

/-! ### The text -/

/-- A control character or a space. -/
def isControlOrSpace (c : Char) : Bool :=
  c.toNat ≤ 0x20

/-- A tab or a line break, which a URI may hold anywhere and which means nothing. -/
def isIgnored (c : Char) : Bool :=
  c = '\t' || c = '\n' || c = '\x0d'

/-- The characters that count: no control characters or spaces around them, no tabs and line
breaks between them. -/
def significant (text : String) : List Char :=
  let front := text.toList.dropWhile isControlOrSpace
  ((front.reverse.dropWhile isControlOrSpace).reverse).filter (!isIgnored ·)

/-! ### Scheme -/

/-- A character of a scheme after its first. -/
def isSchemeChar (c : Char) : Bool :=
  c.isAlphanum || c = '+' || c = '-' || c = '.'

/-- The scheme in lower case, and what follows its colon. -/
def scheme? (cs : List Char) : Option (String × List Char) :=
  match cs, cs.dropWhile isSchemeChar with
  | c :: _, ':' :: rest =>
    if c.isAlpha then
      some (String.ofList ((cs.takeWhile isSchemeChar).map Char.toLower), rest)
    else none
  | _, _ => none

/-! ### Authority -/

/-- A character that ends the authority. -/
def endsAuthority (c : Char) : Bool :=
  c = '/' || c = '?' || c = '#'

/-- The text before the last `c`, and the text after it; none without a `c`. -/
def splitAtLast? (c : Char) (cs : List Char) : Option (List Char × List Char) :=
  let reversed := cs.reverse
  match reversed.dropWhile (· != c) with
  | [] => none
  | _ :: before => some (before.reverse, (reversed.takeWhile (· != c)).reverse)

/-- User and password. -/
structure Credentials where
  user : String
  password : Option String
deriving DecidableEq, Repr

/-- No user and no password. -/
def Credentials.empty : Credentials := ⟨"", none⟩

/-- A user, and after the first colon a password; an empty one counts as none. -/
def Credentials.ofText (cs : List Char) : Credentials :=
  let user := String.ofList (percentEncode isUserSafe (cs.takeWhile (· != ':')))
  match cs.dropWhile (· != ':') with
  | [] => ⟨user, none⟩
  | _ :: password =>
    if password = [] then ⟨user, none⟩
    else ⟨user, some (String.ofList (percentEncode isUserSafe password))⟩

/-- User and password in front of the last `@` of the authority, and the text from the host on.
An `@` with nothing before it needs something after it. -/
def credentials (cs : List Char) : Except Fault (Credentials × List Char) :=
  let authority := cs.takeWhile (!endsAuthority ·)
  let rest := cs.dropWhile (!endsAuthority ·)
  match splitAtLast? '@' authority with
  | none => .ok (.empty, cs)
  | some (before, host) =>
    if before = [] then
      if host = [] ∧ rest ≠ [] then .error .emptyHost else .ok (.empty, host ++ rest)
    else .ok (.ofText before, host ++ rest)

/-- The characters of a host, up to a colon outside brackets or the end of the authority, and what
follows them. -/
def splitHost : (inBrackets : Bool) → List Char → List Char × List Char
  | _, [] => ([], [])
  | inBrackets, c :: rest =>
    if endsAuthority c ∨ (c = ':' ∧ inBrackets = false) then ([], c :: rest)
    else
      let inside := if c = '[' then true else if c = ']' then false else inBrackets
      let (host, after) := splitHost inside rest
      (c :: host, after)

/-- A port number after its colon, none without digits, and what follows it. -/
def readPort (cs : List Char) : Except Fault (Option Nat × List Char) :=
  let digits := cs.takeWhile Char.isDigit
  let rest := cs.dropWhile Char.isDigit
  let n := digits.foldl (fun n c => n * 10 + (c.toNat - '0'.toNat)) 0
  if 65535 < n then .error .invalidPort
  else match rest with
    | [] => .ok (if digits = [] then none else some n, rest)
    | c :: _ =>
      if endsAuthority c ∨ c = '\\' then .ok (if digits = [] then none else some n, rest)
      else .error .invalidPort

/-- Who is addressed where: what stands between two slashes and the path. -/
structure Authority where
  credentials : Credentials
  host : Option String
  port : Option Nat
deriving DecidableEq, Repr

/-- The authority, and the text from the path on. A host is asked for in a web URI and where there
is a user, a password or a port. -/
def authority (kind : SchemeKind) (cs : List Char) : Except Fault (Authority × List Char) := do
  let (user, afterUser) ← credentials cs
  let (hostChars, afterHost) := splitHost false afterUser
  let name ← readHost kind hostChars
  let (number, rest) ← match afterHost with
    | ':' :: digits => if hostChars = [] then .error .emptyHost else readPort digits
    | _ => .ok (none, afterHost)
  if hostChars = [] ∧ (kind = .web ∨ user ≠ .empty) then .error .emptyHost
  else .ok (⟨user, if hostChars = [] then none else some name, number⟩, rest)

/-! ### Path -/

/-- A character that starts the query or the fragment. -/
def endsPath (c : Char) : Bool :=
  c = '?' || c = '#'

/-- The path after an authority. A path that is there starts with a slash. -/
def pathText (cs : List Char) : String :=
  match cs with
  | [] => ""
  | '/' :: rest => String.ofList (Path.ofText (rest.takeWhile (!endsPath ·))).chars
  | cs =>
    match cs.takeWhile (!endsPath ·) with
    | [] => ""
    | path => String.ofList (Path.ofText path).chars

/-- A path of a URI that has no slash after its scheme. -/
def opaquePathText (cs : List Char) : String :=
  String.ofList (percentEncode isOpaqueSafe (cs.takeWhile (!endsPath ·)))

/-! ### The whole -/

/-- A URI without an authority. -/
def withoutAuthority (scheme path : String) : Uri :=
  ⟨scheme, "", none, none, none, path⟩

/-- A URI of a scheme and the text after two slashes. -/
def afterSlashes (scheme : String) (kind : SchemeKind) (cs : List Char) : Except Fault Uri := do
  let (a, rest) ← authority kind cs
  return ⟨scheme, a.credentials.user, a.credentials.password, a.host, a.port, pathText rest⟩

/-- A `file` URI from the text after its colon. What looks like a drive letter is no host, and this
machine's own name is left out. -/
def ofFileText (scheme : String) (cs : List Char) : Except Fault Uri :=
  match cs with
  | '/' :: '/' :: after =>
    let host := after.takeWhile (!endsAuthority ·)
    let path := pathText (after.dropWhile (!endsAuthority ·))
    if host = [] then .ok (withoutAuthority scheme path)
    else if isDrive host then .ok (withoutAuthority scheme (pathText after))
    else match readHost .file host with
      | .ok name =>
        .ok ⟨scheme, "", none, if name = "localhost" then none else some name, none, path⟩
      | .error fault => .error fault
  | _ => .ok (withoutAuthority scheme (pathText cs))

/-- The slashes of a text that may also be written as backslashes. -/
def withSlashes (cs : List Char) : List Char :=
  cs.map fun c => if c = '\\' then '/' else c

/-- The URI of a text. -/
def parse (text : String) : Except Fault Uri :=
  match scheme? (significant text) with
  | none => .error .noScheme
  | some (scheme, rest) =>
    match SchemeKind.ofName scheme with
    | .file => ofFileText scheme (withSlashes rest)
    | .web => afterSlashes scheme .web ((withSlashes rest).dropWhile (· == '/'))
    | .other =>
      match rest with
      | '/' :: '/' :: after => afterSlashes scheme .other after
      | '/' :: _ => .ok (withoutAuthority scheme (pathText rest))
      | _ => .ok (withoutAuthority scheme (opaquePathText rest))

end Uri

end TableSql
