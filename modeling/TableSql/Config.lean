import TableSql.Error
import TableSql.Json.Decode
import TableSql.Json.Printer

/-!
# Session configuration

Where a session connects to and as whom: read from a connection URI or from JSON text, and written
back as either.

## The parser as a parameter

`SessionConfig.ofUriBy` is told how a URI is taken apart, and `SessionConfig.ofUri` hands it
`Uri.parse`. What settings owe to the parser and what they owe to this module is kept apart that
way: results about connection URIs hold for every parser with a few stated properties.

## Parts as they are written

The parts of a URI are taken over as the parser gives them, percent-encoding included, while JSON
text and `SessionConfig.withPassword` give theirs as they are meant. `SessionConfig.display` writes
the parts without encoding them.

## Main definitions

* `SessionConfig` — the settings, each with a default
* `SessionConfig.ofUriBy`, `SessionConfig.ofUri` — the settings of a connection URI, for any parser
  of URIs and for the one that is used
* `SessionConfig.ofJson?`, `SessionConfig.jsonText` — settings as JSON text
* `SessionConfig.display` — the URI of the settings without the password
* `ConnectOptions` — what the connection is opened with
-/

namespace TableSql

/-- The settings of a session. -/
structure SessionConfig where
  host : String := "localhost"
  port : Nat := 3306
  user : String := "root"
  password : Option String := none
  /-- The schema that is selected when the session opens. -/
  schema : Option String := none
deriving DecidableEq, Repr

/-- What a connection is opened with. -/
structure ConnectOptions where
  host : String
  port : Nat
  user : String
  password : Option String
  database : Option String
deriving DecidableEq, Repr

namespace SessionConfig

instance : Inhabited SessionConfig := ⟨{}⟩

/-- The settings with another schema. -/
def withSchema (c : SessionConfig) (schema : String) : SessionConfig :=
  { c with schema := some schema }

/-- The settings with another password. -/
def withPassword (c : SessionConfig) (password : String) : SessionConfig :=
  { c with password := some password }

/-- The settings as the connection takes them. -/
def connectOptions (c : SessionConfig) : ConnectOptions where
  host := c.host
  port := c.port
  user := c.user
  password := c.password
  database := c.schema

/-- A connection URI that leads to the same session, but for the password. -/
def display (c : SessionConfig) : String :=
  let schema := match c.schema with
    | some schema => "/" ++ schema
    | none => ""
  "mysql://" ++ c.user ++ "@" ++ c.host ++ ":" ++ decimal c.port ++ schema

/-! ### Connection URIs -/

/-- The schema that a path names: all of it after its leading slashes. -/
def schemaOfPath (path : String) : Option String :=
  match path.toList.dropWhile (· == '/') with
  | [] => none
  | cs => some (String.ofList cs)

/-- The settings of the parts of a URI. What the URI leaves out keeps its default. -/
def ofParts (u : Uri) : SessionConfig where
  host := u.host.getD ({} : SessionConfig).host
  port := u.port.getD ({} : SessionConfig).port
  user := if u.user = "" then ({} : SessionConfig).user else u.user
  password := u.password
  schema := schemaOfPath u.path

/-- The settings of a connection URI, as a parser of URIs takes it apart. -/
def ofUriBy (parse : String → Except Uri.Fault Uri) (uri : String) : Except Error SessionConfig :=
  match parse uri with
  | .error fault => .error (.config (.invalidUri uri fault))
  | .ok u =>
    if u.scheme = "mysql" ∨ u.scheme = "mysqlx" then .ok (ofParts u)
    else .error (.config (.unsupportedScheme u.scheme))

/-- The settings of a connection URI. -/
def ofUri : String → Except Error SessionConfig :=
  ofUriBy Uri.parse

/-! ### JSON text -/

/-- A text or `null`. -/
def optionalTextChars : Option String → List Char
  | some s => Json.stringChars s
  | none => ['n', 'u', 'l', 'l']

/-- The settings as a JSON object, always with all members and in this order. -/
def jsonText (c : SessionConfig) : String :=
  let member (name : String) (text : List Char) := Json.stringChars name ++ ':' :: text
  String.ofList <|
    '\x7b' :: member "host" (Json.stringChars c.host) ++
    ',' :: member "port" (Json.integerChars c.port) ++
    ',' :: member "user" (Json.stringChars c.user) ++
    ',' :: member "password" (optionalTextChars c.password) ++
    ',' :: member "schema" (optionalTextChars c.schema) ++ ['\x7d']

/-- A text or `null`. -/
def optionalText? : Json.Node → Option (Option String)
  | .null => some none
  | node => node.text?.map some

/-- The names of the settings, in order. -/
def memberNames : List String := ["host", "port", "user", "password", "schema"]

/-- The setting of a name, or its default where it has none. -/
def memberOr {α : Type} (read : Json.Node → Option α) (default : α) (name : String)
    (members : List (String × Json.Node)) : Option α :=
  match Members.get? name members with
  | some node => read node
  | none => some default

/-- The settings of named members. -/
def ofMembers? (members : List (String × Json.Node)) : Option SessionConfig := do
  let c : SessionConfig := {}
  return {
    host := ← memberOr Json.Node.text? c.host "host" members
    port := (← memberOr (Json.Node.integerIn? 0 65535) c.port "port" members).toNat
    user := ← memberOr Json.Node.text? c.user "user" members
    password := ← memberOr optionalText? c.password "password" members
    schema := ← memberOr optionalText? c.schema "schema" members }

/-- The settings of JSON text: an object of members in any order, where others are passed over, or
a list of the settings in order, as many as there are. -/
def ofJson? (text : String) : Option SessionConfig :=
  match Json.Node.parse? text with
  | some (.object members) => (Json.Node.recordMembers? memberNames members).bind ofMembers?
  | some (.array elements) =>
    if elements.length ≤ memberNames.length then ofMembers? (memberNames.zip elements) else none
  | _ => none

end SessionConfig

end TableSql
