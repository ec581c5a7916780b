import GraphBag.Script

/-
  Settings of a client: how to connect, and how deep commands
  may be nested.

  Key definitions include:
    * `Credentials`
    * `Config`
    * `Config.parse`
    * `Config.shown`
-/

namespace GraphBag

------------------------------------------------------------
-- Credentials
------------------------------------------------------------

/- How to connect to an engine. -/
structure Credentials where
  hostname : String := "localhost"
  port : UInt16 := 2424
  username : String := "root"
  password : String := "root"
  database : String := ""
deriving DecidableEq, Repr

namespace Credentials

/- The credentials for a host. -/
def withHostname (c : Credentials) (hostname : String) : Credentials :=
  { c with hostname := hostname }

/- The credentials for a port. -/
def withPort (c : Credentials) (port : UInt16) : Credentials :=
  { c with port := port }

/- The credentials of a user. -/
def withUser
    (c : Credentials)
    (username password : String) : Credentials :=
  { c with username := username, password := password }

/- The credentials for a database. -/
def withDatabase (c : Credentials) (database : String) : Credentials :=
  { c with database := database }

/- The host and the port. -/
def address (c : Credentials) : String :=
  c.hostname ++ ":" ++ toString c.port.toNat

/- The JSON form of credentials. -/
def toJson (c : Credentials) : Json :=
  .object
    [("hostname", .string c.hostname),
     ("port", .int c.port.toNat),
     ("username", .string c.username),
     ("password", .string c.password),
     ("database", .string c.database)]

/- Credentials as they are shown, without the password. -/
def shown (c : Credentials) : String :=
  "Credentials \x7b hostname: " ++ Text.shown c.hostname ++
    ", port: " ++ toString c.port.toNat ++
    ", username: " ++ Text.shown c.username ++
    ", password: \"***\", database: " ++ Text.shown c.database ++
    " \x7d"

/- Sets a field of credentials. -/
def set
    (name : String)
    (room : Nat)
    (node : Node)
    (c : Credentials) :
    Except ReadError Credentials :=
  if name = "hostname" then do
    .ok { c with hostname := ← Reader.string room node }
  else if name = "port" then do
    let port ← Reader.natural UInt16.size "u16" room node
    .ok { c with port := UInt16.ofNat port }
  else if name = "username" then do
    .ok { c with username := ← Reader.string room node }
  else if name = "password" then do
    .ok { c with password := ← Reader.string room node }
  else do
    .ok { c with database := ← Reader.string room node }

/- How credentials are read. -/
def schema : Schema Credentials where
  title := "struct Credentials"
  names := ["hostname", "port", "username", "password", "database"]
  required := []
  openEnded := true
  initial := {}
  set := set

/- Reads credentials from a JSON text. -/
def parse (text : String) : Except ReadError Credentials :=
  Reader.run schema.record text

end Credentials

------------------------------------------------------------
-- Configuration
------------------------------------------------------------

/- The settings of a client. -/
structure Config where
  credentials : Credentials := {}
  maxDepth : Nat := defaultMaxDepth
deriving DecidableEq, Repr

namespace Config

/- The settings with other credentials. -/
def withCredentials (c : Config) (credentials : Credentials) : Config :=
  { c with credentials := credentials }

/- The settings with another bound on nested commands. -/
def withMaxDepth (c : Config) (maxDepth : Nat) : Config :=
  { c with maxDepth := maxDepth }

/- The JSON form of settings. -/
def toJson (c : Config) : Json :=
  .object
    [("credentials", c.credentials.toJson),
     ("max_depth", .int c.maxDepth)]

/- Settings as they are shown, without the password. -/
def shown (c : Config) : String :=
  "Config \x7b credentials: " ++ c.credentials.shown ++
    ", max_depth: " ++ toString c.maxDepth ++ " \x7d"

/- Sets a field of settings. -/
def set
    (name : String)
    (room : Nat)
    (node : Node)
    (c : Config) :
    Except ReadError Config :=
  if name = "credentials" then do
    .ok { c with
      credentials := ← Credentials.schema.record room node }
  else do
    let maxDepth ← Reader.natural UInt64.size "usize" room node
    .ok { c with maxDepth := maxDepth }

/- How settings are read. -/
def schema : Schema Config where
  title := "struct Config"
  names := ["credentials", "max_depth"]
  required := []
  openEnded := true
  initial := {}
  set := set

/- Reads settings from a JSON text. -/
def parse (text : String) : Except ReadError Config :=
  Reader.run schema.record text

end Config

end GraphBag
