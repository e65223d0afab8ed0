import BoundSql.Error
import BoundSql.Json.Record
import BoundSql.Postgres.KeywordText
import BoundSql.Postgres.UrlText
import BoundSql.Text.Listing

/-!
# Connection options

What a caller says about a connection: a URL or a list of keywords and values, and single options,
which are applied after it.
-/

namespace BoundSql.Postgres

/-- What a caller says about a connection. -/
structure ConnectOptions where
  /-- A URL, or a list of keywords and values. -/
  url : Option String := none
  /-- The host of the server. -/
  host : Option String := none
  /-- The number under which the server listens. -/
  portNumber : Option Nat := none
  /-- The directory of the server's socket; it counts before the host. -/
  socket : Option String := none
  /-- The database. -/
  database : Option String := none
  /-- The user. -/
  username : Option String := none
  /-- The password. -/
  password : Option String := none
  /-- The encoding of texts that are sent, which is set once connected. -/
  charset : Option String := none
  /-- The name under which the application is known to the server. -/
  applicationName : Option String := none
  /-- Commands that are run once connected, in order. -/
  commands : List String := []
  deriving DecidableEq, Repr

/-- Read settings: a URL, or a list of keywords and values. -/
def Settings.ofText? (text : String) : Option Settings :=
  match UrlText.dropScheme? text.toList with
  | some rest => UrlText.ofRest? rest
  | none => KeywordText.ofText? text.toList

namespace ConnectOptions

/-- What stands for a secret in a text. -/
def redacted : String := "<redacted>"

/-- An option as it is shown. -/
def listedOption (show? : Option String) : String :=
  match show? with
  | some text => "Some(" ++ text ++ ")"
  | none => "None"

/-- A text as it is shown, if it is given. -/
def listedText (text : Option String) : String := listedOption (text.map Text.listed)

/-- The options as they are shown: without the URL and the password, which may hold secrets. -/
def listing (o : ConnectOptions) : String :=
  let secret (text : Option String) : String := listedText (text.map fun _ => redacted)
  "ConnectOptions \x7b " ++ ", ".intercalate [
    "url: " ++ secret o.url,
    "host: " ++ listedText o.host,
    "port: " ++ listedOption (o.portNumber.map toString),
    "socket: " ++ listedText o.socket,
    "database: " ++ listedText o.database,
    "username: " ++ listedText o.username,
    "password: " ++ secret o.password,
    "charset: " ++ listedText o.charset,
    "application_name: " ++ listedText o.applicationName,
    "commands: [" ++ ", ".intercalate (o.commands.map Text.listed) ++ "]"] ++ " \x7d"

/-- The settings of the URL. -/
def urlSettings (o : ConnectOptions) : Except Error Settings :=
  match o.url with
  | none => .ok {}
  | some url =>
    match Settings.ofText? url with
    | some settings => .ok settings
    | none => .error (.connection "invalid connection url: invalid connection string")

/-- Add the server of the options to the settings: the socket, or else the host, or else, if there
is none yet, this machine. -/
def withServer (o : ConnectOptions) (s : Settings) : Settings :=
  match o.socket, o.host with
  | some directory, _ => { s with hosts := s.hosts ++ [.unix directory] }
  | none, some host => s.addHost host
  | none, none => if s.hosts.isEmpty then s.addHost "localhost" else s

/-- The settings for a connection. -/
def settings (o : ConnectOptions) : Except Error Settings := do
  let s := o.withServer (← o.urlSettings)
  return { s with
    portNumbers := s.portNumbers ++ o.portNumber.toList
    database := o.database <|> s.database
    user := o.username <|> s.user
    password := o.password.map Text.utf8 <|> s.password
    applicationName := o.applicationName <|> s.applicationName }

/-- Read options. -/
def ofJson? (json : Json) : Option ConnectOptions := do
  let [url, host, portNumber, socket, database, username, password, charset, applicationName,
      commands] ←
    json.fields? ["url", "host", "port", "socket", "database", "username", "password", "charset",
      "application_name", "commands"] | none
  let text : Option Json → Option (Option String) :=
    Json.fieldOr? none (Json.optional? Json.string?)
  return {
    url := ← text url
    host := ← text host
    portNumber := ← Json.fieldOr? none (Json.optional? (Json.natBelow? 65536)) portNumber
    socket := ← text socket
    database := ← text database
    username := ← text username
    password := ← text password
    charset := ← text charset
    applicationName := ← text applicationName
    commands := ← Json.fieldOr? [] Json.strings? commands }

end ConnectOptions

end BoundSql.Postgres
