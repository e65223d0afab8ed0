import BoundSql.Postgres.Address
import BoundSql.Text.Percent

/-!
# Connection settings

Where the servers are and who connects. Servers can be named several times, so hosts and their
numbers are lists to which each setting adds; the other settings replace.
-/

namespace BoundSql.Postgres

/-- Where a server is. -/
inductive Host where
  /-- A name in the network. -/
  | tcp (name : String)
  /-- A directory that holds the server's socket. -/
  | unix (directory : String)
  deriving DecidableEq, Repr

/-- Everything a connection can be told. -/
structure Settings where
  /-- The servers, in the order in which they are tried. -/
  hosts : List Host := []
  /-- How many numeric addresses are given. -/
  addressCount : Nat := 0
  /-- The numbers under which the servers listen: one for each, or one for all. -/
  portNumbers : List Nat := []
  /-- The database. -/
  database : Option String := none
  /-- The user. -/
  user : Option String := none
  /-- The password. -/
  password : Option (List UInt8) := none
  /-- The name under which the application is known to the server. -/
  applicationName : Option String := none
  deriving DecidableEq, Repr

namespace Settings

/-- Add a host; a name that begins with a slash is a directory. -/
def addHost (name : String) (s : Settings) : Settings :=
  let host := if name.toList.head? = some '/' then Host.unix name else .tcp name
  { s with hosts := s.hosts ++ [host] }

/-- Add the number of a server. -/
def addPortNumber (n : Nat) (s : Settings) : Settings :=
  { s with portNumbers := s.portNumbers ++ [n] }

/-- The number of a server that names none. -/
def standardNumber : Nat := 5432

/-- Read the number of a server; the empty text stands for the standard one. -/
def readPortNumber? (text : List Char) : Option Nat :=
  if text = [] then some standardNumber
  else (Numeral.readUnsigned? text).filter (· < 65536)

/-- Whether a text is an integer within a range. -/
def isInteger (range : Numeral.IntRange) (text : List Char) : Bool :=
  ((Numeral.readInt? text).bind range.restrict?).isSome

/-- Whether a text is a natural number of so many bits. -/
def isNatural (bits : Nat) (text : List Char) : Bool :=
  match Numeral.readUnsigned? text with
  | some n => n < Numeral.pow2 bits
  | none => false

/-- Whether a setting is one of those that are checked and change nothing here. -/
def isPassive (key value : String) : Bool :=
  match key with
  | "options" => true
  | "sslmode" | "channel_binding" => ["disable", "prefer", "require"].contains value
  | "sslnegotiation" => ["postgres", "direct"].contains value
  | "target_session_attrs" => ["any", "read-write", "read-only"].contains value
  | "load_balance_hosts" => ["disable", "random"].contains value
  | "connect_timeout" | "tcp_user_timeout" | "keepalives_idle" | "keepalives_interval" =>
    isInteger (.signed 64) value.toList
  | "keepalives" => isNatural 64 value.toList
  | "keepalives_retries" => isNatural 32 value.toList
  | _ => false

/-- Apply a setting, if there is one of the name and its value is sound. -/
def set? (key value : String) (s : Settings) : Option Settings :=
  match key with
  | "user" => some { s with user := some value }
  | "password" => some { s with password := some (Text.utf8 value) }
  | "dbname" => some { s with database := some value }
  | "application_name" => some { s with applicationName := some value }
  | "host" =>
    some ((Text.splitAtEach ',' value.toList).foldl
      (fun s name => s.addHost (String.ofList name)) s)
  | "hostaddr" =>
    let addresses := Text.splitAtEach ',' value.toList
    if addresses.all Address.isAddress then
      some { s with addressCount := s.addressCount + addresses.length }
    else none
  | "port" =>
    (Text.splitAtEach ',' value.toList).foldlM
      (fun s text => (readPortNumber? text).map fun n => s.addPortNumber n) s
  | _ => if isPassive key value then some s else none

/-- Whether the lists of hosts, addresses and numbers fit together. -/
def isConsistent (s : Settings) : Bool :=
  (s.hosts.isEmpty || s.addressCount = 0 || s.hosts.length = s.addressCount) &&
    (s.portNumbers.length ≤ 1 ||
      s.portNumbers.length = if s.hosts.isEmpty then s.addressCount else s.hosts.length)

end Settings

end BoundSql.Postgres
