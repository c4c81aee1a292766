/-
  PgClient.Config.Basic

  The configuration of a connection, its defaults, and the parameters that the
  startup packet carries.
-/
import PgClient.Placeholder.Style
import PgClient.Text.Integer

namespace PgClient

/-- A span of time. -/
structure Duration where
  secs : UInt64
  nanos : UInt32
  deriving DecidableEq, Repr

structure Config where
  host : String := "localhost"
  port : UInt16 := 5439
  database : String := "dev"
  user : String := "awsuser"
  password : Option String := none
  applicationName : Option String := some "redshift-wire"
  /-- How many prepared statements are kept; with none, every statement is unnamed. -/
  maxPreparedStatements : UInt64 := 1000
  style : Placeholder.Style := .format
  /-- Without it, the first statement outside a transaction opens one. -/
  autocommit : Bool := false
  timeout : Option Duration := none
  /-- The layout version asked of the server. -/
  protocolVersion : Int32 := 2
  /-- The name under which the source of the password is registered. -/
  credentialProvider : String := "password"
  /-- Further startup parameters. -/
  options : List (String × String) := []
  deriving DecidableEq, Repr

namespace Config

/-- What can be wrong with a connection URL. -/
inductive Fault where
  | scheme
  | port (text : String)
  | value (key text : String)
  | style (f : Placeholder.Fault)
  deriving DecidableEq, Repr

def Fault.message : Fault → String
  | .scheme => "invalid URL scheme"
  | .port text => "invalid port: " ++ text
  | .value key text => "invalid value " ++ Text.quoted text ++ " for " ++ key
  | .style f => f.message

/-- The parameters of the startup packet, in order. -/
def startupParams (c : Config) : List (String × String) :=
  [("user", c.user), ("database", c.database)] ++
    (c.applicationName.map fun name => ("application_name", name)).toList ++
    ("client_protocol_version", String.ofList (Integer.text c.protocolVersion.toInt)) :: c.options

end Config

end PgClient
