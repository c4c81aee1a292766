/-
  PgClient.Message.Violation

  The ways in which a server can break the protocol.
-/
import PgClient.Text.Integer
import PgClient.Text.Quoted

namespace PgClient

inductive Violation where
  | truncated (need available : Nat)
  | unterminatedString
  | unknownStatus (code : UInt8)
  | frameLength (length : Int32) (tag : UInt8)
  | unknownTag (tag : UInt8)
  | sslAnswer (answer : UInt8)
  | lateAuthentication
  | saslContinueBeforeStart
  | saslFinalBeforeStart
  | rowWidth (received described : Nat)
  | notDescribed
  deriving DecidableEq, Repr

def Violation.message : Violation → String
  | .truncated need available =>
    "message truncated: need " ++ need.repr ++ " bytes, have " ++ available.repr
  | .unterminatedString => "missing null terminator in string"
  | .unknownStatus code => "unknown transaction status " ++ Text.quotedByte code
  | .frameLength length tag =>
    "invalid length " ++ String.ofList (Integer.text length.toInt) ++ " for message " ++
      Text.quotedByte tag
  | .unknownTag tag => "unknown message type " ++ Text.quotedByte tag
  | .sslAnswer answer => "unexpected SSLRequest answer " ++ Text.quotedByte answer
  | .lateAuthentication => "authentication request outside startup"
  | .saslContinueBeforeStart => "SASL continue before SASL start"
  | .saslFinalBeforeStart => "SASL final before SASL start"
  | .rowWidth received described =>
    "DataRow has " ++ received.repr ++ " columns, row description has " ++ described.repr
  | .notDescribed => "Describe produced neither RowDescription nor NoData"

end PgClient
