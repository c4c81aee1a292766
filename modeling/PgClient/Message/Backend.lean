/-
  PgClient.Message.Backend

  What the server sends, as values.
-/
import PgClient.ServerError
import PgClient.Value

namespace PgClient

/-- The transaction status that the server reports when it is ready. -/
inductive TransactionStatus where
  | idle
  | inTransaction
  | failed
  deriving DecidableEq, Repr

/-- What is said of a column under the extended result metadata layout. -/
structure ColumnOrigin where
  schema : String
  table : String
  column : String
  catalog : String
  nullable : Bool
  autoincrement : Bool
  readOnly : Bool
  searchable : Bool
  deriving DecidableEq, Repr

/-- The description of one result column. -/
structure FieldDescription where
  name : String
  tableOid : Int32
  columnAttr : Int16
  typeOid : Oid
  typeSize : Int16
  typeModifier : Int32
  format : Format
  origin : Option ColumnOrigin
  deriving DecidableEq, Repr

/-- What an authentication request asks for or reports. -/
inductive AuthRequest where
  | ok
  | cleartext
  | md5 (salt : UInt32)
  | sasl (mechanisms : List String)
  | saslContinue (data : Bytes)
  | saslFinal (data : Bytes)
  /-- A method that is never answered. -/
  | unsupported (code : Int32)
  deriving DecidableEq, Repr

inductive Backend where
  | notice (fields : ReportFields)
  | authentication (request : AuthRequest)
  | parameterStatus (name value : String)
  | backendKeyData (processId secretKey : Int32)
  | readyForQuery (status : TransactionStatus)
  | rowDescription (fields : List FieldDescription)
  | errorResponse (fields : ReportFields)
  | emptyQuery
  | dataRow (values : List (Option Bytes))
  | commandComplete (tag : String)
  | parseComplete
  | bindComplete
  | closeComplete
  | portalSuspended
  | noData
  | parameterDescription (types : List Oid)
  | notification (processId : Int32) (channel payload : String)
  | copyDone
  | copyData (data : Bytes)
  | copyIn (format : Format) (columns : List Format)
  | copyOut (format : Format) (columns : List Format)
  deriving DecidableEq, Repr

/-- The tag with which a message is sent. -/
def Backend.tag : Backend → Char
  | .notice .. => 'N'
  | .authentication .. => 'R'
  | .parameterStatus .. => 'S'
  | .backendKeyData .. => 'K'
  | .readyForQuery .. => 'Z'
  | .rowDescription .. => 'T'
  | .errorResponse .. => 'E'
  | .emptyQuery => 'I'
  | .dataRow .. => 'D'
  | .commandComplete .. => 'C'
  | .parseComplete => '1'
  | .bindComplete => '2'
  | .closeComplete => '3'
  | .portalSuspended => 's'
  | .noData => 'n'
  | .parameterDescription .. => 't'
  | .notification .. => 'A'
  | .copyDone => 'c'
  | .copyData .. => 'd'
  | .copyIn .. => 'G'
  | .copyOut .. => 'H'

end PgClient
