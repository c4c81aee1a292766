/-
  PgClient.Error

  Everything that can go wrong, by cause, with its wording and its class.
-/
import PgClient.Auth.Scram
import PgClient.Config.Basic
import PgClient.Message.Violation
import PgClient.ServerError
import PgClient.Value

namespace PgClient

/-! ## Causes -/

/-- Why a value cannot be encoded or decoded. -/
inductive DataFault where
  | notLatin1 (c : Char)
  | notUtf8 (f : Utf8.Fault)
  /-- An encoder was given a value of a kind that it does not take. -/
  | mismatch (expected : String) (kind : Kind)
  | wrongLength (type : String) (length : Nat)
  | notJson
  /-- The distance of a date or moment does not fit its word. -/
  | dateTooFar (text : String)
  | momentTooFar (text : String)
  | dateRange (days : Int)
  | timeRange (micros : Int)
  | timestampRange (micros : Int)
  | notArray (text : String)
  | openElement (text : String)
  | afterElement (c : Char)
  | arrayInteger (text : String) (f : Integer.Fault)
  deriving DecidableEq, Repr

def DataFault.message : DataFault → String
  | .notLatin1 c => "character " ++ Text.quotedChar c ++ " is not LATIN1"
  | .notUtf8 f => "invalid UTF-8: " ++ f.message
  | .mismatch expected kind => "expected " ++ expected ++ " value, got " ++ kind.name
  | .wrongLength type length => "invalid " ++ type ++ " length: " ++ length.repr
  | .notJson => "invalid JSON"
  | .dateTooFar text => "date " ++ text ++ " out of range"
  | .momentTooFar text => "timestamp " ++ text ++ " out of range"
  | .dateRange days => "date offset " ++ String.ofList (Integer.text days) ++ " out of range"
  | .timeRange micros => "time " ++ String.ofList (Integer.text micros) ++ " out of range"
  | .timestampRange micros =>
    "timestamp offset " ++ String.ofList (Integer.text micros) ++ " out of range"
  | .notArray text => "malformed array literal: " ++ text
  | .openElement text => "unterminated array element: " ++ text
  | .afterElement c => "unexpected " ++ Text.quotedChar c ++ " in array literal"
  | .arrayInteger text f => "invalid array integer " ++ Text.quoted text ++ ": " ++ f.message

/-- Why data cannot be copied. -/
inductive CopyFault where
  | noSource
  | noSink
  | source (reason : String)
  | sink (reason : String)
  deriving DecidableEq, Repr

def CopyFault.message : CopyFault → String
  | .noSource => "COPY FROM STDIN requires a copy source on the cursor"
  | .noSink => "COPY TO STDOUT requires a copy sink on the cursor"
  | .source reason => "copy source failed: " ++ reason
  | .sink reason => "copy sink failed: " ++ reason

/-- Why no secret can be given to the server. -/
inductive CredentialFault where
  | unknownProvider (name : String)
  | variableUnset (name : String)
  | noPassword
  | noMechanism (offered : List String)
  /-- A method of authentication that is never answered. -/
  | method (code : Int32)
  | scram (f : Scram.Fault)
  deriving DecidableEq, Repr

/-- The name of a method of authentication that is never answered. -/
def authMethodName (code : Int32) : String :=
  if code = 2 then "Kerberos V5"
  else if code = 4 then "crypt"
  else if code = 6 then "SCM credentials"
  else if code = 7 then "GSSAPI"
  else if code = 8 then "GSSAPI continue"
  else if code = 9 then "SSPI"
  else "unknown"

def CredentialFault.message : CredentialFault → String
  | .unknownProvider name => "unknown credential provider " ++ Text.quoted name
  | .variableUnset name => "server requested a password but " ++ name ++ " is not set"
  | .noPassword =>
    "server requested password-based authentication, but no password was provided"
  | .noMechanism offered =>
    "server offered SASL mechanisms " ++ Text.quotedList offered ++ ", none of which is supported"
  | .method code =>
    "authentication method " ++ String.ofList (Integer.text code.toInt) ++ " (" ++
      authMethodName code ++ ") is not supported"
  | .scram f => "SCRAM: " ++ f.message

/-- Why the stream failed. -/
inductive IoFault where
  /-- The stream's own account of a refused read or write. -/
  | failed (reason : String)
  /-- The stream ended inside an answer. -/
  | short
  deriving DecidableEq, Repr

def IoFault.message : IoFault → String
  | .failed reason => reason
  | .short => "failed to fill whole buffer"

/-! ## Errors -/

inductive Error where
  | violation (v : Violation)
  | placeholder (f : Placeholder.Fault)
  | tooManyParameters (count : Nat)
  | config (f : Config.Fault)
  | credentials (f : CredentialFault)
  | copy (f : CopyFault)
  | cursorClosed
  | connectionClosed
  | io (f : IoFault)
  | server (e : ServerError)
  | emptyQuery
  | noResultSet
  | notMapped (kind : Kind)
  | data (f : DataFault)
  deriving DecidableEq, Repr

namespace Error

/-- Parameters are counted in a signed 16-bit word. -/
def maxParameters : Nat := 32767

/-- What kind of failure an error is. -/
inductive Category where
  | interface
  | connectionClosed
  | io
  | server
  | programming
  | notSupported
  | data
  deriving DecidableEq, Repr

def category : Error → Category
  | violation _ | placeholder _ | tooManyParameters _ | config _ | credentials _ | copy _
  | cursorClosed => .interface
  | connectionClosed => .connectionClosed
  | io _ => .io
  | server _ => .server
  | emptyQuery | noResultSet => .programming
  | notMapped _ => .notSupported
  | data _ => .data

/-- The class of an error; what the server reported is classed by its SQLSTATE. -/
def errorClass : Error → ErrorClass
  | server e => e.errorClass
  | e =>
    match e.category with
    | .programming => .programming
    | .notSupported => .notSupported
    | .data => .data
    | _ => .interface

/-- The SQLSTATE of an error that the server reported. -/
def sqlstate? : Error → Option String
  | server e => some e.code
  | _ => none

/-- The wording of the cause. -/
def cause : Error → String
  | violation v => "protocol violation: " ++ v.message
  | placeholder f => f.message
  | tooManyParameters count =>
    count.repr ++ " parameters exceed the protocol limit of " ++ maxParameters.repr
  | config f => f.message
  | credentials f => f.message
  | copy f => f.message
  | cursorClosed => "cursor is closed"
  | connectionClosed => "Connection is closed"
  | io f => f.message
  | server e => e.text
  | emptyQuery => "query was empty"
  | noResultSet => "no result set"
  | notMapped kind => "type " ++ kind.name ++ " not mapped to a server type"
  | data f => f.message

/-- The wording of the cause after that of its category. -/
def message (e : Error) : String :=
  match e.category with
  | .interface => "Interface error: " ++ e.cause
  | .connectionClosed => e.cause
  | .io => "I/O error: " ++ e.cause
  | .server => e.cause
  | .programming => "Programming error: " ++ e.cause
  | .notSupported => "Not supported: " ++ e.cause
  | .data => "Data error: " ++ e.cause

end Error

end PgClient
