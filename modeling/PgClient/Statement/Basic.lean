/-
  PgClient.Statement.Basic

  Prepared statements: their names, their parameter encoders and their result
  columns, and the keys under which they are kept.
-/
import PgClient.Codec.Table
import PgClient.Message.Backend
import PgClient.Statement.Cache

namespace PgClient

/-- The types and formats of a call's parameters, in order. -/
abbrev Signature := List (Oid × Format)

/-- What two calls must share to share a statement: the converted SQL and the types of the
parameters. -/
structure StatementKey where
  sql : String
  signature : Signature
  deriving DecidableEq, Repr

def StatementKey.of (sql : String) (encoders : List ParamEncoder) : StatementKey :=
  ⟨sql, encoders.map fun e => (e.oid, e.format)⟩

/-- A result column with the decoder chosen for it. -/
structure Column where
  field : FieldDescription
  decoder : ColumnDecoder

/-- A statement that the server has parsed and described. -/
structure Statement where
  /-- The server's name for it; empty for the unnamed statement. -/
  name : String
  /-- The number from which the name is made; later statements have larger ones. -/
  sequence : Nat
  /-- One encoder for each parameter. -/
  encoders : List ParamEncoder
  /-- The types of the parameters as the server resolved them. -/
  paramTypes : List Oid
  /-- No columns where the statement returns no rows. -/
  columns : List Column

namespace Statement

/-- The beginning of every name. -/
def namePrefix : String := "redshift_wire_statement_"

/-- The name of the statement with a given number, in the process of the given label. -/
def nameOf (process : String) (sequence : Nat) : String :=
  namePrefix ++ process ++ "_" ++ sequence.repr

def returnsRows (s : Statement) : Bool := !s.columns.isEmpty

def isUnnamed (s : Statement) : Bool := s.name.isEmpty

/-- The format asked for each column. -/
def resultFormats (s : Statement) : List Format := s.columns.map (·.decoder.format)

end Statement

/-- Prepared statements by their keys. -/
abbrev StatementCache := Cache StatementKey Statement

end PgClient
