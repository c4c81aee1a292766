/-
  PgClient.Value

  Type identifiers, wire formats, and the values that parameters and rows hold.
-/
import PgClient.Bytes
import PgClient.Calendar
import PgClient.Json.Basic

namespace PgClient

/-! ## Types and formats -/

/-- The identifier of a server type. -/
structure Oid where
  code : Int32
  deriving DecidableEq, Repr

namespace Oid

def bool : Oid := ⟨16⟩
def bytea : Oid := ⟨17⟩
def char : Oid := ⟨18⟩
def name : Oid := ⟨19⟩
def int8 : Oid := ⟨20⟩
def int2 : Oid := ⟨21⟩
def int4 : Oid := ⟨23⟩
def text : Oid := ⟨25⟩
def oid : Oid := ⟨26⟩
def json : Oid := ⟨114⟩
def float4 : Oid := ⟨700⟩
def float8 : Oid := ⟨701⟩
/-- An untyped literal, which the server coerces. -/
def unknown : Oid := ⟨705⟩
def int2Array : Oid := ⟨1005⟩
def int4Array : Oid := ⟨1007⟩
def textArray : Oid := ⟨1009⟩
def varcharArray : Oid := ⟨1015⟩
def int8Array : Oid := ⟨1016⟩
def float8Array : Oid := ⟨1022⟩
def bpchar : Oid := ⟨1042⟩
def varchar : Oid := ⟨1043⟩
def date : Oid := ⟨1082⟩
def time : Oid := ⟨1083⟩
def timestamp : Oid := ⟨1114⟩
def timestamptz : Oid := ⟨1184⟩
def numeric : Oid := ⟨1700⟩
def uuid : Oid := ⟨2950⟩
def jsonb : Oid := ⟨3802⟩

/-- The types whose values are plain text. -/
def isTextLike (o : Oid) : Bool :=
  [text, varchar, bpchar, char, name, unknown].contains o

end Oid

/-- How a value is written on the wire. -/
inductive Format where
  | text
  | binary
  deriving DecidableEq, Repr

namespace Format

def code : Format → Int16
  | .text => 0
  | .binary => 1

/-- Every code but zero is binary. -/
def ofCode (n : Int16) : Format := if n = 0 then .text else .binary

end Format

/-! ## Values -/

/-- The sixteen bytes of a UUID. -/
structure Uuid where
  bytes : Bytes
  length_eq : bytes.length = 16
  deriving DecidableEq

/-- A parameter or result value. Floats are held as their bits. -/
inductive Value where
  | null
  | bool (b : Bool)
  | int2 (n : Int16)
  | int4 (n : Int32)
  | int8 (n : Int64)
  /-- An integer whose width on the wire follows from its size. -/
  | int (n : Int64)
  | float4 (bits : UInt32)
  | float8 (bits : UInt64)
  /-- A number of any precision, as text. -/
  | numeric (s : String)
  | text (s : String)
  | bytea (bs : Bytes)
  | date (d : Date)
  | time (t : TimeOfDay)
  | timestamp (m : Moment)
  | timestamptz (m : Moment)
  | uuid (u : Uuid)
  | json (j : Json)
  /-- A one-dimensional array. -/
  | array (items : List Value)
  deriving Inhabited

/-- One decoded result row. -/
abbrev Row := List Value

/-- What sort of value a value is. -/
inductive Kind where
  | null
  | bool
  | int2
  | int4
  | int8
  | int
  | float4
  | float8
  | numeric
  | text
  | bytea
  | date
  | time
  | timestamp
  | timestamptz
  | uuid
  | json
  | array
  deriving DecidableEq, Repr

def Kind.name : Kind → String
  | .null => "Null"
  | .bool => "Bool"
  | .int2 => "Int2"
  | .int4 => "Int4"
  | .int8 => "Int8"
  | .int => "Int"
  | .float4 => "Float4"
  | .float8 => "Float8"
  | .numeric => "Numeric"
  | .text => "Text"
  | .bytea => "Bytea"
  | .date => "Date"
  | .time => "Time"
  | .timestamp => "Timestamp"
  | .timestamptz => "TimestampTz"
  | .uuid => "Uuid"
  | .json => "Json"
  | .array => "Array"

namespace Value

def kind : Value → Kind
  | .null => .null
  | .bool _ => .bool
  | .int2 _ => .int2
  | .int4 _ => .int4
  | .int8 _ => .int8
  | .int _ => .int
  | .float4 _ => .float4
  | .float8 _ => .float8
  | .numeric _ => .numeric
  | .text _ => .text
  | .bytea _ => .bytea
  | .date _ => .date
  | .time _ => .time
  | .timestamp _ => .timestamp
  | .timestamptz _ => .timestamptz
  | .uuid _ => .uuid
  | .json _ => .json
  | .array _ => .array

def isNull (v : Value) : Bool := v.kind = .null

/-- The number that an integer value of any width holds. -/
def integer? : Value → Option Int
  | .int2 n => some n.toInt
  | .int4 n => some n.toInt
  | .int8 n => some n.toInt
  | .int n => some n.toInt
  | _ => none

def isFloat (v : Value) : Bool := v.kind = .float4 || v.kind = .float8

def isText (v : Value) : Bool := v.kind = .text

end Value

/-! ## Values of plain data -/

instance : Coe Bool Value := ⟨.bool⟩
instance : Coe Int32 Value := ⟨fun n => .int n.toInt64⟩
instance : Coe Int64 Value := ⟨.int⟩
instance : Coe Float Value := ⟨fun f => .float8 f.toBits⟩
instance : Coe String Value := ⟨.text⟩

/-- A value that may be missing; what is missing is null. -/
def Value.ofOption {α : Type} [Coe α Value] : Option α → Value
  | none => .null
  | some a => (a : Value)

end PgClient
