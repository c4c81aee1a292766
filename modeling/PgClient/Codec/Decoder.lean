/-
  PgClient.Codec.Decoder

  How result columns are read: one decoder per sort of value, fixed widths
  checked.
-/
import PgClient.Codec.ArrayLiteral
import PgClient.Codec.Context
import PgClient.Json.Reader

namespace PgClient

/-- How one result column is received. -/
structure ColumnDecoder where
  format : Format
  decode : Bytes → CodecContext → Except Error Value

namespace Decode

/-- The bytes, if there are as many as the type has. -/
def fixed (width : Nat) (type : String) (bs : Bytes) : Except Error Bytes :=
  if bs.length = width then .ok bs else .error (.data (.wrongLength type bs.length))

def bool (bs : Bytes) (_ : CodecContext) : Except Error Value := do
  return .bool (Bytes.value (← fixed 1 "BOOL" bs) ≠ 0)

def int2 (bs : Bytes) (_ : CodecContext) : Except Error Value := do
  return .int2 (Bytes.toInt16 (← fixed 2 "INT2" bs))

def int4 (bs : Bytes) (_ : CodecContext) : Except Error Value := do
  return .int4 (Bytes.toInt32 (← fixed 4 "INT4" bs))

def int8 (bs : Bytes) (_ : CodecContext) : Except Error Value := do
  return .int8 (Bytes.toInt64 (← fixed 8 "INT8" bs))

def float4 (bs : Bytes) (_ : CodecContext) : Except Error Value := do
  return .float4 (Bytes.toUInt32 (← fixed 4 "FLOAT4" bs))

def float8 (bs : Bytes) (_ : CodecContext) : Except Error Value := do
  return .float8 (Bytes.toUInt64 (← fixed 8 "FLOAT8" bs))

def text (bs : Bytes) (ctx : CodecContext) : Except Error Value :=
  (ctx.decodeText bs).map .text

def numeric (bs : Bytes) (ctx : CodecContext) : Except Error Value :=
  (ctx.decodeText bs).map .numeric

def bytea (bs : Bytes) (_ : CodecContext) : Except Error Value := .ok (.bytea bs)

def uuid (bs : Bytes) (_ : CodecContext) : Except Error Value :=
  if h : bs.length = 16 then .ok (.uuid ⟨bs, h⟩)
  else .error (.data (.wrongLength "UUID" bs.length))

def json (bs : Bytes) (ctx : CodecContext) : Except Error Value := do
  match Json.parse (← ctx.decodeText bs) with
  | some j => return .json j
  | none => throw (.data .notJson)

/-- A number of microseconds in the form that the server uses; seconds in a double are
rounded to the nearest, and to the ends of the range. -/
def micros (type : String) (bs : Bytes) (ctx : CodecContext) : Except Error Int := do
  let raw ← fixed 8 type bs
  if ctx.integerDatetimes then return (Bytes.toInt64 raw).toInt
  else return (Float.ofBits (Bytes.toUInt64 raw) * 1000000.0).round.toInt64.toInt

def date (bs : Bytes) (_ : CodecContext) : Except Error Value := do
  let days := (Bytes.toInt32 (← fixed 4 "DATE" bs)).toInt
  match Date.ofDayNumber? days with
  | some d => return .date d
  | none => throw (.data (.dateRange days))

def time (bs : Bytes) (ctx : CodecContext) : Except Error Value := do
  let n ← micros "TIME" bs ctx
  match TimeOfDay.ofMicros? n with
  | some t => return .time t
  | none => throw (.data (.timeRange n))

/-- The moment some microseconds away from 2000-01-01. -/
def moment (n : Int) : Except Error Moment :=
  match Moment.ofMicros? n with
  | some m => .ok m
  | none => .error (.data (.timestampRange n))

def timestamp (bs : Bytes) (ctx : CodecContext) : Except Error Value := do
  return .timestamp (← moment (← micros "TIMESTAMP" bs ctx))

def timestamptz (bs : Bytes) (ctx : CodecContext) : Except Error Value := do
  return .timestamptz (← moment (← micros "TIMESTAMPTZ" bs ctx))

/-- The elements of an array literal in the client encoding. -/
def elements (bs : Bytes) (ctx : CodecContext) : Except Error (List ArrayLiteral.Element) := do
  (ArrayLiteral.read (← ctx.decodeText bs).toList).mapError .data

def integerElement : ArrayLiteral.Element → Except Error Value
  | none => .ok .null
  | some cs =>
    match Integer.readInt64 cs with
    | .ok n => .ok (.int8 n)
    | .error f => .error (.data (.arrayInteger (String.ofList cs) f))

def textElement : ArrayLiteral.Element → Value
  | none => .null
  | some cs => .text (String.ofList cs)

def intArray (bs : Bytes) (ctx : CodecContext) : Except Error Value := do
  return .array (← (← elements bs ctx).mapM integerElement)

def textArray (bs : Bytes) (ctx : CodecContext) : Except Error Value := do
  return .array ((← elements bs ctx).map textElement)

end Decode

end PgClient
