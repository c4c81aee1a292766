/-
  PgClient.Codec.Encoder

  How parameters are written: one encoder per sort of value, each refusing the
  values that it does not take.
-/
import PgClient.Codec.ArrayLiteral
import PgClient.Codec.Context
import PgClient.Json.Printer

namespace PgClient

/-- How one parameter is sent: its declared type, its format and its bytes. -/
structure ParamEncoder where
  oid : Oid
  format : Format
  encode : Value → CodecContext → Except Error Bytes

namespace Encode

def mismatch (expected : String) (v : Value) : Except Error Bytes :=
  .error (.data (.mismatch expected v.kind))

/-- A null has no bytes. -/
def null (_ : Value) (_ : CodecContext) : Except Error Bytes := .ok []

def bool (v : Value) (_ : CodecContext) : Except Error Bytes :=
  match v with
  | .bool b => .ok [if b then 1 else 0]
  | v => mismatch "bool" v

/-- The narrowest of two, four and eight bytes that holds a number. -/
def narrowest (n : Int64) : Bytes :=
  if -32768 ≤ n.toInt ∧ n.toInt ≤ 32767 then Bytes.ofInt16 (Int16.ofInt n.toInt)
  else if -2147483648 ≤ n.toInt ∧ n.toInt ≤ 2147483647 then Bytes.ofInt32 (Int32.ofInt n.toInt)
  else Bytes.ofInt64 n

def int (v : Value) (_ : CodecContext) : Except Error Bytes :=
  match v with
  | .int2 n => .ok (Bytes.ofInt16 n)
  | .int4 n => .ok (Bytes.ofInt32 n)
  | .int8 n => .ok (Bytes.ofInt64 n)
  | .int n => .ok (narrowest n)
  | v => mismatch "integer" v

def float (v : Value) (_ : CodecContext) : Except Error Bytes :=
  match v with
  | .float4 bits => .ok (Bytes.ofUInt32 bits)
  | .float8 bits => .ok (Bytes.ofUInt64 bits)
  | v => mismatch "float" v

def text (v : Value) (ctx : CodecContext) : Except Error Bytes :=
  match v with
  | .text s | .numeric s => ctx.encodeText s
  | .json j => ctx.encodeText (Json.text j)
  | v => mismatch "text" v

def bytea (v : Value) (_ : CodecContext) : Except Error Bytes :=
  match v with
  | .bytea bs => .ok bs
  | v => mismatch "bytea" v

def uuid (v : Value) (_ : CodecContext) : Except Error Bytes :=
  match v with
  | .uuid u => .ok u.bytes
  | v => mismatch "uuid" v

/-- A number of microseconds in the form that the server asks for. -/
def micros (n : Int) (ctx : CodecContext) : Bytes :=
  if ctx.integerDatetimes then Bytes.ofInt64 (Int64.ofInt n)
  else Bytes.ofUInt64 ((Int64.ofInt n).toFloat / 1000000.0).toBits

def date (v : Value) (_ : CodecContext) : Except Error Bytes :=
  match v with
  | .date d =>
    if -2147483648 ≤ d.dayNumber ∧ d.dayNumber ≤ 2147483647 then
      .ok (Bytes.ofInt32 (Int32.ofInt d.dayNumber))
    else .error (.data (.dateTooFar (String.ofList d.text)))
  | v => mismatch "date" v

def time (v : Value) (ctx : CodecContext) : Except Error Bytes :=
  match v with
  | .time t => .ok (micros t.micros ctx)
  | v => mismatch "time" v

def timestamp (v : Value) (ctx : CodecContext) : Except Error Bytes :=
  match v with
  | .timestamp m | .timestamptz m =>
    if -9223372036854775808 ≤ m.micros ∧ m.micros ≤ 9223372036854775807 then
      .ok (micros m.micros ctx)
    else .error (.data (.momentTooFar (String.ofList m.text)))
  | v => mismatch "timestamp" v

def array (v : Value) (ctx : CodecContext) : Except Error Bytes :=
  match v with
  | .array items => do ctx.encodeText (String.ofList (← ArrayLiteral.write items))
  | v => mismatch "array" v

end Encode

end PgClient
