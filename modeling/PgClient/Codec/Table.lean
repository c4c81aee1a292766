/-
  PgClient.Codec.Table

  Which encoder a parameter gets and which decoder a column gets. A codec is any
  pair of such choices; `CodecTable` makes them by tables: the kind of a value
  first, then inspectors in turn, and plain text for a type without a decoder.
-/
import PgClient.Codec.Decoder
import PgClient.Codec.Encoder

namespace PgClient

/-- The choice of encoders and decoders. -/
structure Codec where
  inspect : Value → Except Error ParamEncoder
  lookup : Oid → ColumnDecoder

/-- Chooses an encoder by looking at the value, or leaves it to the next. -/
abbrev Inspector := Value → Option ParamEncoder

structure CodecTable where
  /-- Of two entries of one kind the first counts. -/
  exact : List (Kind × ParamEncoder)
  inspectors : List Inspector
  /-- Of two entries of one type the first counts. -/
  decoders : List (Oid × ColumnDecoder)

/-! ## Inspectors -/

/-- The narrowest integer type that holds the number. -/
def inspectInt : Inspector
  | .int n =>
    let oid :=
      if -32768 ≤ n.toInt ∧ n.toInt ≤ 32767 then Oid.int2
      else if -2147483648 ≤ n.toInt ∧ n.toInt ≤ 2147483647 then .int4
      else .int8
    some ⟨oid, .binary, Encode.int⟩
  | _ => none

/-- The array type of the first element that is not null, which all others must share. -/
def inspectArray : Inspector
  | .array items =>
    let present := items.filter fun v => !v.isNull
    let typed (oid : Oid) (test : Value → Bool) : Option ParamEncoder :=
      if present.all test then some ⟨oid, .text, Encode.array⟩ else none
    match present with
    -- Nulls alone do not tell a type.
    | [] => none
    | v :: _ =>
      if v.integer?.isSome then typed .int8Array (·.integer?.isSome)
      else if v.isFloat then typed .float8Array Value.isFloat
      else if v.isText then typed .textArray Value.isText
      else none
  | _ => none

namespace CodecTable

/-! ## The table in use -/

def standard : CodecTable where
  exact :=
    [(.null, ⟨.unknown, .text, Encode.null⟩),
     (.bool, ⟨.bool, .binary, Encode.bool⟩),
     (.int2, ⟨.int2, .binary, Encode.int⟩),
     (.int4, ⟨.int4, .binary, Encode.int⟩),
     (.int8, ⟨.int8, .binary, Encode.int⟩),
     (.float4, ⟨.float4, .binary, Encode.float⟩),
     (.float8, ⟨.float8, .binary, Encode.float⟩),
     (.numeric, ⟨.numeric, .text, Encode.text⟩),
     (.text, ⟨.unknown, .text, Encode.text⟩),
     (.bytea, ⟨.bytea, .binary, Encode.bytea⟩),
     (.date, ⟨.date, .binary, Encode.date⟩),
     (.time, ⟨.time, .binary, Encode.time⟩),
     (.timestamp, ⟨.timestamp, .binary, Encode.timestamp⟩),
     (.timestamptz, ⟨.timestamptz, .binary, Encode.timestamp⟩),
     (.uuid, ⟨.uuid, .binary, Encode.uuid⟩),
     (.json, ⟨.json, .text, Encode.text⟩)]
  inspectors := [inspectInt, inspectArray]
  decoders :=
    [(.bool, ⟨.binary, Decode.bool⟩),
     (.int2, ⟨.binary, Decode.int2⟩),
     (.int4, ⟨.binary, Decode.int4⟩),
     (.oid, ⟨.binary, Decode.int4⟩),
     (.int8, ⟨.binary, Decode.int8⟩),
     (.float4, ⟨.binary, Decode.float4⟩),
     (.float8, ⟨.binary, Decode.float8⟩),
     (.numeric, ⟨.text, Decode.numeric⟩),
     (.text, ⟨.text, Decode.text⟩),
     (.varchar, ⟨.text, Decode.text⟩),
     (.bpchar, ⟨.text, Decode.text⟩),
     (.char, ⟨.text, Decode.text⟩),
     (.name, ⟨.text, Decode.text⟩),
     (.unknown, ⟨.text, Decode.text⟩),
     (.bytea, ⟨.binary, Decode.bytea⟩),
     (.date, ⟨.binary, Decode.date⟩),
     (.time, ⟨.binary, Decode.time⟩),
     (.timestamp, ⟨.binary, Decode.timestamp⟩),
     (.timestamptz, ⟨.binary, Decode.timestamptz⟩),
     (.uuid, ⟨.binary, Decode.uuid⟩),
     (.json, ⟨.text, Decode.json⟩),
     (.jsonb, ⟨.text, Decode.json⟩),
     (.int4Array, ⟨.text, Decode.intArray⟩),
     (.int8Array, ⟨.text, Decode.intArray⟩),
     (.int2Array, ⟨.text, Decode.intArray⟩),
     (.textArray, ⟨.text, Decode.textArray⟩),
     (.varcharArray, ⟨.text, Decode.textArray⟩)]

/-! ## Changes -/

/-- Every value of a kind gets this encoder. -/
def registerExact (t : CodecTable) (kind : Kind) (encoder : ParamEncoder) : CodecTable :=
  { t with exact := (kind, encoder) :: t.exact }

/-- One more inspector, asked after the others. -/
def registerInspector (t : CodecTable) (inspector : Inspector) : CodecTable :=
  { t with inspectors := t.inspectors ++ [inspector] }

/-- Every column of a type gets this decoder. -/
def registerDecoder (t : CodecTable) (oid : Oid) (decoder : ColumnDecoder) : CodecTable :=
  { t with decoders := (oid, decoder) :: t.decoders }

/-! ## Choices -/

def inspect (t : CodecTable) (v : Value) : Except Error ParamEncoder :=
  match t.exact.lookup v.kind with
  | some encoder => .ok encoder
  | none =>
    match t.inspectors.findSome? fun inspector => inspector v with
    | some encoder => .ok encoder
    | none => .error (.notMapped v.kind)

def lookup (t : CodecTable) (oid : Oid) : ColumnDecoder :=
  (t.decoders.lookup oid).getD ⟨.text, Decode.text⟩

def codec (t : CodecTable) : Codec := ⟨t.inspect, t.lookup⟩

end CodecTable

end PgClient
