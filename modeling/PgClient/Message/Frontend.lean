/-
  PgClient.Message.Frontend

  What the client sends: the messages, their bodies, and their frames. The two
  packets that open a connection have no tag.
-/
import PgClient.Text.Utf8
import PgClient.Value

namespace PgClient

/-! ## Layout -/

namespace Wire

/-- The protocol version that the startup packet asks for. -/
def protocolVersion : Int32 := 196608

/-- The code of the packet that asks for TLS. -/
def sslRequestCode : Int32 := 80877103

/-- Bytes up to and with their terminator. -/
def cstring (bs : Bytes) : Bytes := bs ++ [0]

/-- A text up to and with its terminator. -/
def string (s : String) : Bytes := cstring (Utf8.encode s)

/-- The low 16 bits of a count. -/
def count (n : Nat) : Bytes := Bytes.bigEndian 2 n

/-- The low 32 bits of a length. -/
def length (n : Nat) : Bytes := Bytes.bigEndian 4 n

/-- A frame: the tag, the length of the body with its own four bytes, and the body. -/
def pack (tag : UInt8) (body : Bytes) : Bytes := tag :: length (body.length + 4) ++ body

/-- A counted list. -/
def counted {α : Type} (write : α → Bytes) (xs : List α) : Bytes :=
  count xs.length ++ xs.flatMap write

def format (f : Format) : Bytes := Bytes.ofInt16 f.code

/-- A value with its length in front; a missing one has length -1. -/
def value : Option Bytes → Bytes
  | none => Bytes.ofInt32 (-1)
  | some bs => length bs.length ++ bs

end Wire

/-! ## Messages -/

/-- What a Describe or a Close is about. -/
inductive Target where
  | statement
  | portal
  deriving DecidableEq, Repr

def Target.code : Target → UInt8
  | .statement => 'S'.toUInt8
  | .portal => 'P'.toUInt8

inductive Frontend where
  | startup (version : Int32) (params : List (String × String))
  | sslRequest
  | password (secret : Bytes)
  | saslInitial (mechanism : String) (data : Bytes)
  | saslResponse (data : Bytes)
  | parse (name : String) (query : Bytes) (types : List Oid)
  | bind (portal statement : String) (paramFormats : List Format) (params : List (Option Bytes))
      (resultFormats : List Format)
  | execute (portal : String) (maxRows : Int32)
  | describe (target : Target) (name : String)
  | close (target : Target) (name : String)
  | sync
  | flush
  | terminate
  | copyData (data : Bytes)
  | copyDone
  | copyFail (reason : String)
  deriving DecidableEq, Repr

namespace Frontend

/-- The tag of a message; the two opening packets have none. -/
def tag? : Frontend → Option Char
  | startup .. => none
  | sslRequest => none
  | password .. => some 'p'
  | saslInitial .. => some 'p'
  | saslResponse .. => some 'p'
  | parse .. => some 'P'
  | bind .. => some 'B'
  | execute .. => some 'E'
  | describe .. => some 'D'
  | close .. => some 'C'
  | sync => some 'S'
  | flush => some 'H'
  | terminate => some 'X'
  | copyData .. => some 'd'
  | copyDone => some 'c'
  | copyFail .. => some 'f'

/-- The body of a message, without tag and length. -/
def body : Frontend → Bytes
  | startup version params =>
    Bytes.ofInt32 version ++
      params.flatMap (fun (key, value) => Wire.string key ++ Wire.string value) ++ [0]
  | sslRequest => Bytes.ofInt32 Wire.sslRequestCode
  | password secret => Wire.cstring secret
  | saslInitial mechanism data => Wire.string mechanism ++ Wire.length data.length ++ data
  | saslResponse data => data
  | parse name query types =>
    Wire.string name ++ Wire.cstring query ++ Wire.counted (fun o => Bytes.ofInt32 o.code) types
  | bind portal statement paramFormats params resultFormats =>
    Wire.string portal ++ Wire.string statement ++ Wire.counted Wire.format paramFormats ++
      Wire.counted Wire.value params ++ Wire.counted Wire.format resultFormats
  | execute portal maxRows => Wire.string portal ++ Bytes.ofInt32 maxRows
  | describe target name => target.code :: Wire.string name
  | close target name => target.code :: Wire.string name
  | sync => []
  | flush => []
  | terminate => []
  | copyData data => data
  | copyDone => []
  | copyFail reason => Wire.string reason

/-- The bytes of a message on the wire. -/
def encode (m : Frontend) : Bytes :=
  match m.tag? with
  | some tag => Wire.pack tag.toUInt8 m.body
  | none => Wire.length (m.body.length + 4) ++ m.body

/-- The bytes of some messages, one after the other. -/
def encodeAll (messages : List Frontend) : Bytes := messages.flatMap encode

@[simp] theorem encodeAll_nil : encodeAll [] = [] := rfl

@[simp] theorem encodeAll_append (messages messages' : List Frontend) :
    encodeAll (messages ++ messages') = encodeAll messages ++ encodeAll messages' :=
  List.flatMap_append

/-- How many bytes a message takes on the wire. -/
def size (m : Frontend) : Nat :=
  m.body.length + if m.tag?.isSome then 5 else 4

theorem size_eq (m : Frontend) : m.size = m.encode.length := by
  unfold size encode
  cases m.tag? <;> simp [Wire.pack, Wire.length]
  all_goals omega

end Frontend

end PgClient
