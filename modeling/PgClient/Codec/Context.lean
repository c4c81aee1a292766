/-
  PgClient.Codec.Context

  What the server has said about text and times on this connection, and text in
  the client encoding.
-/
import PgClient.Error

namespace PgClient

/-- The character set in which the server and the client exchange text. -/
inductive ClientEncoding where
  | utf8
  | latin1
  /-- The server converts nothing. -/
  | sqlAscii
  deriving DecidableEq, Repr

/-- The encoding of a name, in any letter case and with or without its hyphens. -/
def ClientEncoding.ofServerName? (name : String) : Option ClientEncoding :=
  let plain := (name.toList.map Char.toUpper).filter fun c => c ≠ '-' && c ≠ '_'
  match String.ofList plain with
  | "UTF8" | "UNICODE" => some .utf8
  | "LATIN1" | "ISO88591" => some .latin1
  | "SQLASCII" => some .sqlAscii
  | _ => none

/-- What encoders and decoders have to know about the connection. -/
structure CodecContext where
  encoding : ClientEncoding := .utf8
  /-- Binary times count microseconds in an integer, else seconds in a double. -/
  integerDatetimes : Bool := true
  deriving DecidableEq, Repr

namespace CodecContext

/-- The byte of a character in LATIN1. -/
def latin1Byte (c : Char) : Except Error UInt8 :=
  if c.toNat < 256 then .ok (UInt8.ofNat c.toNat) else .error (.data (.notLatin1 c))

/-- A text in the client encoding. -/
def encodeText (ctx : CodecContext) (s : String) : Except Error Bytes :=
  match ctx.encoding with
  | .utf8 | .sqlAscii => .ok (Utf8.encode s)
  | .latin1 => s.toList.mapM latin1Byte

/-- The text that bytes in the client encoding spell. -/
def decodeText (ctx : CodecContext) (bs : Bytes) : Except Error String :=
  match ctx.encoding with
  | .utf8 => (Utf8.decode bs).mapError fun f => .data (.notUtf8 f)
  | .latin1 => .ok (String.ofList (bs.map fun b => Char.ofNat b.toNat))
  | .sqlAscii => .ok (Utf8.decodeLossy bs)

end CodecContext

end PgClient
