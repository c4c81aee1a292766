/-
  PgClient.Auth.Scram

  The client side of SCRAM (RFC 5802, RFC 7677) without channel binding. The
  cryptographic functions are a parameter, so that the exchange can be stated
  for any of them; `sha256` is the instance in use.
-/
import PgClient.Base64
import PgClient.Digest.Sha256
import PgClient.Text.Cut
import PgClient.Text.Integer
import PgClient.Text.Quoted
import PgClient.Text.Utf8

namespace PgClient.Scram

/-- The digest, the keyed digest and the password stretching of a mechanism. -/
structure Primitives where
  hash : Bytes → Bytes
  hmac : (key message : Bytes) → Bytes
  stretch : (password salt : Bytes) → (iterations : UInt32) → Bytes

def sha256 : Primitives := ⟨Sha256.digest, Sha256.hmac, Sha256.pbkdf2⟩

/-- The name under which a server offers the mechanism. -/
def mechanism : String := "SCRAM-SHA-256"

/-! ## Faults -/

inductive Fault where
  | notUtf8
  | missingAttribute (key : Char)
  | malformed (key : Char)
  | nonceMismatch
  | signatureMismatch
  | refused (reason : String)
  | outOfOrder
  deriving DecidableEq, Repr

def Fault.message : Fault → String
  | .notUtf8 => "server message is not valid UTF-8"
  | .missingAttribute key => "server message lacks attribute " ++ Text.quotedChar key
  | .malformed key => "malformed attribute " ++ Text.quotedChar key
  | .nonceMismatch => "server nonce does not extend the client nonce"
  | .signatureMismatch => "server signature does not match"
  | .refused reason => "server reported: " ++ reason
  | .outOfOrder => "message received out of order"

/-! ## The client -/

/-- How far the exchange has come. -/
inductive Stage where
  | start
  | sentFirst
  /-- The proof is sent, and the server must answer with this signature. -/
  | sentFinal (expected : Bytes)
  | finished
  deriving DecidableEq, Repr

structure Client where
  user : String
  password : Bytes
  nonce : String
  stage : Stage := .start
  deriving DecidableEq, Repr

/-- A client whose nonce is the base64 text of some random bytes. -/
def Client.ofRandom (user : String) (password random : Bytes) : Client :=
  { user, password, nonce := Base64.encode random }

/-- A user name with the two characters escaped that structure a message. -/
def escapeName (name : String) : String :=
  String.ofList <| name.toList.flatMap fun c =>
    if c = '=' then ['=', '3', 'D'] else if c = ',' then ['=', '2', 'C'] else [c]

/-- The first message without the channel binding header. -/
def Client.firstBare (c : Client) : String :=
  "n=" ++ escapeName c.user ++ ",r=" ++ c.nonce

/-! ## Attributes -/

/-- An attribute of a server message: a letter, an equals sign and a value. -/
def attributeOf (part : List Char) : Except Fault (Char × String) :=
  match part with
  | key :: '=' :: value => .ok (key, String.ofList value)
  | key :: _ => .error (.malformed key)
  | [] => .error (.malformed ',')

def attributes (message : String) : Except Fault (List (Char × String)) :=
  (Text.splitAt ',' message.toList).mapM attributeOf

/-- The first attribute of a letter. -/
def require (as : List (Char × String)) (key : Char) : Except Fault String :=
  match as.lookup key with
  | some value => .ok value
  | none => .error (.missingAttribute key)

/-- The bytes of an attribute that is written in base64. -/
def requireBytes (as : List (Char × String)) (key : Char) : Except Fault Bytes := do
  match Base64.decode (← require as key) with
  | some bs => return bs
  | none => throw (.malformed key)

/-- A server message as text. -/
def decodeText (data : Bytes) : Except Fault String :=
  match Utf8.decode data with
  | .ok s => .ok s
  | .error _ => .error .notUtf8

/-! ## The server's first message -/

/-- What the server sends first: the nonce, which must extend the client's, the salt, and a
positive count of iterations. -/
structure Challenge where
  nonce : String
  salt : Bytes
  iterations : UInt32
  deriving DecidableEq, Repr

def Challenge.read (clientNonce message : String) : Except Fault Challenge := do
  let as ← attributes message
  let nonce ← require as 'r'
  -- The server must add something of its own.
  unless clientNonce.toList.isPrefixOf nonce.toList ∧ nonce ≠ clientNonce do
    throw .nonceMismatch
  let salt ← requireBytes as 's'
  match Integer.readUInt32 (← require as 'i').toList with
  | .ok iterations =>
    if iterations = 0 then throw (.malformed 'i')
    return ⟨nonce, salt, iterations⟩
  | .error _ => throw (.malformed 'i')

/-! ## Keys and proofs -/

/-- The last message without the proof; the channel binding header is `n,,` in base64. -/
def withoutProof (nonce : String) : String := "c=biws,r=" ++ nonce

/-- The text that both sides sign. -/
def authMessage (firstBare serverFirst nonce : String) : Bytes :=
  Utf8.encode (firstBare ++ "," ++ serverFirst ++ "," ++ withoutProof nonce)

namespace Primitives

variable (p : Primitives)

def clientKey (salted : Bytes) : Bytes := p.hmac salted (Utf8.encode "Client Key")

def serverKey (salted : Bytes) : Bytes := p.hmac salted (Utf8.encode "Server Key")

/-- The client's key hidden by its signature. -/
def proof (salted auth : Bytes) : Bytes :=
  Sha256.xor (p.clientKey salted) (p.hmac (p.hash (p.clientKey salted)) auth)

/-- The signature by which the server shows that it knows the password. -/
def serverSignature (salted auth : Bytes) : Bytes := p.hmac (p.serverKey salted) auth

end Primitives

/-! ## The three moves -/

namespace Client

/-- The client's first message; it begins the exchange anew. -/
def clientFirst (c : Client) : Bytes × Client :=
  (Utf8.encode ("n,," ++ c.firstBare), { c with stage := .sentFirst })

/-- The answer to the server's first message: the proof, and the client that waits for the
server's. -/
def serverFirst (p : Primitives) (c : Client) (data : Bytes) : Except Fault (Bytes × Client) := do
  unless c.stage = .sentFirst do throw .outOfOrder
  let message ← decodeText data
  let challenge ← Challenge.read c.nonce message
  let salted := p.stretch c.password challenge.salt challenge.iterations
  let auth := authMessage c.firstBare message challenge.nonce
  let final := withoutProof challenge.nonce ++ ",p=" ++ Base64.encode (p.proof salted auth)
  return (Utf8.encode final, { c with stage := .sentFinal (p.serverSignature salted auth) })

/-- The client that has accepted the server's last message. -/
def serverFinal (c : Client) (data : Bytes) : Except Fault Client := do
  match c.stage with
  | .sentFinal expected =>
    let as ← attributes (← decodeText data)
    -- A refusal counts before any signature.
    if let some reason := as.lookup 'e' then throw (.refused reason)
    let signature ← requireBytes as 'v'
    unless signature = expected do throw .signatureMismatch
    return { c with stage := .finished }
  | _ => throw .outOfOrder

end Client

end PgClient.Scram
