/-
  PgClient.Proofs.Auth.Server

  The server side of SCRAM (RFC 5802, section 5) without channel binding, as a
  server reads and writes the messages that knows the password: the name and the
  nonce from the client's first message, a challenge in return, the proof checked
  against the stored key, and a signature of its own in the end.
-/
import PgClient.Auth.Scram

namespace PgClient.Scram

/-! ## What a server keeps -/

/-- What a server keeps of a password. -/
structure Account where
  salt : Bytes
  iterations : UInt32
  storedKey : Bytes
  serverKey : Bytes

def Account.ofPassword (p : Primitives) (password salt : Bytes) (iterations : UInt32) : Account :=
  let salted := p.stretch password salt iterations
  { salt, iterations
    storedKey := p.hash (p.hmac salted (Utf8.encode "Client Key"))
    serverKey := p.hmac salted (Utf8.encode "Server Key") }

/-! ## The client's first message -/

/-- The header of a client that has no channel to bind to. -/
def header : String := "n,,"

/-- A name without its escapes. An equals sign stands for nothing but itself or a comma. -/
def unescapeName : List Char → Option (List Char)
  | [] => some []
  | '=' :: '2' :: 'C' :: rest => (unescapeName rest).map (',' :: ·)
  | '=' :: '3' :: 'D' :: rest => (unescapeName rest).map ('=' :: ·)
  | '=' :: _ => none
  | c :: rest => (unescapeName rest).map (c :: ·)

/-- What a server learns from a client's first message. -/
structure Opening where
  /-- The message without its header. -/
  bare : String
  user : String
  nonce : String
  deriving DecidableEq

def Opening.read (data : Bytes) : Option Opening := do
  let message ← (Utf8.decode data).toOption
  let bare ← Text.stripLead header.toList message.toList
  -- Extensions may follow the name and the nonce.
  let name :: nonce :: _ := Text.splitAt ',' bare | none
  let user ← unescapeName (← Text.stripLead ['n', '='] name)
  let nonce ← Text.stripLead ['r', '='] nonce
  return {
    bare := String.ofList bare, user := String.ofList user, nonce := String.ofList nonce }

/-! ## The client's last message -/

structure Closing where
  /-- The message without the proof. -/
  withoutProof : String
  binding : Bytes
  nonce : String
  proof : Bytes
  deriving DecidableEq

def Closing.read (data : Bytes) : Option Closing := do
  let message ← (Utf8.decode data).toOption
  let (withoutProof, proof) ← Text.cutLast ',' message.toList
  let binding :: nonce :: _ := Text.splitAt ',' withoutProof | none
  let binding ← Base64.decode (String.ofList (← Text.stripLead ['c', '='] binding))
  let nonce ← Text.stripLead ['r', '='] nonce
  let proof ← Base64.decode (String.ofList (← Text.stripLead ['p', '='] proof))
  return {
    withoutProof := String.ofList withoutProof, binding, nonce := String.ofList nonce, proof }

/-! ## The server's messages -/

/-- A server that has read a client's first message and adds to its nonce. -/
structure Server where
  account : Account
  opening : Opening
  suffix : String

namespace Server

variable (s : Server)

def nonce : String := s.opening.nonce ++ s.suffix

/-- The server's first message. -/
def first : String :=
  "r=" ++ s.nonce ++ ",s=" ++ Base64.encode s.account.salt ++
    ",i=" ++ String.ofList (Integer.natural s.account.iterations.toNat)

/-- The three messages as the server has seen them. -/
def auth (closing : Closing) : Bytes :=
  Utf8.encode (s.opening.bare ++ "," ++ s.first ++ "," ++ closing.withoutProof)

/-- The proof, combined with the signature of the stored key, gives the key that was stored. -/
def Accepts (p : Primitives) (closing : Closing) : Prop :=
  p.hash (Sha256.xor closing.proof (p.hmac s.account.storedKey (s.auth closing))) =
    s.account.storedKey

instance (p : Primitives) (closing : Closing) : Decidable (s.Accepts p closing) :=
  inferInstanceAs (Decidable (_ = _))

/-- The server's last message, for a client that has the password. -/
def last (p : Primitives) (data : Bytes) : Option String := do
  let closing ← Closing.read data
  if closing.binding = Utf8.encode header ∧ closing.nonce = s.nonce ∧ s.Accepts p closing then
    some ("v=" ++ Base64.encode (p.hmac s.account.serverKey (s.auth closing)))
  else none

end Server

end PgClient.Scram
