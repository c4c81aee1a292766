/-
  PgClient.Auth.Credentials

  Where the secret for a password challenge comes from. A source is asked at the
  time of the challenge; sources are found by name in a registry.
-/
import PgClient.Digest.Md5
import PgClient.Error

namespace PgClient

/-- The values of environment variables. -/
abbrev Environment := String → Option Bytes

/-- Supplies the secret for a challenge. -/
abbrev CredentialSource := Environment → Except CredentialFault Bytes

namespace CredentialSource

/-- A fixed secret. -/
def fixed (secret : Bytes) : CredentialSource := fun _ => .ok secret

/-- The value of an environment variable, with broken UTF-8 in it replaced. -/
def ofVariable (name : String) : CredentialSource := fun env =>
  match env name with
  | some bs => .ok (Utf8.encode (Utf8.decodeLossy bs))
  | none => .error (.variableUnset name)

/-- No secret: every challenge fails. -/
def absent : CredentialSource := fun _ => .error .noPassword

end CredentialSource

/-- Makes the source for a connection. -/
abbrev CredentialFactory := Config → Except Error CredentialSource

/-- Factories by lower-case name; of two of one name the first counts. -/
structure CredentialRegistry where
  factories : List (String × CredentialFactory)

namespace CredentialRegistry

def empty : CredentialRegistry := ⟨[]⟩

/-- The registry with one more factory, under a name in any letter case. -/
def register (r : CredentialRegistry) (name : String) (factory : CredentialFactory) :
    CredentialRegistry :=
  ⟨(name.map Char.toLower, factory) :: r.factories⟩

/-- The configured password, if there is one. -/
def passwordFactory : CredentialFactory := fun config =>
  match config.password with
  | some p => .ok (.fixed (Utf8.encode p))
  | none => .ok .absent

/-- The configured password as `password`, and the environment's as `env`. -/
def builtins : CredentialRegistry :=
  (empty.register "password" passwordFactory).register "env" fun _ => .ok (.ofVariable "PGPASSWORD")

/-- The source that a name in any letter case stands for. -/
def resolve (r : CredentialRegistry) (name : String) (config : Config) :
    Except Error CredentialSource :=
  match r.factories.lookup (name.map Char.toLower) with
  | some factory => factory config
  | none => .error (.credentials (.unknownProvider name))

end CredentialRegistry

/-! ## MD5 challenges -/

/-- The answer to an MD5 challenge: the digest of password and user, in hex, digested again
with the salt. -/
def md5Response (user : String) (password : Bytes) (salt : UInt32) : Bytes :=
  -- Digests are chained in their written form.
  let hexBytes (bs : Bytes) : Bytes := (Bytes.hex bs).map Char.toUInt8
  let inner := hexBytes (Md5.digest (password ++ Utf8.encode user))
  Utf8.encode "md5" ++ hexBytes (Md5.digest (inner ++ Bytes.ofUInt32 salt))

end PgClient
