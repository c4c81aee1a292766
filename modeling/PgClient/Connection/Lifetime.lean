/-
  PgClient.Connection.Lifetime

  How a connection begins and ends. It begins with the startup packet and a
  cycle in which the server asks for secrets; it ends with a Terminate, unless
  its stream is out of step.
-/
import PgClient.Connection.Basic

namespace PgClient

/-- What a connection is given besides its configuration. -/
structure ConnectOptions where
  codec : Codec := CodecTable.standard.codec
  credentials : CredentialRegistry := .builtins
  environment : Environment := fun _ => none
  /-- The random bytes for the SASL nonce. -/
  random : Bytes := []
  primitives : Scram.Primitives := Scram.sha256
  /-- The label of this process in statement names. -/
  process : String := ""

namespace ConnectionM

/-- Announces the end to the server, once; a broken session is left alone. -/
def terminate : ConnectionM Unit := do
  let c ← get
  if c.terminated then return
  set { c with terminated := true }
  if c.session.broken then return
  stage .terminate
  flush

/-- Sends the startup packet and answers the server's challenges. -/
def startup (handshake : Handshake) : ConnectionM Unit := do
  stage (.startup Wire.protocolVersion (← get).config.startupParams)
  flush
  let (result, _) ← cycle (.startup handshake)
  MonadExcept.ofExcept result

end ConnectionM

namespace Connection

/-- A connection of which nothing was sent yet. -/
def fresh (stream : Stream) (config : Config) (options : ConnectOptions) : Connection where
  session := { stream, requestedVersion := config.protocolVersion }
  cache := .empty config.maxPreparedStatements.toNat
  codec := options.codec
  config := config
  process := options.process

/-- Closes a connection: whether the server could be told, and the connection after it. -/
def close (c : Connection) : Except Error Unit × Connection :=
  ConnectionM.terminate.run c

/-- Opens a connection over a stream. Where that fails the connection is the closed one, which
still tells what was sent. -/
def connect (stream : Stream) (config : Config) (options : ConnectOptions) :
    Except Error Unit × Connection :=
  let c := fresh stream config options
  match options.credentials.resolve config.credentialProvider config with
  | .error e => (.error e, { c with terminated := true })
  | .ok source =>
    let handshake : Handshake :=
      { user := config.user
        source
        environment := options.environment
        random := options.random
        primitives := options.primitives }
    match (ConnectionM.startup handshake).run c with
    | (.ok (), c) => (.ok (), c)
    -- A refused connection is closed at once.
    | (.error e, c) => (.error e, c.close.2)

end Connection

end PgClient
