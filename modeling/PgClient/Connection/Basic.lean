/-
  PgClient.Connection.Basic

  The state of a connection, and the steps of its session inside it.
-/
import PgClient.Placeholder.Arguments
import PgClient.Session.Dispatch

namespace PgClient

structure Connection where
  session : Session
  cache : StatementCache
  codec : Codec
  config : Config
  /-- The label of this process in statement names. -/
  process : String
  /-- The number of the next prepared statement. -/
  sequence : Nat := 1
  /-- The end was announced to the server, or need not be. -/
  terminated : Bool := false

abbrev ConnectionM := ExceptT Error (StateM Connection)

namespace ConnectionM

/-- A step of the session. -/
def onSession {α : Type} (step : SessionM α) : ConnectionM α := do
  let c ← get
  let (result, session) := step.run c.session
  set { c with session }
  MonadExcept.ofExcept result

/-- Stages a message; nothing is sent before the next flush. -/
def stage (m : Frontend) : ConnectionM Unit := onSession (SessionM.stage m)

/-- Sends what is staged in one write. -/
def flush : ConnectionM Unit := onSession SessionM.flush

/-- One cycle of the session: its result, and the receiver after it. -/
def cycle (receiver : Receiver) : StateM Connection (Except Error Unit × Receiver) := do
  let c ← get
  let (result, receiver, session) := c.session.cycle receiver
  set { c with session }
  return (result, receiver)

/-- Sends what is staged and runs a cycle from which nothing but its end is expected. -/
def roundTrip : ConnectionM Unit := do
  flush
  let (result, _) ← cycle .discard
  MonadExcept.ofExcept result

end ConnectionM

end PgClient
