/-
  PgClient.Connection.Execute

  The execution of statements, each in two cycles. The first parses and
  describes the statement and is left out where the cache holds it; the second
  binds and executes it. After that the unnamed statement is closed, and after a
  command that makes statements stale every cached one is, each in a cycle of
  its own.

  What is wrong with a call is found before anything of it is sent, except that
  the implicit BEGIN comes before the look at its parameters.
-/
import PgClient.Connection.Basic

namespace PgClient.ConnectionM

/-! ## The call -/

/-- One call: the converted SQL and the values of its parameters in order. -/
structure Call where
  sql : String
  values : List Value

/-- A call on a connection that is fit for use. -/
def call (sql : String) (args : Placeholder.Arguments) : ConnectionM Call := do
  let c ← get
  if c.session.broken || c.terminated then throw .connectionClosed
  let arranged : Except Placeholder.Fault Call := do
    let (sql, order) ← Placeholder.convert c.config.style sql
    return ⟨sql, ← order.arrange args⟩
  let call ← MonadExcept.ofExcept (arranged.mapError Error.placeholder)
  if Error.maxParameters < call.values.length then
    throw (.tooManyParameters call.values.length)
  return call

/-- The bytes of a parameter; a null has none. -/
def encodeParam (ctx : CodecContext) : Value × ParamEncoder → Except Error (Option Bytes)
  | (.null, _) => .ok none
  | (v, encoder) => (encoder.encode v ctx).map some

/-! ## The first cycle -/

/-- The number of a new statement. -/
def takeSequence : ConnectionM Nat := do
  let c ← get
  set { c with sequence := c.sequence + 1 }
  return c.sequence

/-- Parses and describes a statement. -/
def prepare (named : Bool) (sql : String) (encoders : List ParamEncoder) :
    ConnectionM Statement := do
  -- The number is used up even if the statement fails or stays unnamed.
  let sequence ← takeSequence
  let c ← get
  let name := if named then Statement.nameOf c.process sequence else ""
  let query ← MonadExcept.ofExcept (c.session.context.encodeText sql)
  stage (.parse name query (encoders.map (·.oid)))
  stage (.describe .statement name)
  stage .sync
  flush
  let (result, receiver) ← cycle (.describe {})
  MonadExcept.ofExcept result
  match receiver with
  | .describe { paramTypes, fields := some fields } =>
    let columns := fields.map fun field => ⟨field, c.codec.lookup field.typeOid⟩
    return { name, sequence, encoders, paramTypes, columns }
  | _ => throw (.violation .notDescribed)

/-- The statement of a key, from the cache or newly prepared; a statement that had to go for it
is closed with the next write. -/
def obtain (key : StatementKey) (encoders : List ParamEncoder) : ConnectionM Statement := do
  let cache := (← get).cache
  let (found, cache) ← cache.getOrCreate key (prepare cache.isEnabled key.sql encoders)
  modify fun c => { c with cache }
  -- The server forgets the statement before it sees the next Bind.
  match found.evicted with
  | some evicted => stage (.close .statement evicted.name)
  | none => pure ()
  return found.value

/-! ## The second cycle -/

/-- Obtains the statement of a call and sends its Bind. -/
def bind (call : Call) : ConnectionM Statement := do
  let c ← get
  let encoders ← MonadExcept.ofExcept (call.values.mapM c.codec.inspect)
  let params ← MonadExcept.ofExcept
    ((call.values.zip encoders).mapM (encodeParam c.session.context))
  let statement ← obtain (.of call.sql encoders) encoders
  stage (.bind "" statement.name (statement.encoders.map (·.format)) params
    statement.resultFormats)
  stage (.execute "" 0)
  stage .sync
  flush
  return statement

/-- Closes the unnamed statement. It has a cycle of its own, so that the server does not skip
it after a failed Bind or Execute. -/
def releaseUnnamed : ConnectionM Unit := do
  if (← get).session.broken then return
  stage (.close .statement "")
  stage .sync
  roundTrip

/-- Forgets every cached statement and closes it on the server. -/
def invalidate : ConnectionM Unit := do
  let c ← get
  set { c with cache := c.cache.clear }
  if c.cache.drained.isEmpty || c.session.broken then return
  c.cache.drained.forM fun statement => stage (.close .statement statement.name)
  stage .sync
  roundTrip

/-- Invalidates the cache if a command has made it stale since the last time. -/
def invalidateStale : ConnectionM Unit := do
  let c ← get
  unless c.session.stale do return
  set { c with session := { c.session with stale := false } }
  invalidate

/-- Executes a call. The statement is released and the cache invalidated whatever came of the
execution; of several errors the first counts. -/
def perform (call : Call) (copy : CopyStreams) :
    StateM Connection (Except Error (Statement × Outcome) × CopyStreams) := do
  match ← (bind call).run with
  | .error e => return (.error e, copy)
  | .ok statement =>
    let (result, receiver) ← cycle (.rows statement.columns {} copy)
    -- Both run even after an error, to leave no statement behind.
    let released ← if statement.isUnnamed then releaseUnnamed.run else pure (.ok ())
    let invalidated ← invalidateStale.run
    let (outcome, copy) :=
      match receiver with
      | .rows _ outcome copy => (outcome, copy)
      | _ => ({}, copy)
    let done : Except Error (Statement × Outcome) := do
      result
      released
      invalidated
      return (statement, outcome)
    return (done, copy)

/-- Opens a transaction. -/
def beginTransaction : ConnectionM Unit := do
  let call ← call "BEGIN TRANSACTION" .none
  let (result, _) ← perform call {}
  discard (MonadExcept.ofExcept result)

/-- Executes one statement, after an implicit BEGIN if one is asked for and no transaction is
open. -/
def execute (sql : String) (args : Placeholder.Arguments) (copy : CopyStreams)
    (implicitBegin : Bool) :
    StateM Connection (Except Error (Statement × Outcome) × CopyStreams) := do
  match ← (call sql args).run with
  | .error e => return (.error e, copy)
  | .ok call =>
    -- Placeholders and arguments are sound by now; types are looked at inside the transaction.
    let opens := implicitBegin && (← get).session.status = .idle
    match ← if opens then beginTransaction.run else pure (.ok ()) with
    | .error e => return (.error e, copy)
    | .ok () => perform call copy

end PgClient.ConnectionM

/-! ## The calls of a user -/

namespace PgClient.Connection

open ConnectionM

/-- Executes one statement; outside a transaction and without autocommit it opens one. -/
def run (sql : String) (args : Placeholder.Arguments) (copy : CopyStreams) :
    StateM Connection (Except Error (Statement × Outcome) × CopyStreams) := do
  execute sql args copy !(← get).config.autocommit

/-- Executes one statement and gives its rows. -/
def query (sql : String) (args : Placeholder.Arguments) :
    StateM Connection (Except Error (List Row)) := do
  let (result, _) ← run sql args {}
  return result.map fun (_, outcome) => outcome.rows

/-- Executes a statement that has no parameters and opens no transaction. -/
def command (sql : String) : StateM Connection (Except Error Unit) := do
  let (result, _) ← execute sql .none {} false
  return result.map fun _ => ()

def commit : StateM Connection (Except Error Unit) := command "COMMIT"

def rollback : StateM Connection (Except Error Unit) := command "ROLLBACK"

def setAutocommit (c : Connection) (on : Bool) : Connection :=
  { c with config := { c.config with autocommit := on } }

/-- The notifications that have come in, which are forgotten with this. -/
def takeNotifications (c : Connection) : List Notification × Connection :=
  (c.session.notifications, { c with session := { c.session with notifications := [] } })

end PgClient.Connection
