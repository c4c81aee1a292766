/-
  PgClient.Session.Dispatch

  One cycle of a session: messages are received and handled until the server is
  ready again. An error that the server reports, or that spoils a single row, is
  held back until then, so that the stream stays in step; an error that leaves
  the stream out of step ends the cycle at once and breaks the session.
-/
import PgClient.Session.Basic

namespace PgClient

/-! ## What a cycle collects -/

/-- The rows and counts of one execution. -/
structure Outcome where
  rows : List Row := []
  /-- The sum of the counts of the verbs that report one. -/
  rowCount : Int64 := unknownCount
  /-- The sum of all reported counts, or of the rows received where none is reported. -/
  reportedCount : Int64 := unknownCount
  /-- The rows since the last completed command. -/
  rowsInCommand : Nat := 0

/-- What the server says about a statement. -/
structure Described where
  paramTypes : List Oid := []
  /-- No fields where the statement returns no rows. -/
  fields : Option (List FieldDescription) := none

/-- What is needed to answer the server's challenges. -/
structure Handshake where
  user : String
  source : CredentialSource
  environment : Environment
  /-- The random bytes for the nonce. -/
  random : Bytes
  primitives : Scram.Primitives
  /-- The SASL exchange that is going on. -/
  sasl : Option Scram.Client := none

/-- Who takes what is received in a cycle. -/
inductive Receiver where
  /-- Nothing but the end of the cycle is expected. -/
  | discard
  | startup (handshake : Handshake)
  | describe (described : Described)
  | rows (columns : List Column) (outcome : Outcome) (copy : CopyStreams)

structure Cycle where
  session : Session
  receiver : Receiver

abbrev CycleM := ExceptT Error (StateM Cycle)

namespace CycleM

/-- A step of the session inside a cycle. -/
def onSession {α : Type} (step : SessionM α) : CycleM α := do
  let c ← get
  let (result, session) := step.run c.session
  set { c with session }
  match result with
  | .ok a => return a
  | .error e => throw e

def modifySession (f : Session → Session) : CycleM Unit :=
  modify fun c => { c with session := f c.session }

def setReceiver (r : Receiver) : CycleM Unit :=
  modify fun c => { c with receiver := r }

/-- Holds an error back, unless there is one already. -/
def defer (e : Error) : CycleM Unit :=
  modifySession fun s => { s with deferred := s.deferred.or (some e) }

/-- Stages one message and sends it. -/
def send (m : Frontend) : CycleM Unit := onSession do
  SessionM.stage m
  SessionM.flush

/-! ## Authentication -/

/-- The secret for a challenge. -/
def secret (h : Handshake) : CycleM Bytes :=
  match h.source h.environment with
  | .ok bs => return bs
  | .error f => throw (.credentials f)

def authenticate (request : AuthRequest) (h : Handshake) : CycleM Unit := do
  match request with
  | .ok => return
  | .cleartext => send (.password (← secret h))
  | .md5 salt => send (.password (md5Response h.user (← secret h) salt))
  | .sasl offered =>
    -- The secret is asked for before the offer is looked at.
    let client := Scram.Client.ofRandom h.user (← secret h) h.random
    unless offered.contains Scram.mechanism do throw (.credentials (.noMechanism offered))
    let (first, client) := client.clientFirst
    send (.saslInitial Scram.mechanism first)
    setReceiver (.startup { h with sasl := some client })
  | .saslContinue data =>
    match h.sasl with
    | none => throw (.violation .saslContinueBeforeStart)
    | some client =>
      match client.serverFirst h.primitives data with
      | .error f => throw (.credentials (.scram f))
      | .ok (final, client) =>
        setReceiver (.startup { h with sasl := some client })
        send (.saslResponse final)
  -- The exchange is over with this message, whatever it says.
  | .saslFinal data =>
    match h.sasl with
    | none => throw (.violation .saslFinalBeforeStart)
    | some client =>
      setReceiver (.startup { h with sasl := none })
      match client.serverFinal data with
      | .error f => throw (.credentials (.scram f))
      | .ok _ => return
  | .unsupported code => throw (.credentials (.method code))

/-! ## Rows -/

/-- One value of a row. -/
def decodeValue (ctx : CodecContext) : Option Bytes × Column → Except Error Value
  | (none, _) => .ok .null
  | (some bs, column) => column.decoder.decode bs ctx

/-- One row, which must be as wide as its description. -/
def decodeRow (ctx : CodecContext) (columns : List Column) (values : List (Option Bytes)) :
    Except Error Row :=
  if values.length = columns.length then (values.zip columns).mapM (decodeValue ctx)
  else .error (.violation (.rowWidth values.length columns.length))

def dataRow (values : List (Option Bytes)) : CycleM Unit := do
  let c ← get
  match c.receiver with
  | .rows columns outcome copy =>
    match decodeRow c.session.context columns values with
    | .ok row =>
      let outcome :=
        { outcome with
          rows := outcome.rows ++ [row]
          rowsInCommand := outcome.rowsInCommand + 1 }
      setReceiver (.rows columns outcome copy)
    -- One bad row does not put the stream out of step.
    | .error e => defer e
  | _ => return

/-- The outcome after a command with this tag has completed. -/
def completed (verbs : List String) (tag : String) (o : Outcome) : Outcome :=
  let reported := CommandTag.count? tag
  -- Verbs are compared as the server writes them, in capitals.
  let counted := verbs.contains (String.ofList (CommandTag.verb tag))
  let received := if 0 < o.rowsInCommand then some (Int64.ofNat o.rowsInCommand) else none
  { o with
    rowCount := match reported with
      | some n => if counted then accumulate o.rowCount n else o.rowCount
      | none => o.rowCount
    reportedCount := match reported.or received with
      | some n => accumulate o.reportedCount n
      | none => o.reportedCount
    rowsInCommand := 0 }

def commandComplete (tag : String) : CycleM Unit := do
  if CommandTag.invalidates tag then modifySession fun s => { s with stale := true }
  let c ← get
  match c.receiver with
  | .rows columns outcome copy =>
    setReceiver (.rows columns (completed c.session.countVerbs tag outcome) copy)
  | _ => return

/-! ## Copying -/

/-- How many staged bytes are enough for a write in the middle of a copy. -/
def copyFlushSize : Nat := 4 * copyChunk

/-- Stages the parts of a source, sending whenever enough is staged. -/
def sendChunks : List Bytes → CycleM Unit
  | [] => return
  | chunk :: chunks => do
    onSession do
      SessionM.stage (.copyData chunk)
      if copyFlushSize ≤ (← get).stagedSize then SessionM.flush
    sendChunks chunks

/-- Answers a request for copy data; it ends in exactly one CopyDone or CopyFail. -/
def copyIn : Option CopySource → CycleM Unit
  | none => do
    send (.copyFail "no copy source supplied")
    defer (.copy .noSource)
  | some source => do
    sendChunks source.chunks
    match source.failure with
    | none => onSession (SessionM.stage .copyDone)
    | some reason =>
      onSession (SessionM.stage (.copyFail ("copy source failed: " ++ reason)))
      defer (.copy (.source reason))
    onSession SessionM.flush

/-- Gives copy data to the sink; that there is none was reported when the copy began. -/
def copyData (data : Bytes) : CycleM Unit := do
  match (← get).receiver with
  | .rows columns outcome copy =>
    match copy.sink with
    | none => return
    | some sink =>
      match sink.write data with
      | .ok sink => setReceiver (.rows columns outcome { copy with sink := some sink })
      | .error reason => defer (.copy (.sink reason))
  | _ => return

/-! ## Messages -/

def handle (m : Backend) : CycleM Unit := do
  match m with
  | .notice fields =>
    modifySession fun s => { s with notices := Session.keep s.notices ⟨fields⟩ }
  | .authentication request =>
    match (← get).receiver with
    | .startup handshake => authenticate request handshake
    | _ => throw (.violation .lateAuthentication)
  | .parameterStatus name value => modifySession fun s => s.setParameter name value
  | .backendKeyData processId secretKey =>
    modifySession fun s => { s with processId, secretKey }
  | .readyForQuery status => modifySession fun s => { s with status }
  | .rowDescription fields =>
    match (← get).receiver with
    | .describe d => setReceiver (.describe { d with fields := some fields })
    | _ => return
  | .errorResponse fields => defer (.server ⟨fields⟩)
  | .emptyQuery => defer .emptyQuery
  | .dataRow values => dataRow values
  | .commandComplete tag => commandComplete tag
  | .parseComplete | .bindComplete | .closeComplete | .portalSuspended | .copyDone => return
  | .noData =>
    match (← get).receiver with
    | .describe d => setReceiver (.describe { d with fields := some [] })
    | _ => return
  | .parameterDescription types =>
    match (← get).receiver with
    | .describe d => setReceiver (.describe { d with paramTypes := types })
    | _ => return
  | .notification processId channel payload =>
    modifySession fun s =>
      { s with notifications := Session.keep s.notifications ⟨processId, channel, payload⟩ }
  | .copyData data => copyData data
  | .copyIn _ _ =>
    match (← get).receiver with
    -- What is sent now is not sent again by a later copy.
    | .rows columns outcome copy =>
      setReceiver (.rows columns outcome
        { copy with source := copy.source.map CopySource.exhausted })
      copyIn copy.source
    | _ => copyIn none
  | .copyOut _ _ =>
    match (← get).receiver with
    | .rows _ _ { sink := some _, .. } => return
    | _ => defer (.copy .noSink)

/-- Receives and handles messages until the server is ready; `bound` limits their number. -/
def untilReady : Nat → CycleM Unit
  | 0 => throw .connectionClosed
  | bound + 1 => do
    let m ← onSession SessionM.receive
    handle m
    match m with
    | .readyForQuery _ => return
    | _ => untilReady bound

end CycleM

/-! ## The cycle -/

/-- The error of a cycle that ended early. A server often closes the stream after a fatal
error, which then says more than the end of the stream. -/
def Error.ofAborted (deferred : Option Error) (e : Error) : Error :=
  match deferred, e with
  | some first, .connectionClosed => first
  | some first, .io _ => first
  | _, e => e

/-- Runs one cycle. Every message takes at least five bytes of the stream, so the bound on
their number is never met. -/
def Session.cycle (receiver : Receiver) (s : Session) : Except Error Unit × Receiver × Session :=
  if s.broken then (.error .connectionClosed, receiver, s)
  else
    let bound := s.stream.incoming.unread.length + 1
    let start : Cycle := { session := { s with deferred := none }, receiver }
    let (result, c) := ((CycleM.untilReady bound).run).run start
    let deferred := c.session.deferred
    let session := { c.session with deferred := none }
    match result with
    | .ok () =>
      match deferred with
      | none => (.ok (), c.receiver, session)
      | some e => (.error e, c.receiver, session)
    | .error e => (.error (.ofAborted deferred e), c.receiver, { session with broken := true })

end PgClient
