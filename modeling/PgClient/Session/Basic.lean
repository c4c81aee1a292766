/-
  PgClient.Session.Basic

  The protocol state of one connection: the stream, the messages staged for the
  next write, what the server has said about itself, and a record of all writes
  that were completed and of all that was received.

  A write that fails breaks the session for good; what was staged is lost, but
  for the bytes that got out before the write failed.
-/
import PgClient.Auth.Credentials
import PgClient.Session.Copy
import PgClient.Session.RowCount
import PgClient.Session.Stream
import PgClient.Statement.Basic

namespace PgClient

/-! ## State -/

/-- A notification from another session of the server. -/
structure Notification where
  processId : Int32
  channel : String
  payload : String
  deriving DecidableEq, Repr

/-- One thing that happened on the stream. -/
inductive Event where
  /-- Messages that went out in one write, all of them. -/
  | wrote (batch : List Frontend)
  | received (message : Backend)
  deriving DecidableEq, Repr

structure Session where
  stream : Stream
  /-- Messages that wait for the next write, in order. -/
  staged : List Frontend := []
  /-- All that happened, the latest first. -/
  history : List Event := []
  status : TransactionStatus := .idle
  processId : Int32 := 0
  secretKey : Int32 := 0
  /-- What the server reported of its parameters; of two values of one name the first counts. -/
  parameters : List (String × String) := []
  /-- The layout version that was asked for. -/
  requestedVersion : Int32
  /-- The layout version in force; a server that announces none uses the lowest. -/
  version : Int32 := 0
  context : CodecContext := {}
  /-- The verbs whose completion reports a row count. -/
  countVerbs : List String := PgClient.countVerbs
  /-- The first error of the cycle in progress, held back until its end. -/
  deferred : Option Error := none
  /-- A command has made the prepared statements stale. -/
  stale : Bool := false
  /-- The last notices, oldest first. -/
  notices : List ServerError := []
  /-- The last notifications, oldest first. -/
  notifications : List Notification := []
  /-- The stream is out of step for good. -/
  broken : Bool := false

abbrev SessionM := ExceptT Error (StateM Session)

namespace Session

/-- The value that the server reported for a parameter. -/
def parameter? (s : Session) (name : String) : Option String := s.parameters.lookup name

/-- What went out in completed writes, in order. -/
def written (s : Session) : List Frontend :=
  s.history.reverse.flatMap fun
    | .wrote batch => batch
    | .received _ => []

/-- What was received, in order. -/
def received (s : Session) : List Backend :=
  s.history.reverse.filterMap fun
    | .wrote _ => none
    | .received m => some m

@[simp] theorem written_wrote (s : Session) (batch : List Frontend) (h : List Event) :
    { s with history := .wrote batch :: h }.written = { s with history := h }.written ++ batch := by
  simp [written]

@[simp] theorem written_received (s : Session) (m : Backend) (h : List Event) :
    { s with history := .received m :: h }.written = { s with history := h }.written := by
  simp [written]

@[simp] theorem received_wrote (s : Session) (batch : List Frontend) (h : List Event) :
    { s with history := .wrote batch :: h }.received = { s with history := h }.received := by
  simp [received]

@[simp] theorem received_received (s : Session) (m : Backend) (h : List Event) :
    { s with history := .received m :: h }.received = { s with history := h }.received ++ [m] := by
  simp [received]

/-- How many notices and notifications are kept. -/
def maxKept : Nat := 100

/-- A list with one more item at the end, and without its first where it was full. -/
def keep {α : Type} (items : List α) (item : α) : List α :=
  (if items.length = maxKept then items.drop 1 else items) ++ [item]

theorem length_keep_le {α : Type} {items : List α} (h : items.length ≤ maxKept) (item : α) :
    (keep items item).length ≤ maxKept := by
  by_cases full : items.length = maxKept
  · simp [keep, full, maxKept]
  · simp only [keep, full, if_false, List.length_append, List.length_singleton]
    omega

/-! ## Writing -/

/-- How many bytes are staged. -/
def stagedSize (s : Session) : Nat := s.staged.foldl (fun n m => n + m.size) 0

end Session

namespace SessionM

/-- Stages a message; nothing is sent before the next flush. -/
def stage (m : Frontend) : SessionM Unit :=
  modify fun s => { s with staged := s.staged ++ [m] }

/-- Sends what is staged in one write. -/
def flush : SessionM Unit := do
  let s ← get
  if s.staged = [] then return
  match s.stream.write (Frontend.encodeAll s.staged) with
  | (.ok (), stream) =>
    set { s with stream, staged := [], history := .wrote s.staged :: s.history }
  -- The server may have got any part of it, so the session cannot go on.
  | (.error f, stream) =>
    set { s with stream, staged := [], broken := true }
    throw (.io f)

/-! ## Reading -/

/-- The next message of the server. -/
def receive : SessionM Backend := do
  let s ← get
  let (read, incoming) := (Receive.message s.version).run s.stream.incoming
  let s := { s with stream := { s.stream with incoming } }
  match read with
  | .ok m =>
    set { s with history := .received m :: s.history }
    return m
  | .error e =>
    set s
    throw e

end SessionM

/-! ## Parameters -/

namespace Session

/-- The effect of a parameter that the client has to know. -/
def applyParameter (s : Session) (name value : String) : Session :=
  match name with
  | "client_encoding" =>
    match ClientEncoding.ofServerName? value with
    | some encoding => { s with context := { s.context with encoding } }
    | none => s
  | "integer_datetimes" =>
    let on := value.toList.map Char.toLower = ['o', 'n']
    { s with context := { s.context with integerDatetimes := on } }
  | "server_version" => { s with countVerbs := countVerbsFor value }
  | "server_protocol_version" =>
    match Integer.readInt32 (Text.trim value.toList) with
    | .ok offered =>
      { s with version := if offered < s.requestedVersion then offered else s.requestedVersion }
    | .error _ => s
  | _ => s

/-- A parameter as the server reports it. -/
def setParameter (s : Session) (name value : String) : Session :=
  let s := s.applyParameter name value
  { s with parameters := (name, value) :: s.parameters }

theorem parameter?_setParameter (s : Session) (name value : String) :
    (s.setParameter name value).parameter? name = some value := by
  simp [parameter?, setParameter]

end Session

end PgClient
