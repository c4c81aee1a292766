/-
  PgClient.Message.Body

  Reading the body of a server message. A reader takes what it needs from the
  front and leaves the rest; each checks that enough is left before it takes
  anything.
-/
import PgClient.Message.Backend
import PgClient.Message.Violation
import PgClient.Text.Utf8

namespace PgClient

/-- A reader of message bodies. -/
abbrev Body := StateT Bytes (Except Violation)

namespace Body

/-! ## Words and strings -/

/-- Exactly `n` bytes. -/
def take (n : Nat) : Body Bytes := fun bs =>
  match Bytes.split? n bs with
  | some parts => .ok parts
  | none => .error (.truncated n bs.length)

def uint8 : Body UInt8 := do return UInt8.ofNat (Bytes.value (← take 1))

def int16 : Body Int16 := do return Bytes.toInt16 (← take 2)

def int32 : Body Int32 := do return Bytes.toInt32 (← take 4)

/-- A text up to its terminator; broken UTF-8 in it is replaced. -/
def string : Body String := fun bs =>
  if 0 ∈ bs then
    .ok (Utf8.decodeLossy (bs.takeWhile (· ≠ 0)), (bs.dropWhile (· ≠ 0)).drop 1)
  else .error .unterminatedString

/-- All that is left. -/
def rest : Body Bytes := fun bs => .ok (bs, [])

/-! ## Lists -/

/-- One item after another, as many as given. -/
def times {α : Type} (item : Body α) : Nat → Body (List α)
  | 0 => return []
  | n + 1 => do
    let x ← item
    return x :: (← times item n)

/-- A counted list; a negative count is none. -/
def counted {α : Type} (item : Body α) : Body (List α) := do
  times item (← int16).toInt.toNat

/-- The fields of a report up to a zero type or the end; of one type the last counts. -/
def reportFields : Nat → ReportFields → Body ReportFields
  | 0, fields => return fields
  | bound + 1, fields => do
    if (← get) = [] then return fields
    let key ← uint8
    if key = 0 then return fields
    reportFields bound (fields.insert key (← string))

/-- The fields of an error or a notice. -/
def report : Body ReportFields := do
  reportFields (← get).length []

/-- Names of mechanisms up to an empty one or the end. -/
def mechanisms : Nat → Body (List String)
  | 0 => return []
  | bound + 1 => do
    if (← get) = [] then return []
    let name ← string
    if name = "" then return []
    return name :: (← mechanisms bound)

/-! ## Parts of messages -/

def format : Body Format := do return .ofCode (← int16)

def authentication : Body AuthRequest := do
  let code ← int32
  if code = 0 then return .ok
  else if code = 3 then return .cleartext
  else if code = 5 then return .md5 (Bytes.toUInt32 (← take 4))
  else if code = 10 then return .sasl (← mechanisms (← get).length)
  else if code = 11 then return .saslContinue (← rest)
  else if code = 12 then return .saslFinal (← rest)
  else return .unsupported code

def status : Body TransactionStatus := do
  let code ← uint8
  if code = 'I'.toUInt8 then return .idle
  else if code = 'T'.toUInt8 then return .inTransaction
  else if code = 'E'.toUInt8 then return .failed
  else throw (.unknownStatus code)

/-- The bit of a flag word. -/
def flag (flags : Int16) (bit : Nat) : Bool := flags.toUInt16.toNat.testBit bit

def origin : Body ColumnOrigin := do
  let schema ← string
  let table ← string
  let column ← string
  let catalog ← string
  let flags ← int16
  return {
    schema, table, column, catalog
    nullable := flag flags 0
    autoincrement := flag flags 4
    readOnly := flag flags 8
    searchable := flag flags 12 }

/-- One column; from layout version 1 on its origin follows. -/
def field (version : Int32) : Body FieldDescription := do
  let name ← string
  let tableOid ← int32
  let columnAttr ← int16
  let typeOid ← int32
  let typeSize ← int16
  let typeModifier ← int32
  -- The format in force is the one asked for in Bind; this one is kept as it came.
  let format ← format
  let origin ← if 1 ≤ version then some <$> origin else pure none
  return ⟨name, tableOid, columnAttr, ⟨typeOid⟩, typeSize, typeModifier, format, origin⟩

/-- A value with its length in front; a negative length is that of a missing one. -/
def value : Body (Option Bytes) := do
  let length ← int32
  if length < 0 then return none else return some (← take length.toInt.toNat)

/-- The overall format of a copy and the formats of its columns. -/
def copyFormats : Body (Format × List Format) := do
  let overall ← uint8
  return (if overall = 0 then .text else .binary, ← counted format)

/-! ## Messages -/

/-- The message that a tag announces. -/
def message (tag : UInt8) (version : Int32) : Body Backend :=
  match Char.ofNat tag.toNat with
  | 'N' => do return .notice (← report)
  | 'R' => do return .authentication (← authentication)
  | 'S' => do return .parameterStatus (← string) (← string)
  | 'K' => do return .backendKeyData (← int32) (← int32)
  | 'Z' => do return .readyForQuery (← status)
  | 'T' => do return .rowDescription (← counted (field version))
  | 'E' => do return .errorResponse (← report)
  | 'I' => return .emptyQuery
  | 'D' => do return .dataRow (← counted value)
  | 'C' => do return .commandComplete (← string)
  | '1' => return .parseComplete
  | '2' => return .bindComplete
  | '3' => return .closeComplete
  | 's' => return .portalSuspended
  | 'n' => return .noData
  | 't' => do return .parameterDescription ((← counted int32).map Oid.mk)
  | 'A' => do return .notification (← int32) (← string) (← string)
  | 'c' => return .copyDone
  | 'd' => do return .copyData (← rest)
  | 'G' => do
    let (format, columns) ← copyFormats
    return .copyIn format columns
  | 'H' => do
    let (format, columns) ← copyFormats
    return .copyOut format columns
  | _ => throw (.unknownTag tag)

end Body

/-- The message in the body of a frame; what the message does not use is ignored. -/
def Backend.decode (tag : UInt8) (body : Bytes) (version : Int32) : Except Violation Backend :=
  (Body.message tag version body).map (·.1)

end PgClient
