/-
  PgClient.Proofs.Message.Layout

  How a server writes its messages, kind by kind, and which messages can be
  written at all. The client itself only reads them; this is what its reading is
  held against.
-/
import PgClient.Message.Frame
import PgClient.Message.Frontend

namespace PgClient

/-! ## Parts of messages -/

namespace Wire

/-- The text does not hold the character that ends it. -/
def IsText (s : String) : Prop := '\x00' ∉ s.toList

instance : DecidablePred IsText := fun s => inferInstanceAs (Decidable ('\x00' ∉ s.toList))

/-- The fields of an error or a notice, each after its type, and a zero at the end. -/
def report (fields : List (UInt8 × String)) : Bytes :=
  fields.flatMap (fun (key, text) => key :: string text) ++ [0]

/-- Names of mechanisms, and an empty one at the end. -/
def mechanisms (names : List String) : Bytes := names.flatMap string ++ [0]

def authentication : AuthRequest → Bytes
  | .ok => Bytes.ofInt32 0
  | .cleartext => Bytes.ofInt32 3
  | .md5 salt => Bytes.ofInt32 5 ++ Bytes.ofUInt32 salt
  | .sasl offered => Bytes.ofInt32 10 ++ mechanisms offered
  | .saslContinue data => Bytes.ofInt32 11 ++ data
  | .saslFinal data => Bytes.ofInt32 12 ++ data
  | .unsupported code => Bytes.ofInt32 code

def status : TransactionStatus → UInt8
  | .idle => 'I'.toUInt8
  | .inTransaction => 'T'.toUInt8
  | .failed => 'E'.toUInt8

/-- The flag word of a column: its bits 0, 4, 8 and 12. -/
def flags (o : ColumnOrigin) : Nat :=
  o.nullable.toNat + o.autoincrement.toNat * 16 + o.readOnly.toNat * 256 +
    o.searchable.toNat * 4096

def origin (o : ColumnOrigin) : Bytes :=
  string o.schema ++ string o.table ++ string o.column ++ string o.catalog ++
    Bytes.bigEndian 2 (flags o)

/-- One column, with its origin where it has one. -/
def field (f : FieldDescription) : Bytes :=
  string f.name ++ Bytes.ofInt32 f.tableOid ++ Bytes.ofInt16 f.columnAttr ++
    Bytes.ofInt32 f.typeOid.code ++ Bytes.ofInt16 f.typeSize ++ Bytes.ofInt32 f.typeModifier ++
    format f.format ++ (f.origin.map origin).getD []

/-- The overall format of a copy in one byte, and the formats of its columns. -/
def copyFormats (overall : Format) (columns : List Format) : Bytes :=
  (if overall = .text then 0 else 1) :: counted format columns

end Wire

/-! ## Messages -/

/-- The largest count of a list. -/
def maxCount : Nat := 32767

/-- A report is a map: its types ascend, and none of them is the zero that ends it. -/
def ReportFields.Fits (fields : ReportFields) : Prop :=
  fields.Pairwise (fun f g => f.1 < g.1) ∧ ∀ f ∈ fields, f.1 ≠ 0 ∧ Wire.IsText f.2

def AuthRequest.Fits : AuthRequest → Prop
  | .sasl offered => ∀ name ∈ offered, name ≠ "" ∧ Wire.IsText name
  | .unsupported code => code ∉ [0, 3, 5, 10, 11, 12]
  | _ => True

def ColumnOrigin.Fits (o : ColumnOrigin) : Prop :=
  Wire.IsText o.schema ∧ Wire.IsText o.table ∧ Wire.IsText o.column ∧ Wire.IsText o.catalog

/-- A column has an origin exactly from layout version 1 on. -/
def FieldDescription.Fits (version : Int32) (f : FieldDescription) : Prop :=
  Wire.IsText f.name ∧ (f.origin.isSome ↔ 1 ≤ version) ∧ ∀ o ∈ f.origin, o.Fits

namespace Backend

/-- What can be written of a message. -/
def Fits (version : Int32) : Backend → Prop
  | notice fields | errorResponse fields => fields.Fits
  | authentication request => request.Fits
  | parameterStatus name value => Wire.IsText name ∧ Wire.IsText value
  | rowDescription fields => fields.length ≤ maxCount ∧ ∀ f ∈ fields, f.Fits version
  | dataRow values => values.length ≤ maxCount
  | commandComplete tag => Wire.IsText tag
  | parameterDescription types => types.length ≤ maxCount
  | notification _ channel payload => Wire.IsText channel ∧ Wire.IsText payload
  | copyIn _ columns | copyOut _ columns => columns.length ≤ maxCount
  | backendKeyData .. | readyForQuery _ | copyData _ => True
  | emptyQuery | parseComplete | bindComplete | closeComplete | portalSuspended | noData
  | copyDone => True

/-- The bytes are a body that a server writes for a message. The fields of a report may come in any
order. -/
def Spells : Backend → Bytes → Prop
  | notice fields, body | errorResponse fields, body =>
    ∃ listed : List (UInt8 × String), listed.Perm fields ∧ body = Wire.report listed
  | authentication request, body => body = Wire.authentication request
  | parameterStatus name value, body => body = Wire.string name ++ Wire.string value
  | backendKeyData processId secretKey, body =>
    body = Bytes.ofInt32 processId ++ Bytes.ofInt32 secretKey
  | readyForQuery status, body => body = [Wire.status status]
  | rowDescription fields, body => body = Wire.counted Wire.field fields
  | dataRow values, body => body = Wire.counted Wire.value values
  | commandComplete tag, body => body = Wire.string tag
  | parameterDescription types, body =>
    body = Wire.counted (fun o => Bytes.ofInt32 o.code) types
  | notification processId channel payload, body =>
    body = Bytes.ofInt32 processId ++ Wire.string channel ++ Wire.string payload
  | copyData data, body => body = data
  | copyIn overall columns, body | copyOut overall columns, body =>
    body = Wire.copyFormats overall columns
  | emptyQuery, body | parseComplete, body | bindComplete, body | closeComplete, body
  | portalSuspended, body | noData, body | copyDone, body => body = []

/-- The bytes are a frame that a server of some layout version sends for a message. -/
def Frames (version : Int32) (m : Backend) (frame : Bytes) : Prop :=
  m.Fits version ∧ ∃ body, m.Spells body ∧ body.length + 4 ≤ maxFrameLength.toInt.toNat ∧
    frame = Wire.pack m.tag.toUInt8 body

end Backend

end PgClient
