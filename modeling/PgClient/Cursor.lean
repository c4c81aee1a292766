/-
  PgClient.Cursor

  A cursor holds the result of its last execution: the rows not fetched yet, the
  counts, and the description of the columns. A failed call leaves all of it as
  it was.
-/
import PgClient.Connection.Execute

namespace PgClient

/-! ## Column descriptions -/

structure Description where
  name : String
  typeCode : Oid
  displaySize : Option Int := none
  internalSize : Option Int := none
  precision : Option Int := none
  scale : Option Int := none
  /-- Known only under the extended result metadata layout. -/
  nullOk : Option Bool := none
  field : FieldDescription
  deriving DecidableEq, Repr

/-- The description of a column. The type modifier holds four more than the length of a
character type, and four more than precision and scale of a numeric in 16 bits each. -/
def Description.of (field : FieldDescription) : Description :=
  let size := field.typeSize.toInt
  -- A modifier below four says nothing.
  let modifier := field.typeModifier.toInt - 4
  let numeric := field.typeOid = .numeric && 0 ≤ modifier
  let character := (field.typeOid = .varchar || field.typeOid = .bpchar) && 0 ≤ modifier
  { name := field.name
    typeCode := field.typeOid
    displaySize := if character then some modifier else none
    internalSize := if 0 < size then some size else none
    precision := if numeric then some (modifier / 65536 % 65536) else none
    scale := if numeric then some (modifier % 65536) else none
    nullOk := field.origin.map (·.nullable)
    field }

/-! ## State -/

structure Cursor where
  /-- The rows not fetched yet. -/
  rows : List Row := []
  rowCount : Int64 := unknownCount
  reportedCount : Int64 := unknownCount
  description : Option (List Description) := none
  /-- The number of the statement behind the result. -/
  statement : Option Nat := none
  /-- How many rows `fetchMany` gives where it is not told. -/
  arraySize : Nat := 1
  copySource : Option CopySource := none
  copySink : Option CopySink := none
  closed : Bool := false

namespace Cursor

/-- A statement's columns, if it returns rows. -/
def describe (s : Statement) : Option (List Description) :=
  if s.returnsRows then some (s.columns.map fun column => .of column.field) else none

def copyStreams (cur : Cursor) : CopyStreams := ⟨cur.copySource, cur.copySink⟩

/-- The cursor after a call to which it lent its copy streams. -/
def withStreams (cur : Cursor) (copy : CopyStreams) : Cursor :=
  { cur with copySource := copy.source, copySink := copy.sink }

/-- The server's name of the statement behind the result, while the cache holds it. -/
def statementName? (cur : Cursor) (cache : StatementCache) : Option String := do
  let sequence ← cur.statement
  let entry ← cache.entries.find? fun entry => entry.2.sequence = sequence
  return entry.2.name

/-! ## Executing -/

/-- Executes one statement and keeps its result. -/
def execute (cur : Cursor) (sql : String) (args : Placeholder.Arguments) :
    StateM Connection (Except Error Unit × Cursor) := do
  if cur.closed then return (.error .cursorClosed, cur)
  let (result, copy) ← Connection.run sql args cur.copyStreams
  let cur := cur.withStreams copy
  match result with
  | .error e => return (.error e, cur)
  | .ok (statement, outcome) =>
    return (.ok (),
      { cur with
        rows := outcome.rows
        rowCount := outcome.rowCount
        reportedCount := outcome.reportedCount
        description := describe statement
        statement := some statement.sequence })

/-- The sum of the counts so far with one more; unknown once one of them is. -/
def addCount (total : Option Int64) (count : Int64) : Option Int64 :=
  if count = unknownCount ∨ total = some unknownCount then some unknownCount
  else match total with
    | none => some count
    | some sum => some (sum + count)

/-- Executes a statement for each set of arguments: the last statement and the sum of the
counts. -/
def executeEach (sql : String) (copy : CopyStreams) (total : Option Int64)
    (last : Option Statement) : List Placeholder.Arguments →
    StateM Connection (Except Error (Option Int64 × Option Statement) × CopyStreams)
  | [] => return (.ok (total, last), copy)
  | args :: sets => do
    let (result, copy) ← Connection.run sql args copy
    match result with
    | .error e => return (.error e, copy)
    | .ok (statement, outcome) =>
      executeEach sql copy (addCount total outcome.rowCount) (some statement) sets

/-- Executes a statement once for each set of arguments. No rows are kept; the counts are the
sum of all. -/
def executeMany (cur : Cursor) (sql : String) (sets : List Placeholder.Arguments) :
    StateM Connection (Except Error Unit × Cursor) := do
  if cur.closed then return (.error .cursorClosed, cur)
  let (result, copy) ← executeEach sql cur.copyStreams none none sets
  let cur := cur.withStreams copy
  match result with
  | .error e => return (.error e, cur)
  | .ok (total, last) =>
    let count := total.getD unknownCount
    return (.ok (),
      { cur with
        rows := []
        rowCount := count
        reportedCount := count
        description := last.bind describe
        statement := last.map (·.sequence) })

/-! ## Fetching -/

/-- Fails where there are no rows to speak of. -/
def ensureResultSet (cur : Cursor) : Except Error Unit :=
  if cur.closed then .error .cursorClosed
  else if cur.description.isNone then .error .noResultSet
  else .ok ()

/-- The next row, if there is one. -/
def fetchOne (cur : Cursor) : Except Error (Option Row × Cursor) := do
  cur.ensureResultSet
  return (cur.rows.head?, { cur with rows := cur.rows.drop 1 })

/-- Up to `size` rows, or as many as `arraySize` says. -/
def fetchMany (cur : Cursor) (size : Option Nat) : Except Error (List Row × Cursor) := do
  cur.ensureResultSet
  let n := size.getD cur.arraySize
  return (cur.rows.take n, { cur with rows := cur.rows.drop n })

/-- All rows that are left. -/
def fetchAll (cur : Cursor) : Except Error (List Row × Cursor) := do
  cur.ensureResultSet
  return (cur.rows, { cur with rows := [] })

/-! ## Closing -/

/-- The cursor without its result and its streams; the counts stay. -/
def close (cur : Cursor) : Cursor :=
  { cur with
    closed := true
    rows := []
    description := none
    statement := none
    copySource := none
    copySink := none }

end Cursor

end PgClient
