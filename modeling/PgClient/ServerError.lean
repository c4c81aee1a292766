/-
  PgClient.ServerError

  Errors and notices as the server reports them: a map from one-byte field types
  to texts, the classes of SQLSTATE, and the text shown for one.
-/

namespace PgClient

/-- The texts of a report by field type, in ascending order, each type once. -/
abbrev ReportFields := List (UInt8 × String)

/-- The fields with one more, which replaces a field of the same type. -/
def ReportFields.insert (key : UInt8) (text : String) : ReportFields → ReportFields
  | [] => [(key, text)]
  | (k, t) :: rest =>
    if key = k then (key, text) :: rest
    else if key < k then (key, text) :: (k, t) :: rest
    else (k, t) :: insert key text rest

theorem ReportFields.lookup_insert (key : UInt8) (text : String) (fields : ReportFields) :
    (fields.insert key text).lookup key = some text := by
  induction fields with
  | nil => simp [insert]
  | cons field rest ih =>
    obtain ⟨k, t⟩ := field
    by_cases h : key = k
    · simp [insert, h]
    · have hne : (key == k) = false := by simp [h]
      by_cases hlt : key < k <;> simp [insert, h, hlt, List.lookup_cons, hne, ih]

/-- The class of an error, as callers tell errors apart. -/
inductive ErrorClass where
  /-- Misuse by the caller, or a failure of the protocol. -/
  | interface
  /-- A problem with the statement or the schema. -/
  | programming
  /-- A violated constraint. -/
  | integrity
  /-- A value that maps to no wire type. -/
  | notSupported
  /-- A value that cannot be encoded or decoded. -/
  | data
  deriving DecidableEq, Repr

/-- An error or notice that the server reported. -/
structure ServerError where
  fields : ReportFields
  deriving DecidableEq, Repr

namespace ServerError

def field? (e : ServerError) (key : Char) : Option String := e.fields.lookup key.toUInt8

def severity (e : ServerError) : String := (e.field? 'S').getD ""

/-- The SQLSTATE. -/
def code (e : ServerError) : String := (e.field? 'C').getD ""

def message (e : ServerError) : String := (e.field? 'M').getD ""

def detail? (e : ServerError) : Option String := e.field? 'D'

def hint? (e : ServerError) : Option String := e.field? 'H'

/-- SQLSTATE class 23 is a violated constraint, 28 and 08 concern the connection. -/
def errorClass (e : ServerError) : ErrorClass :=
  match e.code.toList with
  | '2' :: '3' :: _ => .integrity
  | '2' :: '8' :: _ => .interface
  | '0' :: '8' :: _ => .interface
  | _ => .programming

/-- The text shown for a report, with a line each for detail and hint. -/
def text (e : ServerError) : String :=
  let line (label : String) : Option String → String
    | some t => "\n" ++ label ++ ": " ++ t
    | none => ""
  e.severity ++ ": " ++ e.message ++ " (" ++ e.code ++ ")" ++
    line "Detail" e.detail? ++ line "Hint" e.hint?

end ServerError

end PgClient
