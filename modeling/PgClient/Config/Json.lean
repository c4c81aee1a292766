/-
  PgClient.Config.Json

  Configurations in JSON: an object with any of the fields, or an array with the
  first of them in order. Fields that are not given keep their defaults, and
  unknown ones are skipped, but a field given twice, of the wrong type or out of
  range is refused.
-/
import PgClient.Config.Basic
import PgClient.Json.Reader

namespace PgClient.Config

open PgClient.Json (Document)

/-! ## Field types -/

def readText : Document → Option String
  | .string us => Json.symbolsText us
  | _ => none

/-- An integer of a range, written without point or exponent. -/
def readInteger (low high : Int) : Document → Option Int
  | .number n => do
    let value ← n.value
    let i : Int ← match value with
      | .natural m => some (m.toNat : Int)
      | .negative m => some m.toInt
      | .double _ => none
    guard (low ≤ i ∧ i ≤ high)
    return i
  | _ => none

def readBool : Document → Option Bool
  | .bool b => some b
  | _ => none

/-- A value that may be null. -/
def readOptional {α : Type} (read : Document → Option α) : Document → Option (Option α)
  | .null => some none
  | d => (read d).map some

/-- A style by its name, or by its name as the only field of an object, with a null. -/
def readStyle : Document → Option Placeholder.Style
  | .string us => (Json.symbolsText us).bind Placeholder.Style.ofExactName?
  | .object [(us, .null)] => (Json.symbolsText us).bind Placeholder.Style.ofExactName?
  | _ => none

def readSeconds (d : Document) : Option Nat :=
  (readInteger 0 18446744073709551615 d).map Int.toNat

def readNanos (d : Document) : Option Nat :=
  (readInteger 0 4294967295 d).map Int.toNat

/-- A span of time whose nanoseconds may make up whole seconds. -/
def durationOf (secs nanos : Nat) : Option Duration := do
  let total := secs + nanos / 1000000000
  guard (total < UInt64.size)
  return ⟨UInt64.ofNat total, UInt32.ofNat (nanos % 1000000000)⟩

/-- A span of time as an object of its two fields, or as an array of their values. -/
def readDuration : Document → Option Duration
  | .array [secs, nanos] => do durationOf (← readSeconds secs) (← readNanos nanos)
  | .object [(k1, d1), (k2, d2)] => do
    match ← Json.symbolsText k1, ← Json.symbolsText k2 with
    | "secs", "nanos" => durationOf (← readSeconds d1) (← readNanos d2)
    | "nanos", "secs" => durationOf (← readSeconds d2) (← readNanos d1)
    | _, _ => none
  | _ => none

def readPair : Document → Option (String × String)
  | .array [a, b] => do return (← readText a, ← readText b)
  | _ => none

def readPairs : Document → Option (List (String × String))
  | .array ds => ds.mapM readPair
  | _ => none

/-! ## Fields -/

/-- The fields by name and order, each with what it changes. -/
def fields : List (String × (Config → Document → Option Config)) :=
  [("host", fun c d => do return { c with host := ← readText d }),
   ("port", fun c d => do return { c with port := UInt16.ofNat (← readInteger 0 65535 d).toNat }),
   ("database", fun c d => do return { c with database := ← readText d }),
   ("user", fun c d => do return { c with user := ← readText d }),
   ("password", fun c d => do return { c with password := ← readOptional readText d }),
   ("application_name", fun c d => do
    return { c with applicationName := ← readOptional readText d }),
   ("max_prepared_statements", fun c d => do
    return { c with maxPreparedStatements := UInt64.ofNat (← readSeconds d) }),
   ("paramstyle", fun c d => do return { c with style := ← readStyle d }),
   ("autocommit", fun c d => do return { c with autocommit := ← readBool d }),
   ("timeout", fun c d => do return { c with timeout := ← readOptional readDuration d }),
   ("client_protocol_version", fun c d => do
    return { c with protocolVersion := Int32.ofInt (← readInteger (-2147483648) 2147483647 d) }),
   ("credential_provider", fun c d => do return { c with credentialProvider := ← readText d }),
   ("options", fun c d => do return { c with options := ← readPairs d })]

/-- The fields of an object applied in turn; `given` are those that came before. -/
def withFields (c : Config) (given : List String) :
    List (List Json.Symbol × Document) → Option Config
  | [] => some c
  | (key, d) :: rest => do
    let name ← Json.symbolsText key
    match fields.lookup name with
    -- What an unknown field holds does not matter.
    | none => withFields c given rest
    | some change =>
      guard (name ∉ given)
      withFields (← change c d) (name :: given) rest

/-- The values of the first fields, in order. -/
def withValues (c : Config) :
    List (String × (Config → Document → Option Config)) → List Document → Option Config
  | _, [] => some c
  | [], _ :: _ => none
  | (_, change) :: rest, d :: ds => do withValues (← change c d) rest ds

/-- The configuration that a document describes. -/
def ofDocument : Document → Option Config
  | .object fs => withFields {} [] fs
  | .array ds => withValues {} fields ds
  | _ => none

/-- The configuration that a JSON text describes. -/
def ofJson (s : String) : Option Config := (Document.parse s.toList).bind ofDocument

end PgClient.Config
