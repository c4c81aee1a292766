/-
  PgClient.Session.RowCount

  Row counts: which completed commands report one, and how the counts of one
  cycle add up. The count -1 means that none is known.
-/
import PgClient.Text.Blank
import PgClient.Text.Cut
import PgClient.Text.Integer

namespace PgClient

/-! ## Command tags -/

namespace CommandTag

/-- The first word of a tag. -/
def verb (tag : String) : List Char := Text.firstWord tag.toList

/-- The number after the last space of a tag, or the number that the whole tag is. -/
def count? (tag : String) : Option Int64 :=
  let last := match Text.cutLast ' ' tag.toList with
    | some (_, last) => last
    | none => tag.toList
  (Integer.readInt64 last).toOption

/-- The verbs after which no prepared statement can be relied on. -/
def invalidating : List String := ["ALTER", "CREATE", "DROP", "ROLLBACK"]

/-- Whether a command makes all prepared statements stale; letter case does not matter. -/
def invalidates (tag : String) : Bool :=
  invalidating.contains (String.ofList ((verb tag).map Char.toUpper))

end CommandTag

/-! ## Which verbs count -/

/-- The first three numbers of a version, a part without digits being zero. -/
def versionNumbers (version : String) : Nat × Nat × Nat :=
  let number (part : List Char) : Nat :=
    match Integer.readUInt32 (part.takeWhile Char.isDigit) with
    | .ok n => n.toNat
    | .error _ => 0
  let numbers := (Text.splitAt '.' (Text.trim version.toList)).map number
  (numbers.getD 0 0, numbers.getD 1 0, numbers.getD 2 0)

/-- The verbs that report a count on a current server. -/
def countVerbs : List String := ["INSERT", "DELETE", "UPDATE", "MOVE", "FETCH", "COPY", "SELECT"]

/-- The verbs that report a count on a server of the given version. -/
def countVerbsFor (version : String) : List String :=
  let (major, minor, _) := versionNumbers version
  if major < 8 ∨ (major = 8 ∧ minor < 2) then ["INSERT", "DELETE", "UPDATE", "MOVE"]
  else if major < 9 then ["INSERT", "DELETE", "UPDATE", "MOVE", "FETCH", "COPY"]
  else countVerbs

/-! ## Sums -/

/-- No count is known. -/
def unknownCount : Int64 := -1

/-- A count added to what was counted so far. -/
def accumulate (current count : Int64) : Int64 :=
  if current = unknownCount then count else current + count

end PgClient
