/-
  PgClient.Codec.ArrayLiteral

  The text form of one-dimensional arrays: elements between braces, separated by
  commas, each bare or in double quotes with backslash escapes. The bare word
  NULL stands for a missing element.
-/
import PgClient.Decimal.Notation
import PgClient.Error

namespace PgClient.ArrayLiteral

/-! ## Reading -/

/-- One element; `none` stands for a missing one. -/
abbrev Element := Option (List Char)

/-- Where in an element the reader is, with what it has read in reverse. -/
inductive Mode where
  | start
  | bare (read : List Char)
  | quoted (read : List Char)
  | closed (read : List Char)
  deriving DecidableEq, Repr

/-- A bare element. -/
def bareElement (read : List Char) : Element :=
  if read.reverse.map Char.toUpper = ['N', 'U', 'L', 'L'] then none else some read.reverse

/-- The elements of what is left between the braces. -/
def elements (whole : List Char) : Mode → List Char → Except DataFault (List Element)
  | .start, [] => .ok [some []]
  | .start, c :: rest =>
    if c = '"' then elements whole (.quoted []) rest
    else if c = ',' then (elements whole .start rest).map (some [] :: ·)
    else elements whole (.bare [c]) rest
  | .bare read, [] => .ok [bareElement read]
  | .bare read, c :: rest =>
    if c = ',' then (elements whole .start rest).map (bareElement read :: ·)
    else elements whole (.bare (c :: read)) rest
  | .quoted _, [] => .error (.openElement (String.ofList whole))
  | .quoted read, c :: rest =>
    if c = '\\' then
      match rest with
      | [] => .error (.openElement (String.ofList whole))
      | d :: rest => elements whole (.quoted (d :: read)) rest
    else if c = '"' then elements whole (.closed read) rest
    else elements whole (.quoted (c :: read)) rest
  | .closed read, [] => .ok [some read.reverse]
  -- Nothing but a comma may follow a closing quote.
  | .closed read, c :: rest =>
    if c = ',' then (elements whole .start rest).map (some read.reverse :: ·)
    else .error (.afterElement c)

/-- What stands between the braces at the ends of a text. -/
def inside? : List Char → Option (List Char)
  | '\x7b' :: rest => if rest.getLast? = some '\x7d' then some rest.dropLast else none
  | _ => none

/-- The elements of an array literal. -/
def read (whole : List Char) : Except DataFault (List Element) :=
  match inside? whole with
  | none => .error (.notArray (String.ofList whole))
  | some [] => .ok []
  | some inner => elements whole .start inner

/-! ## Writing -/

/-- A text in double quotes, with a backslash before each quote and backslash. -/
def quoted (cs : List Char) : List Char :=
  '"' :: cs.flatMap (fun c => if c = '"' || c = '\\' then ['\\', c] else [c]) ++ ['"']

/-- A float with the fewest digits that read back, a half going up, and never an exponent. -/
def float (layout : Decimal.Layout) (bits : Nat) : List Char :=
  match layout.read bits with
  | .nan => ['N', 'a', 'N']
  | .infinite negative => Decimal.signed negative ['i', 'n', 'f']
  | .finite negative m e narrow =>
    Decimal.signed negative (Decimal.shortest .up m e narrow).positional

/-- One element of an array of integers, floats or texts. -/
def element (v : Value) : Except Error (List Char) :=
  match v with
  | .null => .ok ['N', 'U', 'L', 'L']
  | .text s => .ok (quoted s.toList)
  | .float4 bits => .ok (float .single bits.toNat)
  | .float8 bits => .ok (float .double bits.toNat)
  | v =>
    match v.integer? with
    | some n => .ok (Integer.text n)
    | none => .error (.data (.mismatch "array element" v.kind))

/-- An array literal. -/
def write (items : List Value) : Except Error (List Char) := do
  let parts ← items.mapM element
  return '\x7b' :: [','].intercalate parts ++ ['\x7d']

end PgClient.ArrayLiteral
