/-
  PgClient.Json.Reader

  JSON texts to documents, and documents to values. Reading a document checks
  the grammar alone; giving it a value checks what the grammar leaves open:
  nesting, surrogates and the range of doubles.
-/
import PgClient.Json.Basic

namespace PgClient.Json

/-! ## Lexemes -/

def isBlank (c : Char) : Bool :=
  c = ' ' || c = '\t' || c = '\n' || c = '\r'

def skipBlanks (cs : List Char) : List Char := cs.dropWhile isBlank

/-- The number that a hexadecimal digit stands for. -/
def hexValue (c : Char) : Option Nat :=
  if c.isDigit then some (c.toNat - 48)
  else if 'a' ≤ c && c ≤ 'f' then some (c.toNat - 87)
  else if 'A' ≤ c && c ≤ 'F' then some (c.toNat - 55)
  else none

/-- The UTF-16 unit that four hexadecimal digits stand for. -/
def codeOf (a b c d : Char) : Option Symbol := do
  let high := (← hexValue a) * 16 + (← hexValue b)
  let low := (← hexValue c) * 16 + (← hexValue d)
  return .code (high * 256 + low)

/-- The character that a one-letter escape stands for. -/
def shortEscape : Char → Option Char
  | '"' => some '"'
  | '\\' => some '\\'
  | '/' => some '/'
  | 'b' => some '\x08'
  | 'f' => some '\x0c'
  | 'n' => some '\n'
  | 'r' => some '\r'
  | 't' => some '\t'
  | _ => none

/-- The rest of a string after its opening quote. -/
def readSymbols : List Char → Option (List Symbol × List Char)
  | [] => none
  | '"' :: rest => some ([], rest)
  | '\\' :: 'u' :: a :: b :: c :: d :: rest => do
    let u ← codeOf a b c d
    let (us, rest) ← readSymbols rest
    return (u :: us, rest)
  | '\\' :: e :: rest => do
    let c ← shortEscape e
    let (us, rest) ← readSymbols rest
    return (.char c :: us, rest)
  | c :: rest => do
    guard (c ≠ '\\' ∧ 0x20 ≤ c.toNat)
    let (us, rest) ← readSymbols rest
    return (.char c :: us, rest)

/-- A run of digits, which must not be empty. -/
def readDigits (cs : List Char) : Option (List Char × List Char) :=
  match cs.takeWhile Char.isDigit with
  | [] => none
  | ds => some (ds, cs.dropWhile Char.isDigit)

/-- The digits after a point, if there is one. -/
def readFraction : List Char → Option (List Char × List Char)
  | '.' :: rest => readDigits rest
  | rest => some ([], rest)

/-- An exponent, if there is one: whether it is positive, and its digits. -/
def readExponent : List Char → Option (Option (Bool × List Char) × List Char)
  | c :: rest =>
    if c = 'e' || c = 'E' then
      match rest with
      | '+' :: rest => (readDigits rest).map fun (ds, rest) => (some (true, ds), rest)
      | '-' :: rest => (readDigits rest).map fun (ds, rest) => (some (false, ds), rest)
      | rest => (readDigits rest).map fun (ds, rest) => (some (true, ds), rest)
    else some (none, c :: rest)
  | [] => some (none, [])

/-- A number without its sign; no zero leads other digits. -/
def readNumeral (negative : Bool) (cs : List Char) : Option (Numeral × List Char) := do
  let (whole, rest) ← readDigits cs
  guard (whole.head? ≠ some '0' ∨ whole.length = 1)
  let (fraction, rest) ← readFraction rest
  let (exponent, rest) ← readExponent rest
  return (⟨negative, whole, fraction, exponent⟩, rest)

/-- What follows a given word. -/
def expect (word cs : List Char) : Option (List Char) :=
  if word.isPrefixOf cs then some (cs.drop word.length) else none

/-! ## Documents -/

mutual

/-- One document, blanks before it skipped; `bound` limits the number of steps. -/
def readDocument : Nat → List Char → Option (Document × List Char)
  | 0, _ => none
  | bound + 1, cs =>
    match skipBlanks cs with
    | '"' :: rest => (readSymbols rest).map fun (us, rest) => (.string us, rest)
    | '[' :: rest =>
      match skipBlanks rest with
      | ']' :: rest => some (.array [], rest)
      | rest => (readItems bound rest).map fun (items, rest) => (.array items, rest)
    | '\x7b' :: rest =>
      match skipBlanks rest with
      | '\x7d' :: rest => some (.object [], rest)
      | rest => (readFields bound rest).map fun (fields, rest) => (.object fields, rest)
    | '-' :: rest => (readNumeral true rest).map fun (n, rest) => (.number n, rest)
    | 'n' :: rest => (expect ['u', 'l', 'l'] rest).map fun rest => (.null, rest)
    | 't' :: rest => (expect ['r', 'u', 'e'] rest).map fun rest => (.bool true, rest)
    | 'f' :: rest => (expect ['a', 'l', 's', 'e'] rest).map fun rest => (.bool false, rest)
    | rest => (readNumeral false rest).map fun (n, rest) => (.number n, rest)

/-- The items of an array up to its closing bracket, at least one. -/
def readItems : Nat → List Char → Option (List Document × List Char)
  | 0, _ => none
  | bound + 1, cs => do
    let (item, rest) ← readDocument bound cs
    match skipBlanks rest with
    | ',' :: rest =>
      let (items, rest) ← readItems bound rest
      return (item :: items, rest)
    | ']' :: rest => return ([item], rest)
    | _ => none

/-- The fields of an object up to its closing brace, at least one. -/
def readFields : Nat → List Char → Option (List (List Symbol × Document) × List Char)
  | 0, _ => none
  | bound + 1, cs =>
    match skipBlanks cs with
    | '"' :: rest => do
      let (key, rest) ← readSymbols rest
      match skipBlanks rest with
      | ':' :: rest =>
        let (value, rest) ← readDocument bound rest
        match skipBlanks rest with
        | ',' :: rest =>
          let (fields, rest) ← readFields bound rest
          return ((key, value) :: fields, rest)
        | '\x7d' :: rest => return ([(key, value)], rest)
        | _ => none
      | _ => none
    | _ => none

end

/-- The document that a whole text is. Each step but one in two consumes a character, so the
bound is never met. -/
def Document.parse (cs : List Char) : Option Document :=
  match readDocument (2 * cs.length + 2) cs with
  | some (d, rest) => if skipBlanks rest = [] then some d else none
  | none => none

/-! ## The value of a number -/

/-- The digits taken up while the number stays within `limit`, and those left. -/
def absorb (limit acc : Nat) : List Char → Nat × List Char
  | [] => (acc, [])
  | c :: rest =>
    let next := acc * 10 + (c.toNat - 48)
    if next ≤ limit then absorb limit next rest else (acc, c :: rest)

/-- The double nearest to `10 ^ n`. -/
def tenTo (n : Nat) : Float := Float.ofScientific 1 false n

/-- A power of ten divided out, at most 308 places at a time, until the number is zero. -/
def divideOut : Nat → Float → Nat → Float
  | 0, f, _ => f
  | steps + 1, f, places =>
    if places ≤ 308 then f / tenTo places
    else if f == 0.0 then f
    else divideOut steps (f / tenTo 308) (places - 308)

/-- The double `significand * 10 ^ exponent` in at most a few roundings; nothing above the
range of doubles. -/
def scaled (significand : Nat) (exponent : Int) : Option Float :=
  let f := (UInt64.ofNat significand).toFloat
  if exponent < 0 then some (divideOut 4 f exponent.natAbs)
  else if exponent ≤ 308 then
    let g := f * tenTo exponent.toNat
    if g.isInf then none else some g
  else if significand = 0 then some f
  else none

/-- The double of a number with a point, an exponent or too many digits. Digits that do not
fit 64 bits are dropped: before the point they still count as places. -/
def Numeral.float (n : Numeral) : Option Float :=
  let limit := UInt64.size - 1
  let (whole, dropped) := absorb limit 0 n.whole
  let (significand, left) := absorb limit whole n.fraction
  -- Dropped digits before the point move it to the right, used ones after it to the left.
  let places : Int := dropped.length - (n.fraction.length - left.length)
  match n.exponent with
  | none => scaled significand places
  | some (positive, ds) =>
    match absorb 2147483647 0 ds with
    | (e, []) => scaled significand (if positive then places + e else places - e)
    -- An exponent beyond 32 bits decides by its sign alone.
    | _ => if significand ≠ 0 && positive then none else some 0.0

/-- An integer if it is written as one and fits 64 bits, else a double; a negative zero is a
double. -/
def Numeral.value (n : Numeral) : Option Number :=
  let asDouble := n.float.map fun f => Number.double (if n.negative then -f else f).toBits
  if n.fraction = [] && n.exponent.isNone then
    match absorb (UInt64.size - 1) 0 n.whole with
    -- All digits fit 64 bits.
    | (m, []) =>
      if !n.negative then some (.natural (UInt64.ofNat m))
      else if 0 < m && m ≤ UInt64.size / 2 then some (.negative (Int64.ofInt (-(m : Int))))
      else asDouble
    | _ => asDouble
  else asDouble

/-! ## The value of a document -/

/-- The text of a written string. -/
def symbolsText (us : List Symbol) : Option String := (joinSymbols us).map String.ofList

/-- The value of a document with at most `depth` arrays and objects one inside another. -/
def Document.valueWithin : Nat → Document → Option Json
  | _, .null => some .null
  | _, .bool b => some (.bool b)
  | _, .number n => n.value.map .number
  | _, .string us => (symbolsText us).map .string
  | 0, .array _ => none
  | 0, .object _ => none
  | depth + 1, .array items => (items.mapM (valueWithin depth)).map .array
  | depth + 1, .object fields => do
    let read ← fields.mapM fun (key, d) => do
      return (← symbolsText key, ← valueWithin depth d)
    return .object (read.foldl (fun fs (k, v) => insert k v fs) [])

/-- The value of a document, nested at most 127 deep. -/
def Document.value (d : Document) : Option Json := d.valueWithin 127

/-- The value that a text spells. -/
def parse (s : String) : Option Json := (Document.parse s.toList).bind Document.value

end PgClient.Json
