/-
  PgClient.Placeholder.Template

  SQL text cut into plain characters and placeholders, and written again with
  the placeholders `$1`, `$2`, … that the server understands.

  The text is scanned once from the left. String literals, quoted identifiers
  and line comments are plain whatever they hold, so the scan keeps track of
  which of them it is in; it looks two characters back to tell an escaped
  literal by its prefix and one character ahead.
-/
import PgClient.Placeholder.Style
import PgClient.Text.Integer
import PgClient.Text.Letter

namespace PgClient.Placeholder

/-! ## Pieces -/

/-- One element of a scanned text. -/
inductive Piece where
  | plain (c : Char)
  | positional
  | named (name : List Char)
  deriving DecidableEq, Repr

/-- What the scan is in. -/
inductive Mode where
  | outside
  /-- A literal in single quotes. -/
  | literal
  /-- An identifier in double quotes. -/
  | identifier
  /-- A literal with backslash escapes, prefixed by E. -/
  | escaped
  /-- A comment up to the end of the line. -/
  | comment
  /-- A name after a colon, read so far in reverse. -/
  | name (read : List Char)
  /-- A name in parentheses, read so far in reverse, and the offset of its percent sign. -/
  | parens (offset : Nat) (read : List Char)
  deriving DecidableEq, Repr

/-- Characters of an identifier. -/
def isIdent (c : Char) : Bool := Text.isAlphanumeric c || c = '_'

/-- Characters that may begin a name after a colon. -/
def beginsName (c : Char) : Bool := Text.isAlphabetic c || c = '_'

/-- The last two characters scanned, the later one first. -/
abbrev Behind := Option Char × Option Char

/-- A single quote opens an escaped literal after an E that ends no identifier. -/
def opensEscaped : Behind → Bool
  | (some 'E', before) | (some 'e', before) => !before.any isIdent
  | _ => false

/-! ## The scan -/

/-- What the scan takes from the front of a text: the pieces that it gives, what the scan is in
after it, and whether the next character goes with the first. -/
structure Taken where
  pieces : List Piece
  mode : Mode
  pair : Bool := false

namespace Taken

/-- One character that gives one piece. -/
def one (piece : Piece) (mode : Mode) : Taken := { pieces := [piece], mode }

/-- One character that gives nothing yet. -/
def silent (mode : Mode) : Taken := { pieces := [], mode }

/-- Two characters. -/
def two (pieces : List Piece) (mode : Mode) : Taken := { pieces, mode, pair := true }

end Taken

/-- What the scan takes at a character, given the one after it. -/
def take (style : Style) (behind : Behind) (offset : Nat) (c : Char) (next : Option Char) :
    Mode → Except Fault Taken
  | .outside =>
    if c = '\'' then .ok (.one (.plain c) (if opensEscaped behind then .escaped else .literal))
    else if c = '"' then .ok (.one (.plain c) .identifier)
    else if c = '-' && next = some '-' then .ok (.two [.plain c, .plain c] .comment)
    else if c = '?' && style = .qmark then .ok (.one .positional .outside)
    else if c = ':' && behind.1 ≠ some ':' then
      -- A second colon or an equals sign after it is neither digit nor letter, so that casts
      -- and assignments stay as they are.
      match style, next with
      | .numeric, some d => .ok (.one (.plain (if d.isDigit then '$' else c)) .outside)
      | .named, some d =>
        .ok (if beginsName d then .silent (.name []) else .one (.plain c) .outside)
      | _, _ => .ok (.one (.plain c) .outside)
    else if c = '%' && (style = .format || style = .pyformat) then
      -- A percent sign must mean something.
      match next with
      | some '%' => .ok (.two [.plain '%'] .outside)
      | some 's' => .ok (.two [.positional] .outside)
      | some '(' =>
        if style = .pyformat then .ok (.two [] (.parens offset [])) else .error .badPercent
      | _ => .error .badPercent
    else .ok (.one (.plain c) .outside)
  -- A doubled quote stays inside; any other ends the literal.
  | .literal =>
    if c = '\'' then
      .ok (if next = some '\'' then .two [.plain c, .plain c] .literal
        else .one (.plain c) .outside)
    else .ok (.one (.plain c) .literal)
  | .identifier =>
    if c = '"' then
      .ok (if next = some '"' then .two [.plain c, .plain c] .identifier
        else .one (.plain c) .outside)
    else .ok (.one (.plain c) .identifier)
  | .escaped =>
    if c = '\\' then
      -- A backslash takes the next character with it, a quote or not.
      match next with
      | some d => .ok (.two [.plain c, .plain d] .escaped)
      | none => .ok (.one (.plain c) .escaped)
    else if c = '\'' then
      .ok (if next = some '\'' then .two [.plain c, .plain c] .escaped
        else .one (.plain c) .outside)
    else .ok (.one (.plain c) .escaped)
  | .comment => .ok (.one (.plain c) (if c = '\n' then .outside else .comment))
  -- A name goes on as long as the next character may stand in it.
  | .name read =>
    .ok (if next.any isIdent then .silent (.name (c :: read))
      else .one (.named (c :: read).reverse) .outside)
  | .parens start read =>
    if c = ')' then
      if next = some 's' then .ok (.two [.named read.reverse] .outside)
      else .error (.unterminated start)
    else .ok (.silent (.parens start (c :: read)))

/-- The pieces of the text that is left. -/
def scan (style : Style) (mode : Mode) (behind : Behind) (offset : Nat) :
    List Char → Except Fault (List Piece)
  | [] =>
    match mode with
    | .parens start _ => .error (.unterminated start)
    | _ => .ok []
  | [c] => do
    let taken ← take style behind offset c none mode
    return taken.pieces ++ (← scan style taken.mode (some c, behind.1) (offset + 1) [])
  | c :: d :: rest => do
    let taken ← take style behind offset c (some d) mode
    if taken.pair then
      return taken.pieces ++ (← scan style taken.mode (some d, some c) (offset + 2) rest)
    else
      return taken.pieces ++ (← scan style taken.mode (some c, behind.1) (offset + 1) (d :: rest))

/-- The pieces of a whole text. -/
def pieces (style : Style) (sql : List Char) : Except Fault (List Piece) :=
  scan style .outside (none, none) 0 sql

/-! ## Numbering -/

/-- The placeholder for the argument of a number. -/
def numbered (n : Nat) : List Char := '$' :: Integer.natural n

/-- What is known of the placeholders up to some place of a text: the names of those that have
one, in the order of their first use, and how many have none. -/
structure Known where
  names : List (List Char) := []
  count : Nat := 0
  deriving DecidableEq, Repr

/-- The number of a name. A name that is not known yet is put at the end and gets the next. -/
def Known.number (known : Known) (name : List Char) : Nat × Known :=
  match known.names.idxOf? name with
  | some i => (i + 1, known)
  | none => (known.names.length + 1, { known with names := known.names ++ [name] })

/-- The text of one piece, and what is known after it. -/
def Piece.render (known : Known) : Piece → List Char × Known
  | .plain c => ([c], known)
  | .positional => (numbered (known.count + 1), { known with count := known.count + 1 })
  | .named name =>
    let (n, known) := known.number name
    (numbered n, known)

/-- The text with numbered placeholders, and what is known at its end. -/
def render (known : Known) : List Piece → List Char × Known
  | [] => ([], known)
  | p :: rest =>
    let (text, known) := p.render known
    let (texts, known) := render known rest
    (text ++ texts, known)

/-! ## Conversion -/

/-- How a statement's arguments become the values of `$1`, `$2`, …. -/
inductive Order where
  /-- In the order given. -/
  | positional
  /-- The value of each name in turn. -/
  | named (names : List String)
  deriving DecidableEq, Repr

/-- Arguments are ordered by their names where the style has names, and none of the placeholders
is without. -/
def Known.order (style : Style) (known : Known) : Order :=
  match style with
  | .named => .named (known.names.map String.ofList)
  | .pyformat => if known.count = 0 then .named (known.names.map String.ofList) else .positional
  | _ => .positional

/-- SQL in the given style, brought to numbered placeholders. -/
def convert (style : Style) (sql : String) : Except Fault (String × Order) := do
  let (text, known) := render {} (← pieces style sql.toList)
  if known.names ≠ [] ∧ 0 < known.count then throw .mixed
  return (String.ofList text, known.order style)

end PgClient.Placeholder
