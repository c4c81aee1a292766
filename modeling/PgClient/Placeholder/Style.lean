/-
  PgClient.Placeholder.Style

  The five ways in which application SQL marks its parameters, and what can be
  wrong with placeholders and their arguments.
-/
import PgClient.Text.Quoted

namespace PgClient.Placeholder

/-- What can be wrong. -/
inductive Fault where
  | unknownStyle (name : String)
  /-- A named placeholder in parentheses that does not end; its place in the text. -/
  | unterminated (offset : Nat)
  /-- A percent sign before anything but a placeholder or another percent sign. -/
  | badPercent
  /-- Placeholders with and without names in one text. -/
  | mixed
  | missing (name : String)
  | namedForPositional
  | positionalForNamed
  deriving DecidableEq, Repr

def Fault.message : Fault → String
  | .unknownStyle name => "unknown paramstyle " ++ Text.quoted name
  | .unterminated offset => "unterminated %(name)s placeholder at offset " ++ offset.repr
  | .badPercent => "only %s, %% and %(name)s are supported in the query"
  | .mixed => "cannot mix named and positional placeholders"
  | .missing name => "missing value for parameter " ++ Text.quoted name
  | .namedForPositional => "named parameters given for a positional placeholder style"
  | .positionalForNamed => "positional parameters given for a named placeholder style"

/-- A placeholder style. -/
inductive Style where
  /-- A question mark for each parameter. -/
  | qmark
  /-- A colon and the parameter's number. -/
  | numeric
  /-- A colon and the parameter's name. -/
  | named
  /-- A percent sign and the letter s. -/
  | format
  /-- A percent sign, the parameter's name in parentheses, and the letter s. -/
  | pyformat
  deriving DecidableEq, Repr

namespace Style

def name : Style → String
  | .qmark => "qmark"
  | .numeric => "numeric"
  | .named => "named"
  | .format => "format"
  | .pyformat => "pyformat"

def all : List Style := [.qmark, .numeric, .named, .format, .pyformat]

/-- The style of exactly this name. -/
def ofExactName? (s : String) : Option Style := all.find? (·.name = s)

/-- The style of a name in any letter case. -/
def ofName (s : String) : Except Fault Style :=
  let lower := s.map Char.toLower
  match ofExactName? lower with
  | some style => .ok style
  | none => .error (.unknownStyle lower)

end Style

end PgClient.Placeholder
