/-
  PgClient.Placeholder.Arguments

  The arguments of one call, and their arrangement in the order of the numbered
  placeholders.
-/
import PgClient.Placeholder.Template
import PgClient.Value

namespace PgClient.Placeholder

/-- The arguments given with a statement. Of two entries of one name the first counts. -/
inductive Arguments where
  | positional (values : List Value)
  | named (entries : List (String × Value))

namespace Arguments

def none : Arguments := .positional []

def isEmpty : Arguments → Bool
  | .positional values => values.isEmpty
  | .named entries => entries.isEmpty

end Arguments

/-- The value of each name in turn. It is taken out of the entries, so that no later name can
have it again. -/
def collect (entries : List (String × Value)) : List String → Except Fault (List Value)
  | [] => .ok []
  | name :: names =>
    match entries.lookup name with
    | some v => return v :: (← collect (entries.filter (·.1 ≠ name)) names)
    | none => .error (.missing name)

/-- The values of `$1`, `$2`, … in turn. No arguments suit every text without
placeholders. -/
def Order.arrange : Order → Arguments → Except Fault (List Value)
  | .positional, .positional values => .ok values
  | .positional, .named entries =>
    if entries.isEmpty then .ok [] else .error .namedForPositional
  | .named names, .named entries => collect entries names
  | .named names, .positional values =>
    if names.isEmpty && values.isEmpty then .ok [] else .error .positionalForNamed

end PgClient.Placeholder
