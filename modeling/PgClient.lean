/-
  PgClient

  A client for servers that speak version 3 of the PostgreSQL protocol, with the
  extensions of the Redshift data warehouse and without the socket under it:
  configurations, placeholders, values on the wire, messages, authentication,
  prepared statements, sessions, connections and cursors.
-/
import PgClient.Config.Json
import PgClient.Config.Url
import PgClient.SharedConnection
import PgClient.Text.Integer.Lemmas
import PgClient.Text.Utf8.Lemmas
import PgClient.Proofs.Config.Texts
import PgClient.Proofs.Config.Urls
import PgClient.Proofs.Message.Framing
import PgClient.Proofs.Message.Layout
import PgClient.Proofs.Message.Decoding
import PgClient.Proofs.Message.Packets
import PgClient.Proofs.Message.Truncation
import PgClient.Proofs.Statement.Cache
import PgClient.Proofs.Statement.Recency
import PgClient.Proofs.Auth.Moves
import PgClient.Proofs.Auth.Verification
import PgClient.Proofs.Auth.Server
import PgClient.Proofs.Auth.Agreement
import PgClient.Proofs.Session.Trace
import PgClient.Proofs.Session.Writes
import PgClient.Proofs.Session.Handling
import PgClient.Proofs.Session.Cycle
import PgClient.Proofs.Session.Outcome
import PgClient.Proofs.Session.Rows
import PgClient.Proofs.Session.Exchange
import PgClient.Proofs.Connection.Parts
import PgClient.Proofs.Connection.Moves
import PgClient.Proofs.Connection.Runs
import PgClient.Proofs.Connection.Ledger
import PgClient.Proofs.Connection.Opening
import PgClient.Proofs.Connection.Alignment
import PgClient.Proofs.Connection.Authentication
import PgClient.Proofs.Connection.BindSafety
import PgClient.Proofs.Connection.Invalidation
import PgClient.Proofs.Connection.Results
import PgClient.Proofs.Connection.Preparing
import PgClient.Proofs.Connection.Encoding
import PgClient.Proofs.Connection.CopyMode
import PgClient.Proofs.Session.Description
import PgClient.Proofs.Connection.Conservation
import PgClient.Proofs.Connection.Mistakes
import PgClient.Proofs.Session.Signals
import PgClient.Proofs.Connection.Grammar
import PgClient.Proofs.Placeholder.Numbering
import PgClient.Proofs.Placeholder.Naming
import PgClient.Proofs.Placeholder.Agreement
import PgClient.Proofs.Placeholder.Characters
import PgClient.Proofs.Connection.Packets
import PgClient.Proofs.Connection.Bindings
import PgClient.Proofs.Connection.Status
import PgClient.Proofs.Connection.Unnamed
import PgClient.Proofs.Connection.Requests
import PgClient.Proofs.Connection.Transactions
import PgClient.Proofs.Cursor.Trace
import PgClient.Proofs.Placeholder.Parameters
import PgClient.Proofs.Codec.ArrayLiteral
import PgClient.Proofs.Calendar
import PgClient.Bytes.Lemmas
import PgClient.Proofs.Codec.Datetimes
import PgClient.Proofs.Codec.Table
import PgClient.Proofs.Codec.ArrayTypes
import PgClient.Proofs.Codec.Transcoding
import PgClient.Proofs.Placeholder.Stability
import PgClient.Proofs.Session.Collected
import PgClient.Proofs.Session.Counts
import PgClient.Proofs.Session.Copying
import PgClient.Proofs.Session.Sinks
import PgClient.Proofs.Connection.Executed
import PgClient.Proofs.Connection.Copies
import PgClient.Proofs.Cursor.Counts
import PgClient.Proofs.Cursor.Copies
