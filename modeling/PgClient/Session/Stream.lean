/-
  PgClient.Session.Stream

  The stream under a connection, as the client meets it: what the server sends,
  how many writes get through, and all that has got out. A write that fails may
  have sent any part of its bytes before, from none of them to all. Also the
  request for TLS, which comes before any session.
-/
import PgClient.Message.Frame
import PgClient.Message.Frontend

namespace PgClient

structure Stream where
  incoming : Incoming
  /-- How many more writes succeed; `none` where all do. -/
  accepts : Option Nat := none
  /-- What the stream says when it refuses a write. -/
  refusal : String := ""
  /-- How many bytes of a write get out all the same when it is refused. -/
  escapes : Nat := 0
  /-- All bytes that got out, in order. -/
  outgoing : Bytes := []
  deriving DecidableEq, Repr

namespace Stream

/-- One write: whether it is taken, and the stream after it. Once one is refused all are, and the
client is not told how much of it got out. -/
def write (s : Stream) (bytes : Bytes) : Except IoFault Unit × Stream :=
  match s.accepts with
  | none => (.ok (), { s with outgoing := s.outgoing ++ bytes })
  | some 0 =>
    (.error (.failed s.refusal), { s with outgoing := s.outgoing ++ bytes.take s.escapes })
  | some (n + 1) => (.ok (), { s with accepts := some n, outgoing := s.outgoing ++ bytes })

/-- Asks the server for TLS: whether it agrees, what was sent, and the stream after its
one-byte answer. -/
def negotiateSsl (s : Stream) : Except Error Bool × List Frontend × Stream :=
  match s.write Frontend.sslRequest.encode with
  | (.error f, s) => (.error (.io f), [], s)
  | (.ok (), s) =>
    let (read, incoming) := s.incoming.take 1
    let answer : Except Error Bool :=
      match read with
      | .ok bs =>
        match bs.headD 0 with
        | 0x53 => .ok true
        | 0x4E => .ok false
        | other => .error (.violation (.sslAnswer other))
      | .error .closed => .error (.io .short)
      | .error (.failing reason) => .error (.io (.failed reason))
    (answer, [.sslRequest], { s with incoming })

end Stream

end PgClient
