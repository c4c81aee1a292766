/-
  PgClient.SharedConnection

  A connection with several handles. It is closed with the last of them.
-/
import PgClient.Connection.Lifetime
import PgClient.Cursor

namespace PgClient

structure SharedConnection where
  connection : Connection
  /-- How many handles there are. -/
  handles : Nat := 1

namespace SharedConnection

/-- One more handle. -/
def clone (s : SharedConnection) : SharedConnection := { s with handles := s.handles + 1 }

def isOpen (s : SharedConnection) : Bool := 0 < s.handles

/-- Gives one handle back; with the last one the connection is closed. -/
def close (s : SharedConnection) : Except Error Unit × SharedConnection :=
  if s.handles = 1 then
    let (result, connection) := s.connection.close
    (result, { connection, handles := 0 })
  else (.ok (), { s with handles := s.handles - 1 })

/-- Gives all handles back. -/
def closeAll (s : SharedConnection) : SharedConnection :=
  { connection := s.connection.close.2, handles := 0 }

end SharedConnection

end PgClient
