/-
  PgClient.Message.Frame

  The incoming stream: bytes that the server sends, how they end, and the frames
  in them. A read that needs more than is left takes all of it and fails.
-/
import PgClient.Error
import PgClient.Message.Body

namespace PgClient

/-! ## The stream -/

/-- What a read past the last byte meets. -/
inductive Ending where
  | closed
  | failing (reason : String)
  deriving DecidableEq, Repr

/-- What the server still has to send. -/
structure Incoming where
  unread : Bytes
  ending : Ending
  deriving DecidableEq, Repr

namespace Incoming

/-- Exactly `n` bytes, or what the stream ends with. -/
def take (n : Nat) (i : Incoming) : Except Ending Bytes × Incoming :=
  match Bytes.split? n i.unread with
  | some (front, rest) => (.ok front, { i with unread := rest })
  | none => (.error i.ending, { i with unread := [] })

theorem take_append (front rest : Bytes) (ending : Ending) :
    take front.length ⟨front ++ rest, ending⟩ = (.ok front, ⟨rest, ending⟩) := by
  simp [take, Bytes.split?_eq]

theorem take_short {n : Nat} {i : Incoming} (h : i.unread.length < n) :
    i.take n = (.error i.ending, { i with unread := [] }) := by
  simp [take, Bytes.split?_eq, Nat.not_le.2 h]

end Incoming

/-- The error of a stream that ends between messages or inside one. -/
def Ending.error : Ending → Error
  | .closed => .connectionClosed
  | .failing reason => .io (.failed reason)

/-! ## Frames -/

/-- The largest length of a frame. -/
def maxFrameLength : Int32 := 1073741824

/-- A reader of the incoming stream. -/
abbrev Receive := ExceptT Error (StateM Incoming)

namespace Receive

/-- Exactly `n` bytes. -/
def take (n : Nat) : Receive Bytes := do
  let (read, rest) := Incoming.take n (← get)
  set rest
  match read with
  | .ok bs => return bs
  | .error ending => throw ending.error

/-- The tag and length of a frame; the length counts its own four bytes. -/
def header : Receive (UInt8 × Int32) := do
  let bs ← take 5
  let tag := bs.headD 0
  let length := Bytes.toInt32 (bs.drop 1)
  -- Any other length means that the stream is out of step.
  unless 4 ≤ length ∧ length ≤ maxFrameLength do
    throw (.violation (.frameLength length tag))
  return (tag, length)

/-- One message. -/
def message (version : Int32) : Receive Backend := do
  let (tag, length) ← header
  let body ← take (length.toInt.toNat - 4)
  match Backend.decode tag body version with
  | .ok m => return m
  | .error v => throw (.violation v)

/-- Messages up to the first error; `bound` limits their number. -/
def messagesUpTo (version : Int32) : Nat → Incoming → List Backend × Error × Incoming
  | 0, i => ([], .connectionClosed, i)
  | bound + 1, i =>
    match (message version).run i with
    | (.error e, i) => ([], e, i)
    | (.ok m, i) =>
      let (ms, e, i) := messagesUpTo version bound i
      (m :: ms, e, i)

/-- All messages of a stream and the error that ends them. Every message takes at least five
bytes, so the bound is never met. -/
def messages (version : Int32) (i : Incoming) : List Backend × Error × Incoming :=
  messagesUpTo version (i.unread.length + 1) i

end Receive

end PgClient
