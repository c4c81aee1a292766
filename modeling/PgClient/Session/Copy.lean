/-
  PgClient.Session.Copy

  The streams that a caller supplies for COPY: a source that is read in parts,
  and a sink that may refuse what it is given.
-/
import PgClient.Bytes

namespace PgClient

/-- What one read of a source meets: some bytes, at least one, or an interruption. -/
inductive CopyRead where
  | data (first : UInt8) (rest : Bytes)
  | interrupted
  deriving DecidableEq, Repr

/-- Data to be sent to the server. -/
structure CopySource where
  /-- What is still to be read. -/
  reads : List CopyRead
  /-- Why reading fails after that, unless the data ends there. -/
  failure : Option String := none
  deriving DecidableEq, Repr

/-- The most bytes that one CopyData frame carries. -/
def copyChunk : Nat := 8192

/-- A byte string in parts of `copyChunk` bytes and a rest; `bound` limits their number. -/
def chunksUpTo : Nat → Bytes → List Bytes
  | 0, _ => []
  | _, [] => []
  | bound + 1, bs => bs.take copyChunk :: chunksUpTo bound (bs.drop copyChunk)

/-- With enough parts nothing is lost. -/
theorem flatten_chunksUpTo {bound : Nat} {bs : Bytes} (h : bs.length ≤ bound) :
    (chunksUpTo bound bs).flatten = bs := by
  induction bound generalizing bs with
  | zero => simp_all [chunksUpTo]
  | succ n ih =>
    cases bs with
    | nil => rfl
    | cons b bs =>
      have : ((b :: bs).drop copyChunk).length ≤ n := by
        simp only [List.length_drop, copyChunk, List.length_cons] at h ⊢
        omega
      rw [chunksUpTo, List.flatten_cons, ih this, List.take_append_drop]
      simp

theorem length_le_of_mem_chunksUpTo {bound : Nat} {bs part : Bytes}
    (h : part ∈ chunksUpTo bound bs) : part.length ≤ copyChunk := by
  fun_induction chunksUpTo bound bs with
  | case1 => simp at h
  | case2 => simp at h
  | case3 bound bs _ ih =>
    rcases List.mem_cons.1 h with rfl | h
    · exact List.length_take_le ..
    · exact ih h

namespace CopySource

/-- The non-empty parts in which a source is sent; an interrupted read is made again. -/
def chunks (s : CopySource) : List Bytes :=
  s.reads.flatMap fun
    | .data first rest => chunksUpTo (rest.length + 1) (first :: rest)
    | .interrupted => []

/-- The source after all has been read. -/
def exhausted (s : CopySource) : CopySource := { s with reads := [] }

end CopySource

/-- Where data from the server goes. -/
structure CopySink where
  received : Bytes := []
  /-- Whether a write is taken, given what was received and what is written. -/
  accepts : Bytes → Bytes → Bool := fun _ _ => true
  /-- What the sink says when it refuses a write. -/
  refusal : String := ""

namespace CopySink

/-- One write; writing nothing always succeeds. -/
def write (s : CopySink) (data : Bytes) : Except String CopySink :=
  if data = [] then .ok s
  else if s.accepts s.received data then .ok { s with received := s.received ++ data }
  else .error s.refusal

end CopySink

/-- The streams lent to one call. -/
structure CopyStreams where
  source : Option CopySource := none
  sink : Option CopySink := none

end PgClient
