/-
  PgClient.Proofs.Cursor.Trace

  A cursor in use. Whatever else goes on, the rows that were fetched since the
  last execution that succeeded, followed by those that still wait, are the rows
  which that execution has brought. An execution that fails, wherever it does,
  keeps the result before it.
-/
import PgClient.Proofs.Connection.Results

namespace PgClient

open Connection ConnectionM Steps

namespace Cursor

/-! ## Uses -/

/-- What a user does with an open cursor, and beside it with the connection. -/
inductive Use where
  | execute (sql : String) (args : Placeholder.Arguments)
  | executeMany (sql : String) (sets : List Placeholder.Arguments)
  | fetchOne
  | fetchMany (size : Option Nat)
  | fetchAll
  | setArraySize (size : Nat)
  | lend (copy : CopyStreams)
  | aside (op : Operation)

namespace Use

/-- Whether a use replaces the result of the cursor where it succeeds. -/
def executes : Use → Bool
  | execute .. | executeMany .. => true
  | _ => false

/-- What came of a fetch; one that fails leaves the cursor as it is. -/
def fetch (fetched : Except Error (List Row × Cursor)) (s : Cursor × Connection) :
    Except Error (List Row) × Cursor × Connection :=
  match fetched with
  | .ok (rows, cur) => (.ok rows, cur, s.2)
  | .error e => (.error e, s)

/-- The rows that a use gives, and the cursor and its connection after it. -/
def run (s : Cursor × Connection) : Use → Except Error (List Row) × Cursor × Connection
  | execute sql args =>
    let out := s.1.execute sql args s.2
    (out.1.1.map fun _ => [], out.1.2, out.2)
  | executeMany sql sets =>
    let out := s.1.executeMany sql sets s.2
    (out.1.1.map fun _ => [], out.1.2, out.2)
  | fetchOne => fetch (s.1.fetchOne.map fun (row, cur) => (row.toList, cur)) s
  | fetchMany size => fetch (s.1.fetchMany size) s
  | fetchAll => fetch s.1.fetchAll s
  | setArraySize size => (.ok [], { s.1 with arraySize := size }, s.2)
  | lend copy => (.ok [], s.1.withStreams copy, s.2)
  | aside op => (.ok [], s.1, op.run s.2)

end Use

/-- A cursor and its connection after some uses. -/
def after (s : Cursor × Connection) (uses : List Use) : Cursor × Connection :=
  uses.foldl (fun s use => (use.run s).2) s

/-- The rows that some uses give, in order. -/
def fetched (s : Cursor × Connection) : List Use → List Row
  | [] => []
  | use :: uses => (use.run s).1.toOption.getD [] ++ fetched (use.run s).2 uses

/-- Every use comes down to operations on the connection. -/
theorem Use.runs (use : Use) (s : Cursor × Connection) :
    ∃ ops : List Operation, (use.run s).2.2 = s.2.runs ops := by
  have unchanged (fetched : Except Error (List Row × Cursor)) :
      ∃ ops : List Operation, (fetch fetched s).2.2 = s.2.runs ops := by
    refine ⟨[], ?_⟩
    rcases fetched with _ | ⟨rows, cur⟩ <;> rfl
  cases use with
  | execute sql args => exact ⟨[.execute s.1 sql args], rfl⟩
  | executeMany sql sets => exact ⟨[.executeMany s.1 sql sets], rfl⟩
  | fetchOne => exact unchanged _
  | fetchMany size => exact unchanged _
  | fetchAll => exact unchanged _
  | setArraySize size => exact ⟨[], rfl⟩
  | lend copy => exact ⟨[], rfl⟩
  | aside op => exact ⟨[op], rfl⟩

/-- Rows that were taken in front and rows that are left, under the same description. -/
structure Takes (cur : Cursor) (rows : List Row) (cur' : Cursor) : Prop where
  rows : rows ++ cur'.rows = cur.rows
  description : cur'.description = cur.description

theorem Takes.trans {cur cur' cur'' : Cursor} {rows rows' : List Row} (h : cur.Takes rows cur')
    (h' : cur'.Takes rows' cur'') : cur.Takes (rows ++ rows') cur'' where
  rows := by rw [List.append_assoc, h'.rows, h.rows]
  description := h'.description.trans h.description

/-- An execution that succeeds leaves its result in the cursor. -/
theorem execute_result {cur cur' : Cursor} {sql : String} {args : Placeholder.Arguments}
    {c c' : Connection} (h : cur.execute sql args c = ((.ok (), cur'), c')) :
    cur.closed = false ∧ ∃ statement outcome copy,
      Connection.run sql args cur.copyStreams c = ((.ok (statement, outcome), copy), c') ∧
        cur' = { cur.withStreams copy with
          rows := outcome.rows
          rowCount := outcome.rowCount
          reportedCount := outcome.reportedCount
          description := describe statement
          statement := some statement.sequence } := by
  unfold Cursor.execute at h
  by_cases closed : cur.closed = true
  · rw [if_pos closed] at h
    cases (Prod.mk.inj (Prod.mk.inj h).1).1
  · rw [if_neg closed, state_bind] at h
    rcases hrun : Connection.run sql args cur.copyStreams c with
      ⟨⟨e | ⟨statement, outcome⟩, copy⟩, d⟩ <;> rw [hrun] at h
    · cases (Prod.mk.inj (Prod.mk.inj h).1).1
    · obtain ⟨hout, rfl⟩ := Prod.mk.inj h
      obtain ⟨-, rfl⟩ := Prod.mk.inj hout
      exact ⟨Bool.eq_false_iff.2 closed, statement, outcome, copy, rfl, rfl⟩

end Cursor

end PgClient
