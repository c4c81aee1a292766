/-
  PgClient.Proofs.Connection.Requests

  The statements that a user asks for, one after the other, and how each of them
  is served. A request whose checks pass opens a transaction first just where it
  may, autocommit is off and the server said last that it was idle.
-/
import PgClient.Proofs.Connection.Mistakes
import PgClient.Proofs.Connection.Status

namespace PgClient

open ConnectionM Steps

/-! ## Requests -/

/-- A statement that a user asks for: the connection that it finds, its SQL with the arguments, and
the streams lent to it. -/
structure Request where
  before : Connection
  sql : String
  args : Placeholder.Arguments := .none
  copy : CopyStreams := {}
  /-- It may open a transaction, which a COMMIT and a ROLLBACK never do. -/
  executes : Bool := true

namespace Request

/-- The result, the streams and the connection after it. -/
def outcome (r : Request) : (Except Error (Statement × Outcome) × CopyStreams) × Connection :=
  execute r.sql r.args r.copy (r.executes && !r.before.config.autocommit) r.before

def after (r : Request) : Connection := r.outcome.2

end Request

namespace Cursor

/-- The requests of a statement for each set of arguments, up to the first that fails. -/
def requestsEach (sql : String) (copy : CopyStreams) (c : Connection) :
    List Placeholder.Arguments → List Request
  | [] => []
  | args :: sets =>
    { before := c, sql, args, copy } ::
      match Connection.run sql args copy c with
      | ((.error _, _), _) => []
      | ((.ok _, copy), c) => requestsEach sql copy c sets

end Cursor

namespace Operation

/-- What an operation asks for, in order. -/
def requests (c : Connection) : Operation → List Request
  | query sql args => [{ before := c, sql, args }]
  | commit => [{ before := c, sql := "COMMIT", executes := false }]
  | rollback => [{ before := c, sql := "ROLLBACK", executes := false }]
  | execute cursor sql args =>
    if cursor.closed then [] else [{ before := c, sql, args, copy := cursor.copyStreams }]
  | executeMany cursor sql sets =>
    if cursor.closed then [] else Cursor.requestsEach sql cursor.copyStreams c sets
  | setAutocommit _ | takeNotifications => []

end Operation

namespace Connection

/-- What some operations ask for, in order. -/
def requests (c : Connection) : List Operation → List Request
  | [] => []
  | op :: ops => op.requests c ++ requests (op.run c) ops

/-- A connection serves some requests, one after the other. -/
inductive Serves : Connection → List Request → Connection → Prop
  | nil {c c' : Connection} (settings : Settings c c') : Serves c [] c'
  | cons {c c' : Connection} {r : Request} {rs : List Request} (settings : Settings c r.before)
    (rest : Serves r.after rs c') : Serves c (r :: rs) c'

namespace Serves

variable {c d e : Connection} {r : Request} {rs rs' : List Request}

theorem of_settings (h : Settings c d) (h' : Serves d rs e) : Serves c rs e := by
  cases h' with
  | nil settings => exact .nil (h.trans settings)
  | cons settings rest => exact .cons (h.trans settings) rest

theorem append (h : Serves c rs d) (h' : Serves d rs' e) : Serves c (rs ++ rs') e := by
  induction h with
  | nil settings => exact of_settings settings h'
  | cons settings rest ih => exact .cons settings (ih h')

/-- One request by itself. -/
theorem single (r : Request) : Serves r.before [r] r.after := .cons (.refl _) (.nil (.refl _))

/-- A request comes down to its executions. -/
theorem performs (h : Serves c rs d) (hs : c.session.Settled) : ∃ xs, Performs c xs d := by
  induction h with
  | nil settings => exact ⟨[], .nil settings⟩
  | @cons c d r rs settings rest ih =>
    have hbefore : Performs c [] r.before := .nil settings
    have hfirst := execute_performs r.sql r.args r.copy
      (r.executes && !r.before.config.autocommit) (hbefore.settled hs)
    obtain ⟨xs, hrest⟩ := ih (hfirst.settled (hbefore.settled hs))
    exact ⟨_, (hbefore.append hfirst).append hrest⟩

/-- What has happened when a request begins, and what happens once it has been served. -/
theorem split (h : Serves c rs d) (hs : c.session.Settled) (hr : r ∈ rs) :
    (∃ xs, Performs c xs r.before) ∧ ∃ ys, Performs r.after ys d := by
  induction h with
  | nil settings => cases hr
  | @cons c d r' rs settings rest ih =>
    have hbefore : Performs c [] r'.before := .nil settings
    obtain ⟨xs, hfirst⟩ := (single r').performs (hbefore.settled hs)
    have hafter := hfirst.settled (hbefore.settled hs)
    obtain rfl | hr := List.mem_cons.1 hr
    · exact ⟨⟨[], hbefore⟩, rest.performs hafter⟩
    · obtain ⟨⟨ys, hys⟩, hlater⟩ := ih hafter hr
      exact ⟨⟨_, (hbefore.append hfirst).append hys⟩, hlater⟩

end Serves

end Connection

/-- A statement for many sets of arguments is one request for each. -/
theorem Cursor.executeEach_serves (sql : String) (sets : List Placeholder.Arguments)
    (copy : CopyStreams) (total : Option Int64) (last : Option Statement) (c : Connection) :
    Connection.Serves c (requestsEach sql copy c sets)
      (executeEach sql copy total last sets c).2 := by
  induction sets generalizing copy total last c with
  | nil => exact .nil (.refl c)
  | cons args sets ih =>
    have hfirst : Connection.Serves c [{ before := c, sql, args, copy }]
        (Connection.run sql args copy c).2 := .single { before := c, sql, args, copy }
    rw [requestsEach, executeEach, state_bind]
    rcases hout : Connection.run sql args copy c with ⟨⟨_ | ⟨statement, outcome⟩, copy'⟩, d⟩
    · rw [hout] at hfirst
      exact hfirst
    · rw [hout] at hfirst
      exact hfirst.append (ih copy' _ _ d)

/-- Every operation serves what it asks for. -/
theorem Operation.serves (op : Operation) (c : Connection) :
    Connection.Serves c (op.requests c) (op.run c) := by
  cases op with
  | query sql args => exact .single { before := c, sql, args }
  | commit => exact .single { before := c, sql := "COMMIT", executes := false }
  | rollback => exact .single { before := c, sql := "ROLLBACK", executes := false }
  | execute cursor sql args =>
    rw [requests, run, Cursor.execute_state]
    by_cases closed : cursor.closed = true
    · rw [if_pos closed, if_pos closed]
      exact .nil (.refl c)
    · rw [if_neg closed, if_neg closed]
      exact .single { before := c, sql, args, copy := cursor.copyStreams }
  | executeMany cursor sql sets =>
    rw [requests, run, Cursor.executeMany_state]
    by_cases closed : cursor.closed = true
    · rw [if_pos closed, if_pos closed]
      exact .nil (.refl c)
    · rw [if_neg closed, if_neg closed]
      exact Cursor.executeEach_serves sql sets cursor.copyStreams none none c
  | setAutocommit on => exact .nil (.intro on c.session.notifications)
  | takeNotifications => exact .nil (.intro c.config.autocommit [])

/-- All that is asked for is served, and nothing else. -/
theorem Connection.runs_serves (ops : List Operation) (c : Connection) :
    Serves c (c.requests ops) (c.runs ops) := by
  induction ops generalizing c with
  | nil => exact .nil (.refl c)
  | cons op ops ih => exact (op.serves c).append (ih (op.run c))

/-! ## How a request is served -/

namespace Request

variable {r : Request} {k : Call} {e : Error}

/-- The checks that come before anything is sent: the placeholders of the SQL, the arguments for
them, and the number of parameters. -/
def Passes (r : Request) (k : Call) : Prop :=
  ∃ order, Placeholder.convert r.before.config.style r.sql = .ok (k.sql, order) ∧
    order.arrange r.args = .ok k.values ∧ k.values.length ≤ Error.maxParameters

/-- A transaction has to be opened for a request. -/
def Due (r : Request) : Prop :=
  r.executes = true ∧ r.before.config.autocommit = false ∧
    reported r.before.session.received = some .idle

instance : Decidable r.Due := inferInstanceAs (Decidable (_ ∧ _ ∧ _))

/-- The execution that opens a transaction for a request. -/
def opening (r : Request) : Execution where
  before := r.before
  call := ⟨"BEGIN TRANSACTION", []⟩

/-- The connection on which the statement of a request is executed. -/
def start (r : Request) : Connection := if r.Due then r.opening.after else r.before

theorem due_iff (h : Connection.Rested r.before) :
    ((r.executes && !r.before.config.autocommit) && r.before.session.status = .idle) = true ↔
      r.Due := by
  rw [Due, h.status, Option.some.injEq, Bool.and_eq_true, Bool.and_eq_true, decide_eq_true_iff,
    Bool.not_eq_true', and_assoc]

/-- A BEGIN passes in every style. -/
theorem begin_passes (style : Placeholder.Style) :
    ∃ order, Placeholder.convert style "BEGIN TRANSACTION" = .ok ("BEGIN TRANSACTION", order) ∧
      order.arrange .none = .ok [] := by
  cases style <;> exact ⟨_, rfl, rfl⟩

/-- A request that does not pass changes nothing. -/
theorem refused (h : r.before.Usable) (hnone : ∀ k, ¬ r.Passes k) :
    ∃ e, r.outcome = ((.error e, r.copy), r.before) := by
  have hopen := Bool.or_eq_false_iff.2 ⟨h.sound, h.opened⟩
  rw [outcome, execute_run]
  cases hcall : ((call r.sql r.args).run r.before).1 with
  | error e => exact ⟨e, rfl⟩
  | ok k => exact absurd ((call_eq_ok_iff hopen).1 hcall) (hnone k)

/-- A request that passes is its own execution, after the BEGIN where one is due. -/
theorem outcome_eq (h : r.before.Usable) (hrested : Connection.Rested r.before) (hk : r.Passes k) :
    r.outcome =
      if r.Due then
        match r.opening.result with
        | .error e => ((.error e, r.copy), r.opening.after)
        | .ok _ => perform k r.copy r.opening.after
      else perform k r.copy r.before := by
  have hopen := Bool.or_eq_false_iff.2 ⟨h.sound, h.opened⟩
  have hcall : ((call r.sql r.args).run r.before).1 = .ok k := (call_eq_ok_iff hopen).2 hk
  rw [outcome, execute_run, hcall]
  dsimp only
  by_cases due : r.Due
  · obtain ⟨order, hconvert, harrange⟩ := begin_passes r.before.config.style
    have hbegin : ((call "BEGIN TRANSACTION" .none).run r.before).1 = .ok r.opening.call :=
      (call_eq_ok_iff hopen).2 ⟨order, hconvert, harrange, Nat.zero_le _⟩
    have hperform : perform r.opening.call {} r.before =
        ((r.opening.result, (perform r.opening.call {} r.before).1.2), r.opening.after) := rfl
    rw [if_pos ((due_iff hrested).2 due), if_pos due, beginTransaction_run, hbegin]
    dsimp only
    rw [hperform]
    cases r.opening.result with
    | error e => rfl
    | ok value => rfl
  · rw [if_neg (mt (due_iff hrested).1 due), if_neg due]

end Request

end PgClient
