/-
  PgClient.Proofs.Connection.Runs

  The calls of a user, one after the other, and the executions that they come
  down to. Between two executions nothing happens to a connection but that its
  user changes a setting or takes its notifications.
-/
import PgClient.Cursor
import PgClient.Proofs.Connection.Moves

namespace PgClient

open ConnectionM Steps

/-! ## Executions -/

/-- One execution of a call: the connection that it finds, and the streams lent to it. -/
structure Execution where
  before : Connection
  call : ConnectionM.Call
  copy : CopyStreams := {}

namespace Execution

def result (x : Execution) : Except Error (Statement × Outcome) :=
  (perform x.call x.copy x.before).1.1

def after (x : Execution) : Connection := (perform x.call x.copy x.before).2

end Execution

namespace ConnectionM

/-- The executions of one statement: an implicit BEGIN, if one is asked for and no transaction is
open, and the statement itself, unless the BEGIN fails. -/
def executions (sql : String) (args : Placeholder.Arguments) (copy : CopyStreams)
    (implicitBegin : Bool) (c : Connection) : List Execution :=
  match ((call sql args).run c).1 with
  | .error _ => []
  | .ok call =>
    if implicitBegin && c.session.status = .idle then
      match ((ConnectionM.call "BEGIN TRANSACTION" .none).run c).1 with
      | .error _ => []
      | .ok opening =>
        let opens : Execution := { before := c, call := opening }
        match opens.result with
        | .error _ => [opens]
        | .ok _ => [opens, { before := opens.after, call, copy }]
    else [{ before := c, call, copy }]

end ConnectionM

namespace Cursor

/-- The executions of a statement for each set of arguments, up to the first that fails. -/
def executionsEach (sql : String) (copy : CopyStreams) (c : Connection) :
    List Placeholder.Arguments → List Execution
  | [] => []
  | args :: sets =>
    ConnectionM.executions sql args copy (!c.config.autocommit) c ++
      match Connection.run sql args copy c with
      | ((.error _, _), _) => []
      | ((.ok _, copy), c) => executionsEach sql copy c sets

end Cursor

/-! ## Operations -/

/-- What a user does with an open connection, with any cursor. -/
inductive Operation where
  | query (sql : String) (args : Placeholder.Arguments)
  | commit
  | rollback
  | execute (cursor : Cursor) (sql : String) (args : Placeholder.Arguments)
  | executeMany (cursor : Cursor) (sql : String) (sets : List Placeholder.Arguments)
  | setAutocommit (on : Bool)
  | takeNotifications

namespace Operation

/-- The connection after an operation. -/
def run (c : Connection) : Operation → Connection
  | query sql args => (c.query sql args).2
  | commit => c.commit.2
  | rollback => c.rollback.2
  | execute cursor sql args => (cursor.execute sql args c).2
  | executeMany cursor sql sets => (cursor.executeMany sql sets c).2
  | setAutocommit on => c.setAutocommit on
  | takeNotifications => c.takeNotifications.2

/-- The executions of an operation, in order. -/
def executions (c : Connection) : Operation → List Execution
  | query sql args => ConnectionM.executions sql args {} (!c.config.autocommit) c
  | commit => ConnectionM.executions "COMMIT" .none {} false c
  | rollback => ConnectionM.executions "ROLLBACK" .none {} false c
  | execute cursor sql args =>
    if cursor.closed then []
    else ConnectionM.executions sql args cursor.copyStreams (!c.config.autocommit) c
  | executeMany cursor sql sets =>
    if cursor.closed then [] else Cursor.executionsEach sql cursor.copyStreams c sets
  | setAutocommit _ | takeNotifications => []

end Operation

namespace Connection

/-- The connection after some operations. -/
def runs (c : Connection) (ops : List Operation) : Connection := ops.foldl Operation.run c

/-- The executions of some operations, in order. -/
def executions (c : Connection) : List Operation → List Execution
  | [] => []
  | op :: ops => op.executions c ++ executions (op.run c) ops

end Connection

/-! ## The look at a call -/

namespace ConnectionM

/-- A call is looked at without a change to the connection. -/
theorem call_state (sql : String) (args : Placeholder.Arguments) (c : Connection) :
    ((call sql args).run c).2 = c := by
  rw [call, run_bind, run_get]
  dsimp only
  by_cases closed : (c.session.broken || c.terminated) = true
  · rw [if_pos closed]
    rfl
  · rw [if_neg closed, run_bind, run_ofExcept]
    split
    · rename_i call d hcall
      obtain ⟨-, rfl⟩ := Prod.mk.inj hcall
      by_cases many : Error.maxParameters < call.values.length
      · rw [if_pos many]
        rfl
      · rw [if_neg many]
        rfl
    · rename_i e d hcall
      exact (Prod.mk.inj hcall).2.symm

/-- A call on a broken or a closed connection fails, whatever it is. -/
theorem call_closed (sql : String) (args : Placeholder.Arguments) {c : Connection}
    (h : (c.session.broken || c.terminated) = true) :
    (call sql args).run c = (.error .connectionClosed, c) := by
  rw [call, run_bind, run_get]
  dsimp only
  rw [if_pos h]
  rfl

/-- A call that passes is on a connection that is fit for use. -/
theorem call_open {sql : String} {args : Placeholder.Arguments} {c d : Connection} {k : Call}
    (h : (call sql args).run c = (.ok k, d)) :
    c.session.broken = false ∧ c.terminated = false := by
  by_cases closed : (c.session.broken || c.terminated) = true
  · rw [call_closed sql args closed] at h
    obtain ⟨hr, -⟩ := Prod.mk.inj h
    cases hr
  · rw [Bool.not_eq_true, Bool.or_eq_false_iff] at closed
    exact closed

end ConnectionM

/-! ## Rows of executions -/

namespace Connection

/-- The same connection up to what its user may change between two calls. -/
inductive Settings (c : Connection) : Connection → Prop
  | intro (autocommit : Bool) (notifications : List Notification) :
    Settings c
      { c with
        session := { c.session with notifications }
        config := { c.config with autocommit } }

theorem Settings.refl (c : Connection) : Settings c c :=
  .intro c.config.autocommit c.session.notifications

theorem Settings.trans {c d e : Connection} (h : Settings c d) (h' : Settings d e) :
    Settings c e := by
  cases h
  cases h'
  exact .intro _ _

namespace Settings

variable {c d : Connection}

theorem broken (h : Settings c d) : d.session.broken = c.session.broken := by
  cases h
  rfl

theorem stream (h : Settings c d) : d.session.stream = c.session.stream := by
  cases h
  rfl

theorem history (h : Settings c d) : d.session.history = c.session.history := by
  cases h
  rfl

theorem terminated (h : Settings c d) : d.terminated = c.terminated := by
  cases h
  rfl

end Settings

/-- A connection that is fit for an execution. -/
structure Usable (c : Connection) : Prop where
  settled : c.session.Settled
  sound : c.session.broken = false
  opened : c.terminated = false

/-- A connection goes through some executions, one after the other. -/
inductive Performs : Connection → List Execution → Connection → Prop
  | nil {c c' : Connection} (settings : Settings c c') : Performs c [] c'
  | cons {c c' : Connection} {x : Execution} {xs : List Execution}
    (settings : Settings c x.before) (usable : x.before.Usable)
    (rest : Performs x.after xs c') : Performs c (x :: xs) c'

namespace Performs

variable {c d e : Connection} {xs ys : List Execution} {x : Execution}

theorem of_settings (h : Settings c d) (h' : Performs d xs e) : Performs c xs e := by
  cases h' with
  | nil settings => exact .nil (h.trans settings)
  | cons settings usable rest => exact .cons (h.trans settings) usable rest

theorem append (h : Performs c xs d) (h' : Performs d ys e) : Performs c (xs ++ ys) e := by
  induction h with
  | nil settings => exact of_settings settings h'
  | cons settings usable rest ih => exact .cons settings usable (ih h')

/-- A row of executions can be taken apart at each of them. -/
theorem split (h : Performs c (xs ++ x :: ys) e) :
    Performs c xs x.before ∧ x.before.Usable ∧ Performs x.after ys e := by
  induction xs generalizing c with
  | nil =>
    cases h with
    | cons settings usable rest => exact ⟨.nil settings, usable, rest⟩
  | cons y xs ih =>
    cases h with
    | cons settings usable rest =>
      obtain ⟨hbefore, hx, hafter⟩ := ih rest
      exact ⟨.cons settings usable hbefore, hx, hafter⟩

/-- What settings and executions keep is kept by all of them. -/
theorem invariant {I : Connection → Prop} (hsettings : ∀ {c d}, Settings c d → I c → I d)
    (hexecution : ∀ x : Execution, x.before.Usable → I x.before → I x.after)
    (h : Performs c xs d) (hc : I c) : I d := by
  induction h with
  | nil settings => exact hsettings settings hc
  | cons settings usable rest ih => exact ih (hexecution _ usable (hsettings settings hc))

/-- What settings cannot bring about, and is not there at first, is brought about by one of the
executions. -/
theorem crossing {P : Connection → Prop} (hsettings : ∀ {c d}, Settings c d → P d → P c)
    (h : Performs c xs d) (hc : ¬ P c) (hd : P d) :
    ∃ before x after, xs = before ++ x :: after ∧ ¬ P x.before ∧ P x.after := by
  induction h with
  | nil settings => exact absurd (hsettings settings hd) hc
  | @cons c d x xs settings usable rest ih =>
    have hx : ¬ P x.before := fun hx => hc (hsettings settings hx)
    -- The first execution brings it about, or one of the later ones.
    by_cases hafter : P x.after
    · exact ⟨[], x, xs, rfl, hx, hafter⟩
    · obtain ⟨before, y, after, rfl, hy⟩ := ih hafter hd
      exact ⟨x :: before, y, after, rfl, hy⟩

end Performs

end Connection

/-! ## Calls as rows of executions -/

namespace Execution

open Connection

variable {x : Execution}

theorem performed (h : x.before.Usable) :
    Performed x.call x.copy x.before (perform x.call x.copy x.before).1 x.after :=
  perform_cases x.call x.copy h.settled h.sound

theorem moves (h : x.before.Usable) : Moves true x.before x.after :=
  (x.performed h).moves h.settled h.sound

/-- After an execution that succeeded the connection is fit for the next one. -/
theorem usable_after {value : Statement × Outcome} (h : x.before.Usable)
    (hr : x.result = .ok value) : x.after.Usable where
  settled := (x.moves h).settled h.settled
  sound := by
    have hperformed := x.performed h
    rw [show (perform x.call x.copy x.before).1 = (.ok value, _) from Prod.ext hr rfl]
      at hperformed
    exact hperformed.sound h.settled h.sound
  opened := by
    rw [(x.moves h).kept.rest]
    exact h.opened

/-- One execution is a row of one. -/
theorem performs (h : x.before.Usable) : Performs x.before [x] x.after :=
  .cons (.refl _) h (.nil (.refl _))

end Execution

namespace ConnectionM

open Connection

/-- Opening a transaction is the execution of its statement. -/
theorem beginTransaction_run (c : Connection) :
    beginTransaction.run c =
      match ((call "BEGIN TRANSACTION" .none).run c).1 with
      | .error e => (.error e, c)
      | .ok opening =>
        let out := perform opening {} c
        (out.1.1.map fun _ => (), out.2) := by
  have hstate := call_state "BEGIN TRANSACTION" .none c
  rw [beginTransaction, run_bind]
  rcases hcall : (call "BEGIN TRANSACTION" .none).run c with ⟨e | opening, d⟩
  · rw [hcall] at hstate
    obtain rfl : d = c := hstate
    rfl
  · rw [hcall] at hstate
    obtain rfl : d = c := hstate
    dsimp only
    show ((liftM (perform opening {}) : ConnectionM _) >>= _).run d = _
    rw [run_bind]
    rcases hperform : perform opening {} d with ⟨⟨_ | _, copy⟩, d'⟩ <;>
      rw [show (liftM (perform opening {}) : ConnectionM _).run d =
        (.ok (perform opening {} d).1, (perform opening {} d).2) from rfl, hperform] <;> rfl

/-- A statement is executed after the look at its call, and after a BEGIN where one is due. -/
theorem execute_run (sql : String) (args : Placeholder.Arguments) (copy : CopyStreams)
    (implicitBegin : Bool) (c : Connection) :
    execute sql args copy implicitBegin c =
      match ((call sql args).run c).1 with
      | .error e => ((.error e, copy), c)
      | .ok k =>
        if (implicitBegin && c.session.status = .idle) = true then
          match beginTransaction.run c with
          | (.error e, d) => ((.error e, copy), d)
          | (.ok (), d) => perform k copy d
        else perform k copy c := by
  have hstate := call_state sql args c
  unfold execute
  rw [state_bind]
  rcases hcall : (call sql args).run c with ⟨e | k, d⟩
  · rw [hcall] at hstate
    obtain rfl : d = c := hstate
    rfl
  · rw [hcall] at hstate
    obtain rfl : d = c := hstate
    dsimp only
    rw [state_bind, state_get]
    dsimp only
    by_cases opens : (implicitBegin && d.session.status = .idle) = true
    · rw [if_pos opens, if_pos opens, state_bind]
      rcases beginTransaction.run d with ⟨e | ⟨⟨⟩⟩, d'⟩ <;> rfl
    · rw [if_neg opens, if_neg opens]
      rfl

/-- A statement comes down to its executions. -/
theorem execute_performs (sql : String) (args : Placeholder.Arguments) (copy : CopyStreams)
    (implicitBegin : Bool) {c : Connection} (hs : c.session.Settled) :
    Performs c (executions sql args copy implicitBegin c)
      (execute sql args copy implicitBegin c).2 := by
  rw [execute_run]
  unfold executions
  rcases hcall : (call sql args).run c with ⟨e | k, d⟩
  · exact .nil (.refl c)
  · obtain ⟨hsound, hopened⟩ := call_open hcall
    have husable : c.Usable := ⟨hs, hsound, hopened⟩
    dsimp only
    by_cases opens : (implicitBegin && c.session.status = .idle) = true
    · rw [if_pos opens, if_pos opens, beginTransaction_run]
      rcases (call "BEGIN TRANSACTION" .none).run c with ⟨e | opening, d'⟩
      · exact .nil (.refl c)
      · dsimp only
        -- The BEGIN is an execution of its own; its failure leaves the statement out.
        generalize hx : ({ before := c, call := opening } : Execution) = x
        have hbefore : x.before = c := by rw [← hx]
        have husable' : x.before.Usable := hbefore ▸ husable
        have hfirst : Performs c [x] x.after := hbefore ▸ Execution.performs husable'
        have hout : perform opening {} c = ((x.result, (perform opening {} c).1.2), x.after) := by
          rw [← hx]
          rfl
        rw [hout]
        cases hresult : x.result with
        | error e => exact hfirst
        | ok value =>
          exact hfirst.append
            (Execution.performs (x := ⟨x.after, k, copy⟩) (x.usable_after husable' hresult))
    · rw [if_neg opens, if_neg opens]
      exact Execution.performs (x := { before := c, call := k, copy }) husable

end ConnectionM

namespace Connection

/-- Executions of a settled connection leave it settled. -/
theorem Performs.settled {c d : Connection} {xs : List Execution} (h : Performs c xs d)
    (hs : c.session.Settled) : d.session.Settled := by
  refine h.invariant (I := fun c => c.session.Settled) ?_ ?_ hs
  · rintro c d ⟨autocommit, notifications⟩ hs
    exact ⟨hs.staged, hs.deferred⟩
  · intro x husable hs
    exact (x.moves husable).settled hs

end Connection

/-- A statement for many sets of arguments comes down to its executions. -/
theorem Cursor.executeEach_performs (sql : String) (sets : List Placeholder.Arguments)
    (copy : CopyStreams) (total : Option Int64) (last : Option Statement) {c : Connection}
    (hs : c.session.Settled) :
    Connection.Performs c (executionsEach sql copy c sets)
      (executeEach sql copy total last sets c).2 := by
  induction sets generalizing copy total last c with
  | nil => exact .nil (.refl c)
  | cons args sets ih =>
    have hfirst := execute_performs sql args copy (!c.config.autocommit) hs
    rw [executionsEach, executeEach, state_bind]
    have hrun : Connection.run sql args copy c =
        ConnectionM.execute sql args copy (!c.config.autocommit) c := rfl
    rw [← hrun] at hfirst
    rcases hout : Connection.run sql args copy c with ⟨⟨_ | ⟨statement, outcome⟩, copy'⟩, d⟩
    · rw [hout] at hfirst
      rw [List.append_nil]
      exact hfirst
    · rw [hout] at hfirst
      exact hfirst.append (ih copy' _ _ (hfirst.settled hs))

/-- A closed cursor leaves the connection alone; any other has its statement run. -/
theorem Cursor.execute_state (cur : Cursor) (sql : String) (args : Placeholder.Arguments)
    (c : Connection) :
    (cur.execute sql args c).2 =
      if cur.closed then c else (Connection.run sql args cur.copyStreams c).2 := by
  unfold Cursor.execute
  by_cases closed : cur.closed = true
  · rw [if_pos closed, if_pos closed]
    rfl
  · rw [if_neg closed, if_neg closed, state_bind]
    rcases Connection.run sql args cur.copyStreams c with ⟨⟨_ | _, copy⟩, d⟩ <;> rfl

theorem Cursor.executeMany_state (cur : Cursor) (sql : String)
    (sets : List Placeholder.Arguments) (c : Connection) :
    (cur.executeMany sql sets c).2 =
      if cur.closed then c else (executeEach sql cur.copyStreams none none sets c).2 := by
  unfold Cursor.executeMany
  by_cases closed : cur.closed = true
  · rw [if_pos closed, if_pos closed]
    rfl
  · rw [if_neg closed, if_neg closed, state_bind]
    rcases executeEach sql cur.copyStreams none none sets c with ⟨⟨_ | _, copy⟩, d⟩ <;> rfl

/-- Every operation comes down to its executions. -/
theorem Operation.performs (op : Operation) {c : Connection} (hs : c.session.Settled) :
    Connection.Performs c (op.executions c) (op.run c) := by
  cases op with
  | query sql args => exact execute_performs sql args {} _ hs
  | commit => exact execute_performs "COMMIT" .none {} false hs
  | rollback => exact execute_performs "ROLLBACK" .none {} false hs
  | execute cursor sql args =>
    rw [executions, run, Cursor.execute_state]
    by_cases closed : cursor.closed = true
    · rw [if_pos closed, if_pos closed]
      exact .nil (.refl c)
    · rw [if_neg closed, if_neg closed]
      exact execute_performs sql args cursor.copyStreams (!c.config.autocommit) hs
  | executeMany cursor sql sets =>
    rw [executions, run, Cursor.executeMany_state]
    by_cases closed : cursor.closed = true
    · rw [if_pos closed, if_pos closed]
      exact .nil (.refl c)
    · rw [if_neg closed, if_neg closed]
      exact Cursor.executeEach_performs sql sets cursor.copyStreams none none hs
  | setAutocommit on => exact .nil (.intro on c.session.notifications)
  | takeNotifications => exact .nil (.intro c.config.autocommit [])

namespace Connection

/-- Any row of operations comes down to the executions of all of them. -/
theorem runs_performs (ops : List Operation) {c : Connection} (hs : c.session.Settled) :
    Performs c (c.executions ops) (c.runs ops) := by
  induction ops generalizing c with
  | nil => exact .nil (.refl c)
  | cons op ops ih =>
    have hfirst := op.performs hs
    exact hfirst.append (ih (hfirst.settled hs))

end Connection

end PgClient
