/-
  PgClient.Proofs.Connection.Preparing

  What happens while the statement of a call is obtained. A statement that is
  cached takes no message at all; any other is parsed and described in a cycle of
  its own, in which nothing else is written.
-/
import PgClient.Proofs.Connection.Results

namespace PgClient

open ConnectionM Steps

namespace ConnectionM

variable {key : StatementKey} {encoders : List ParamEncoder} {c d : Connection}
  {statement : Statement} {named : Bool} {sql : String}

/-- The events of a cycle that parses and describes a statement. -/
def preparingEvents (name : String) (query : Bytes) (encoders : List ParamEncoder)
    (messages : List Backend) (status : TransactionStatus) : List Event :=
  .wrote (prepareBatch name query encoders) ::
    (messages.map .received ++ [.received (.readyForQuery status)])

/-- What happens while a statement is obtained: nothing, or it is parsed under its name, in the
encoding that is in force, and the server has no complaint. -/
inductive Preparing (key : StatementKey) (encoders : List ParamEncoder) (c : Connection)
    (statement : Statement) : List Event → Prop
  | cached (enabled : c.cache.capacity ≠ 0) (found : c.cache.peek? key = some statement) :
    Preparing key encoders c statement []
  | parsed {query : Bytes} {messages : List Backend} {status : TransactionStatus}
    (named : statement.name = nextName c.cache.isEnabled c)
    (encoded : c.session.context.encodeText key.sql = .ok query)
    (accepted : ∀ m ∈ messages, m.isReady = false ∧ (Receiver.describe {}).refuses m = false) :
    Preparing key encoders c statement
      (preparingEvents statement.name query encoders messages status)

theorem writtenIn_preparing (name : String) (query : Bytes) (encoders : List ParamEncoder)
    (messages : List Backend) (status : TransactionStatus) :
    writtenIn (preparingEvents name query encoders messages status) =
      prepareBatch name query encoders := by
  have hsilent : writtenIn (messages.map .received) = [] := by
    induction messages with
    | nil => rfl
    | cons m messages ih => exact ih
  rw [preparingEvents, writtenIn_wrote, writtenIn_append, hsilent]
  rfl

theorem Prepared.events (h : Prepared named sql encoders c statement d) :
    ∃ query messages status, statement.name = nextName named c ∧
      c.session.context.encodeText sql = .ok query ∧
      (∀ m ∈ messages, m.isReady = false ∧ (Receiver.describe {}).refuses m = false) ∧
      d.session.events =
        c.session.events ++ preparingEvents statement.name query encoders messages status := by
  obtain ⟨_, _, encoded, exchanged, accepted, _⟩ := h
  exact ⟨_, _, _, rfl, encoded, accepted, exchanged.events_eq⟩

theorem Obtained.preparing (h : Obtained key encoders c statement d) :
    ∃ events, Preparing key encoders c statement events ∧
      d.session.events = c.session.events ++ events := by
  cases h with
  | hit enabled found => exact ⟨[], .cached enabled found, (List.append_nil _).symm⟩
  | miss enabled missing prepared =>
    obtain ⟨query, messages, status, hname, hencoded, haccepted, hevents⟩ := prepared.events
    have henabled : c.cache.isEnabled = true := decide_eq_true (Nat.pos_of_ne_zero enabled)
    exact ⟨_, .parsed (henabled ▸ hname) hencoded haccepted, hevents⟩
  | unkept disabled prepared =>
    obtain ⟨query, messages, status, hname, hencoded, haccepted, hevents⟩ := prepared.events
    have hdisabled : c.cache.isEnabled = false := by
      rw [Cache.isEnabled, disabled]
      rfl
    exact ⟨_, .parsed (hdisabled ▸ hname) hencoded haccepted, hevents⟩

end ConnectionM

/-! ## Binds of a run -/

namespace Connection

variable {c : Connection} {past future : List Frontend} {f : Frontend}

/-- A Bind that is written in the course of some operations is sent by one of their executions. -/
theorem executes_bind {stream : Stream} {config : Config} {options : ConnectOptions}
    (h : connect stream config options = (.ok (), c)) (ops : List Operation)
    (hwritten : (c.runs ops).session.written = past ++ f :: future) (hf : f.isBind = true) :
    ∃ earlier x later, c.executions ops = earlier ++ x :: later ∧ Performs c earlier x.before ∧
      x.before.Usable ∧ Performs x.after later (c.runs ops) ∧
      ∃ encoders params statement d after, x.Sends encoders params statement d after ∧
        past = d.session.written ++ d.session.staged ∧
          f = .bind "" statement.name (statement.encoders.map (·.format)) params
            statement.resultFormats := by
  have hruns := runs_performs ops (settled_of_connect h)
  -- It was not there when the connection was opened.
  have hnew : ¬ ∃ rest, c.session.written = past ++ f :: rest := by
    rintro ⟨rest, hrest⟩
    have hmem : f ∈ writtenIn c.session.events := by
      rw [← Session.written_eq, hrest]
      exact List.mem_append_right _ List.mem_cons_self
    rw [bindless_of_connect h f hmem] at hf
    cases hf
  obtain ⟨earlier, x, later, encoders, params, statement, d, after, hxs, hsends, hpast, hbind⟩ :=
    hruns.bind_cases hf hnew hwritten
  rw [hxs] at hruns
  obtain ⟨hearlier, hx, hlater⟩ := hruns.split
  exact ⟨earlier, x, later, hxs, hearlier, hx, hlater, encoders, params, statement, d, after,
    hsends, hpast, hbind⟩

end Connection

end PgClient
