/-
  PgClient.Proofs.Connection.Parts

  The parts of an execution, run from a given connection. Each of them is at most
  one exchange of the session and a change of what the connection keeps beside
  it: the cache and the number of the next statement.
-/
import PgClient.Connection.Execute
import PgClient.Proofs.Session.Exchange
import PgClient.Proofs.Statement.Cache

namespace PgClient

open Steps

namespace ConnectionM

/-! ## Steps of the session -/

@[simp] theorem onSession_run {α : Type} (step : SessionM α) (c : Connection) :
    (onSession step).run c =
      ((step.run c.session).1, { c with session := (step.run c.session).2 }) := by
  simp only [onSession, run_bind, run_get]
  rcases step.run c.session with ⟨_ | a, s⟩ <;> rfl

@[simp] theorem stage_run (m : Frontend) (c : Connection) :
    (stage m).run c =
      (.ok (), { c with session := { c.session with staged := c.session.staged ++ [m] } }) := rfl

@[simp] theorem flush_run (c : Connection) :
    flush.run c = ((SessionM.flush.run c.session).1,
      { c with session := (SessionM.flush.run c.session).2 }) :=
  onSession_run _ c

/-- A cycle never fails as a step; its result is a value to look at. -/
@[simp] theorem cycle_run (receiver : Receiver) (c : Connection) :
    (liftM (cycle receiver) : ConnectionM _).run c =
      let out := c.session.cycle receiver
      (.ok (out.1, out.2.1), { c with session := out.2.2 }) := rfl

@[simp] theorem takeSequence_run (c : Connection) :
    takeSequence.run c = (.ok c.sequence, { c with sequence := c.sequence + 1 }) := rfl

/-! ## Preparing -/

/-- The batch that parses and describes a statement. -/
def prepareBatch (name : String) (query : Bytes) (encoders : List ParamEncoder) :
    List Frontend :=
  [.parse name query (encoders.map (·.oid)), .describe .statement name, .sync]

/-- The name of the next statement. -/
def nextName (named : Bool) (c : Connection) : String :=
  if named then Statement.nameOf c.process c.sequence else ""

/-- The statement that a description makes. -/
def describedStatement (named : Bool) (encoders : List ParamEncoder) (c : Connection)
    (paramTypes : List Oid) (fields : List FieldDescription) : Statement where
  name := nextName named c
  sequence := c.sequence
  encoders := encoders
  paramTypes := paramTypes
  columns := fields.map fun field => ⟨field, c.codec.lookup field.typeOid⟩

theorem prepare_run (named : Bool) (sql : String) (encoders : List ParamEncoder)
    (c : Connection) (hs : c.session.staged = []) :
    (prepare named sql encoders).run c =
      match c.session.context.encodeText sql with
      | .error e => (.error e, { c with sequence := c.sequence + 1 })
      | .ok query =>
        let out := c.session.exchange (prepareBatch (nextName named c) query encoders)
          (.describe {})
        (match out.1, out.2.1 with
          | .error e, _ => .error e
          | .ok (), .describe { paramTypes, fields := some fields } =>
            .ok (describedStatement named encoders c paramTypes fields)
          | .ok (), _ => .error (.violation .notDescribed),
        { c with sequence := c.sequence + 1, session := out.2.2 }) := by
  simp only [prepare, run_bind, takeSequence_run, run_get, run_ofExcept]
  cases c.session.context.encodeText sql with
  | error e => rfl
  | ok query =>
    -- With nothing staged before, the batch is what the write sends.
    simp only [stage_run, flush_run, SessionM.flush_run, hs, List.nil_append, List.cons_append,
      List.cons_ne_nil, if_false, cycle_run, Session.send_staged, Session.exchange, prepareBatch,
      nextName]
    generalize c.session.send _ = sent
    obtain ⟨_ | ⟨⟨⟩⟩, t⟩ := sent
    · rfl
    · dsimp only
      rcases t.cycle (.describe {}) with ⟨_ | ⟨⟨⟩⟩, receiver, u⟩
      · rfl
      · cases receiver with
        | describe d => obtain ⟨types, _ | fields⟩ := d <;> rfl
        | _ => rfl

/-- What came of a statement that could not be prepared: its text cannot be encoded, or the
exchange that prepares it brought an error or no description. -/
inductive Unprepared (named : Bool) (sql : String) (encoders : List ParamEncoder)
    (c : Connection) : Connection → Prop
  | unencoded : Unprepared named sql encoders c { c with sequence := c.sequence + 1 }
  | failed {query : Bytes} {events : List Event} {s : Session}
    (encoded : c.session.context.encodeText sql = .ok query)
    (exchanged : c.session.Exchanged (prepareBatch (nextName named c) query encoders) events s) :
    Unprepared named sql encoders c { c with sequence := c.sequence + 1, session := s }

/-- What came of a statement that was parsed and described without an error. -/
inductive Prepared (named : Bool) (sql : String) (encoders : List ParamEncoder)
    (c : Connection) : Statement → Connection → Prop
  | intro {query : Bytes} {messages : List Backend} {status : TransactionStatus} {s : Session}
    (paramTypes : List Oid) (fields : List FieldDescription)
    (encoded : c.session.context.encodeText sql = .ok query)
    (exchanged : c.session.Exchanged (prepareBatch (nextName named c) query encoders)
      (.wrote (prepareBatch (nextName named c) query encoders) ::
        (messages.map .received ++ [.received (.readyForQuery status)])) s)
    (accepted : ∀ m ∈ messages, m.isReady = false ∧ (Receiver.describe {}).refuses m = false)
    (broken : s.broken = false) :
    Prepared named sql encoders c (describedStatement named encoders c paramTypes fields)
      { c with sequence := c.sequence + 1, session := s }

theorem Prepared.settled {named : Bool} {sql : String} {encoders : List ParamEncoder}
    {c c' : Connection} {statement : Statement}
    (h : Prepared named sql encoders c statement c') : c'.session.Settled := by
  obtain ⟨_, _, _, exchanged, _, _⟩ := h
  exact exchanged.settled

/-- A statement is prepared or it is not; in both cases a number is used up. -/
theorem prepare_cases {named : Bool} {sql : String} {encoders : List ParamEncoder}
    {c c' : Connection} {r : Except Error Statement} (hs : c.session.Settled)
    (hb : c.session.broken = false) (h : (prepare named sql encoders).run c = (r, c')) :
    (∃ e, r = .error e ∧ Unprepared named sql encoders c c') ∨
      ∃ statement, r = .ok statement ∧ Prepared named sql encoders c statement c' := by
  rw [prepare_run _ _ _ _ hs.staged] at h
  cases hquery : c.session.context.encodeText sql with
  | error e =>
    rw [hquery] at h
    obtain ⟨rfl, rfl⟩ := Prod.mk.inj h
    exact .inl ⟨e, rfl, .unencoded⟩
  | ok query =>
    rw [hquery] at h
    have hbatch : prepareBatch (nextName named c) query encoders ≠ [] := List.cons_ne_nil _ _
    rcases hout : c.session.exchange (prepareBatch (nextName named c) query encoders)
      (.describe {}) with ⟨r', receiver, s⟩
    simp only [hout] at h
    obtain ⟨hr, rfl⟩ := Prod.mk.inj h
    -- Without a description the statement is no better than one that failed.
    have hfailed : Unprepared named sql encoders c
        { c with sequence := c.sequence + 1, session := s } := by
      obtain ⟨events, hexchanged⟩ :=
        Session.exchange_exchanged (.describe {}) hbatch hb hs.deferred
      rw [hout] at hexchanged
      exact .failed hquery hexchanged
    split at hr
    · exact .inl ⟨_, hr.symm, hfailed⟩
    -- A described statement: the receiver of a description has nothing to answer.
    · obtain ⟨body, status, hbroken, hexchanged, hunready, haccepted, hsilent⟩ :=
        Session.exchange_ok hbatch hb hs.deferred hout
      rw [hsilent rfl] at hexchanged
      exact .inr ⟨_, hr.symm, .intro _ _ hquery hexchanged
        (fun m hm => ⟨hunready m hm, haccepted m hm⟩) hbroken⟩
    · exact .inl ⟨_, hr.symm, hfailed⟩

/-! ## Obtaining -/

/-- What came of a statement that was obtained: it was found in the cache, or prepared and kept
there, or prepared where nothing is kept. What had to go from the cache is staged to be closed. -/
inductive Obtained (key : StatementKey) (encoders : List ParamEncoder) (c : Connection) :
    Statement → Connection → Prop
  | hit {statement : Statement} (enabled : c.cache.capacity ≠ 0)
    (found : c.cache.peek? key = some statement) :
    Obtained key encoders c statement { c with cache := c.cache.touch key statement }
  | miss {statement : Statement} {c' : Connection} (enabled : c.cache.capacity ≠ 0)
    (missing : c.cache.peek? key = none)
    (prepared : Prepared true key.sql encoders c statement c') :
    Obtained key encoders c statement
      { c' with
        cache := (c.cache.push key statement).1
        session :=
          { c'.session with
            staged := (c.cache.push key statement).2.toList.map fun evicted =>
              .close .statement evicted.name } }
  | unkept {statement : Statement} {c' : Connection} (disabled : c.cache.capacity = 0)
    (prepared : Prepared false key.sql encoders c statement c') :
    Obtained key encoders c statement c'

/-- The cache is kept after a look-up, and what had to go from it is staged to be closed. -/
theorem keep_run (found : Cache.Lookup Statement) (cache : StatementCache) (c : Connection) :
    (do
      modify fun c => { c with cache }
      match found.evicted with
      | some evicted => stage (.close .statement evicted.name)
      | none => pure ()
      return found.value : ConnectionM Statement).run c =
      (.ok found.value,
        { c with
          cache
          session :=
            { c.session with
              staged := c.session.staged ++ found.evicted.toList.map fun evicted =>
                .close .statement evicted.name } }) := by
  rcases found with ⟨value, hit, _ | evicted⟩
  · simp only [run_bind, run_modify, run_pure, Option.toList_none, List.map_nil, List.append_nil]
  · rfl

/-- A statement is found in the cache, or it is prepared; one that is prepared is kept where
anything is kept. -/
theorem obtain_split {key : StatementKey} {encoders : List ParamEncoder} {c c' : Connection}
    {r : Except Error Statement} (h : (obtain key encoders).run c = (r, c')) :
    (∃ statement, c.cache.capacity ≠ 0 ∧ c.cache.peek? key = some statement ∧
        r = .ok statement ∧ c' = { c with cache := c.cache.touch key statement }) ∨
      ((c.cache.capacity ≠ 0 → c.cache.peek? key = none) ∧
        ((∃ e, r = .error e ∧
            (prepare c.cache.isEnabled key.sql encoders).run c = (.error e, c')) ∨
          ∃ statement d, r = .ok statement ∧
            (prepare c.cache.isEnabled key.sql encoders).run c = (.ok statement, d) ∧
            c' = if c.cache.capacity = 0 then { d with cache := c.cache }
              else
                { d with
                  cache := (c.cache.push key statement).1
                  session :=
                    { d.session with
                      staged := d.session.staged ++
                        (c.cache.push key statement).2.toList.map fun evicted =>
                          .close .statement evicted.name } })) := by
  have hbind : (obtain key encoders).run c =
      (c.cache.getOrCreate key (prepare c.cache.isEnabled key.sql encoders) >>= fun x => do
        modify fun c => { c with cache := x.2 }
        match x.1.evicted with
        | some evicted => stage (.close .statement evicted.name)
        | none => pure ()
        return x.1.value : ConnectionM Statement).run c := rfl
  -- Nothing is staged where nothing had to go.
  have hsame (d : Connection) :
      { d.session with staged := d.session.staged ++ [] } = d.session := by
    rw [List.append_nil]
  rw [hbind] at h
  obtain ⟨e, hlookup, rfl⟩ | ⟨⟨found, cache⟩, d, hlookup, h⟩ := bind_cases h
  · obtain ⟨-, value, -, -, hr⟩ | ⟨hmissing, ⟨e', hprepare, hr⟩ | ⟨value, -, hr⟩⟩ :=
      Cache.getOrCreate_cases hlookup
    · cases hr
    -- The look-up fails only as its build does.
    · cases hr
      exact .inr ⟨hmissing, .inl ⟨e, rfl, hprepare⟩⟩
    · cases hr
  · rw [keep_run] at h
    obtain ⟨rfl, rfl⟩ := Prod.mk.inj h
    obtain ⟨enabled, value, hfound, rfl, hr⟩ | ⟨hmissing, ⟨e', -, hr⟩ | ⟨value, hprepare, hr⟩⟩ :=
      Cache.getOrCreate_cases hlookup
    · cases hr
      refine .inl ⟨value, enabled, hfound, rfl, ?_⟩
      show ({ d with
        cache := d.cache.touch key value
        session := { d.session with staged := d.session.staged ++ [] } } : Connection) = _
      rw [hsame]
    · cases hr
    · refine .inr ⟨hmissing, .inr ⟨value, d, ?_⟩⟩
      by_cases disabled : c.cache.capacity = 0
      · rw [if_pos disabled] at hr ⊢
        cases hr
        refine ⟨rfl, hprepare, ?_⟩
        show ({ d with
          cache := c.cache
          session := { d.session with staged := d.session.staged ++ [] } } : Connection) = _
        rw [hsame]
      · rw [if_neg disabled] at hr ⊢
        cases hr
        exact ⟨rfl, hprepare, rfl⟩

/-- A statement is obtained unless it has to be prepared and is not. -/
theorem obtain_cases {key : StatementKey} {encoders : List ParamEncoder} {c c' : Connection}
    {r : Except Error Statement} (hs : c.session.Settled) (hb : c.session.broken = false)
    (h : (obtain key encoders).run c = (r, c')) :
    (∃ e, r = .error e ∧ Unprepared c.cache.isEnabled key.sql encoders c c') ∨
      ∃ statement, r = .ok statement ∧ Obtained key encoders c statement c' := by
  obtain ⟨statement, enabled, found, rfl, rfl⟩ |
    ⟨hmissing, ⟨e, rfl, hprepare⟩ | ⟨statement, d, rfl, hprepare, rfl⟩⟩ := obtain_split h
  · exact .inr ⟨statement, rfl, .hit enabled found⟩
  · obtain ⟨e', -, hunprepared⟩ | ⟨statement, hr, -⟩ := prepare_cases hs hb hprepare
    · exact .inl ⟨e, rfl, hunprepared⟩
    · cases hr
  · obtain ⟨e, hr, -⟩ | ⟨statement', hr, hprepared⟩ := prepare_cases hs hb hprepare
    · cases hr
    cases hr
    refine .inr ⟨statement, rfl, ?_⟩
    -- What was prepared is kept, and something else may have to go for it, or nothing is kept.
    by_cases disabled : c.cache.capacity = 0
    · rw [Cache.isEnabled, disabled] at hprepared
      have hkept := Obtained.unkept disabled hprepared
      obtain @⟨query, messages, status, s, types, fields, -, exchanged, -, -⟩ := hprepared
      rw [if_pos disabled]
      exact hkept
    · have henabled : c.cache.isEnabled = true := decide_eq_true (Nat.pos_of_ne_zero disabled)
      rw [henabled] at hprepared
      rw [if_neg disabled, hprepared.settled.staged, List.nil_append]
      exact .miss disabled (hmissing disabled) hprepared

/-! ## Binding -/

/-- What a call sends to have its statement executed. -/
def bindMessages (statement : Statement) (params : List (Option Bytes)) : List Frontend :=
  [.bind "" statement.name (statement.encoders.map (·.format)) params statement.resultFormats,
    .execute "" 0, .sync]

/-- How a call is made ready for its execution: the statement is obtained, and the values are
encoded as they were inspected. -/
structure Readied (call : Call) (encoders : List ParamEncoder) (params : List (Option Bytes))
    (c : Connection) (statement : Statement) (c' : Connection) : Prop where
  inspected : call.values.mapM c.codec.inspect = .ok encoders
  encoded : (call.values.zip encoders).mapM (encodeParam c.session.context) = .ok params
  obtained : Obtained (.of call.sql encoders) encoders c statement c'

/-- What came of a call that was not sent. -/
inductive Rejected (call : Call) (c : Connection) : Connection → Prop
  | unchanged : Rejected call c c
  | unprepared {encoders : List ParamEncoder} {e : Error} {c' : Connection}
    (inspected : call.values.mapM c.codec.inspect = .ok encoders)
    (failed : Unprepared c.cache.isEnabled call.sql encoders c c')
    (obtaining : (obtain (.of call.sql encoders) encoders).run c = (.error e, c')) :
    Rejected call c c'

/-- A call goes out in one write with all that waits. -/
theorem sendCall_run (statement : Statement) (params : List (Option Bytes)) (c : Connection) :
    (do
      stage (.bind "" statement.name (statement.encoders.map (·.format)) params
        statement.resultFormats)
      stage (.execute "" 0)
      stage .sync
      flush
      return statement : ConnectionM Statement).run c =
      let sent := c.session.send (c.session.staged ++ bindMessages statement params)
      (sent.1.map fun _ => statement, { c with session := sent.2 }) := by
  simp only [run_bind, stage_run, flush_run, SessionM.flush_run, List.append_eq_nil_iff,
    List.cons_ne_nil, and_false, if_false, Session.send_staged, List.append_assoc,
    List.cons_append, List.nil_append, bindMessages]
  generalize c.session.send _ = sent
  obtain ⟨_ | _, s⟩ := sent <;> rfl

/-- A call is sent once its values are inspected and encoded and its statement is obtained. -/
theorem bindCall_run (call : Call) (c : Connection) :
    (bind call).run c =
      match call.values.mapM c.codec.inspect with
      | .error e => (.error e, c)
      | .ok encoders =>
        match (call.values.zip encoders).mapM (encodeParam c.session.context) with
        | .error e => (.error e, c)
        | .ok params =>
          match (obtain (.of call.sql encoders) encoders).run c with
          | (.error e, d) => (.error e, d)
          | (.ok statement, d) =>
            let sent := d.session.send (d.session.staged ++ bindMessages statement params)
            (sent.1.map fun _ => statement, { d with session := sent.2 }) := by
  rw [bind, run_bind, run_get]
  dsimp only
  rw [run_bind, run_ofExcept]
  cases call.values.mapM c.codec.inspect with
  | error e => rfl
  | ok encoders =>
    dsimp only
    rw [run_bind, run_ofExcept]
    cases (call.values.zip encoders).mapM (encodeParam c.session.context) with
    | error e => rfl
    | ok params =>
      dsimp only
      rw [run_bind]
      rcases (obtain (.of call.sql encoders) encoders).run c with ⟨_ | statement, d⟩
      · rfl
      · exact sendCall_run statement params d

/-- A call is rejected, or it is made ready and sent in one write. -/
theorem bindCall_cases {call : Call} {c c' : Connection} {r : Except Error Statement}
    (hs : c.session.Settled) (hb : c.session.broken = false)
    (h : (bind call).run c = (r, c')) :
    (∃ e, r = .error e ∧ Rejected call c c') ∨
      ∃ encoders params statement d, Readied call encoders params c statement d ∧
        (obtain (.of call.sql encoders) encoders).run c = (.ok statement, d) ∧
        r = (d.session.send (d.session.staged ++ bindMessages statement params)).1.map
          (fun _ => statement) ∧
        c' = { d with session :=
          (d.session.send (d.session.staged ++ bindMessages statement params)).2 } := by
  rw [bindCall_run] at h
  cases hinspect : call.values.mapM c.codec.inspect with
  | error e =>
    rw [hinspect] at h
    obtain ⟨rfl, rfl⟩ := Prod.mk.inj h
    exact .inl ⟨e, rfl, .unchanged⟩
  | ok encoders =>
    rw [hinspect] at h
    dsimp only at h
    cases hencode : (call.values.zip encoders).mapM (encodeParam c.session.context) with
    | error e =>
      rw [hencode] at h
      obtain ⟨rfl, rfl⟩ := Prod.mk.inj h
      exact .inl ⟨e, rfl, .unchanged⟩
    | ok params =>
      rw [hencode] at h
      dsimp only at h
      rcases hobtain : (obtain (.of call.sql encoders) encoders).run c with ⟨r', d⟩
      rw [hobtain] at h
      obtain ⟨e, rfl, hunprepared⟩ | ⟨statement, rfl, hobtained⟩ := obtain_cases hs hb hobtain
      · obtain ⟨rfl, rfl⟩ := Prod.mk.inj h
        exact .inl ⟨e, rfl, .unprepared hinspect hunprepared hobtain⟩
      · obtain ⟨rfl, rfl⟩ := Prod.mk.inj h
        exact .inr ⟨encoders, params, statement, d, ⟨hinspect, hencode, hobtained⟩, hobtain, rfl,
          rfl⟩

/-! ## After the execution -/

/-- Sending what is staged and then running a cycle is one exchange. -/
theorem flush_cycle_run (receiver : Receiver) {c : Connection} (hs : c.session.staged ≠ []) :
    (do
      flush
      let (result, _) ← cycle receiver
      MonadExcept.ofExcept result : ConnectionM Unit).run c =
      let out := c.session.exchange c.session.staged receiver
      (out.1, { c with session := out.2.2 }) := by
  rw [run_bind, flush_run, SessionM.flush_run, if_neg hs]
  unfold Session.exchange
  rcases c.session.send c.session.staged with ⟨_ | ⟨⟨⟩⟩, t⟩
  · rfl
  · dsimp only
    rw [run_bind, cycle_run]
    dsimp only
    rw [run_ofExcept]

/-- A round trip is an exchange from which nothing but its end is expected. -/
theorem roundTrip_run {c : Connection} (hs : c.session.staged ≠ []) :
    roundTrip.run c =
      let out := c.session.exchange c.session.staged .discard
      (out.1, { c with session := out.2.2 }) :=
  flush_cycle_run .discard hs

/-- The batch that closes some statements. -/
def closeBatch (names : List String) : List Frontend :=
  names.map (.close .statement) ++ [.sync]

theorem closeBatch_ne_nil (names : List String) : closeBatch names ≠ [] :=
  List.append_ne_nil_of_right_ne_nil _ (List.cons_ne_nil _ _)

/-- The unnamed statement is closed in one exchange, unless the session is broken. -/
theorem releaseUnnamed_run {c : Connection} (hs : c.session.staged = []) :
    releaseUnnamed.run c =
      if c.session.broken then (.ok (), c)
      else
        let out := c.session.exchange (closeBatch [""]) .discard
        (out.1, { c with session := out.2.2 }) := by
  rw [releaseUnnamed, run_bind, run_get]
  dsimp only
  cases hb : c.session.broken with
  | true => rfl
  | false =>
    rw [if_neg Bool.false_ne_true, if_neg Bool.false_ne_true]
    rw [run_bind, stage_run]
    dsimp only
    rw [run_bind, stage_run, hs]
    dsimp only
    rw [roundTrip_run (by simp)]
    rfl

/-- Staging for each item of a list stages them in order. -/
theorem stageAll_run {α : Type} (f : α → Frontend) (items : List α) (c : Connection) :
    (items.forM fun item => stage (f item)).run c =
      (.ok (), { c with session :=
        { c.session with staged := c.session.staged ++ items.map f } }) := by
  induction items generalizing c with
  | nil =>
    rw [List.map_nil, List.append_nil]
    rfl
  | cons item items ih =>
    show (stage (f item) >>= fun _ => items.forM fun item => stage (f item)).run c = _
    rw [run_bind, stage_run]
    dsimp only
    rw [ih, List.map_cons, List.append_assoc, List.singleton_append]

/-- The names of the statements that a cache holds. -/
def cachedNames (cache : StatementCache) : List String := cache.drained.map (·.name)

/-- The cache is emptied, and what it held is closed in one exchange, unless there was nothing in
it or the session is broken. -/
theorem invalidate_run {c : Connection} (hs : c.session.staged = []) :
    invalidate.run c =
      if cachedNames c.cache = [] ∨ c.session.broken = true then
        (.ok (), { c with cache := c.cache.clear })
      else
        let out := c.session.exchange (closeBatch (cachedNames c.cache)) .discard
        (out.1, { c with cache := c.cache.clear, session := out.2.2 }) := by
  have hguard : (c.cache.drained.isEmpty || c.session.broken) = true ↔
      cachedNames c.cache = [] ∨ c.session.broken = true := by
    rw [Bool.or_eq_true, List.isEmpty_iff, cachedNames, List.map_eq_nil_iff]
  rw [invalidate, run_bind, run_get]
  dsimp only
  rw [run_bind, run_set]
  dsimp only
  by_cases skip : cachedNames c.cache = [] ∨ c.session.broken = true
  · rw [if_pos (hguard.2 skip), if_pos skip]
    rfl
  · rw [if_neg fun h => skip (hguard.1 h), if_neg skip]
    rw [run_bind, stageAll_run]
    dsimp only
    rw [run_bind, stage_run, hs]
    dsimp only
    rw [roundTrip_run (by simp), cachedNames, closeBatch, List.map_map, List.nil_append]
    rfl

theorem invalidateStale_run (c : Connection) :
    invalidateStale.run c =
      if c.session.stale then
        invalidate.run { c with session := { c.session with stale := false } }
      else (.ok (), c) := by
  rw [invalidateStale, run_bind, run_get]
  dsimp only
  cases hstale : c.session.stale with
  | true => rfl
  | false => rfl

/-! ## The whole execution -/

/-- The batch that has a statement executed, after what is staged. -/
def executeBatch (statement : Statement) (params : List (Option Bytes)) (c : Connection) :
    List Frontend :=
  c.session.staged ++ bindMessages statement params

/-- An unnamed statement is released, a named one is kept. -/
def release (statement : Statement) : ConnectionM Unit :=
  if statement.isUnnamed then releaseUnnamed else pure ()

/-- What a receiver has collected in an execution. -/
def collected (copy : CopyStreams) : Receiver → Outcome × CopyStreams
  | .rows _ outcome copy => (outcome, copy)
  | _ => ({}, copy)

/-- Three steps in a row succeed if each of them does. -/
theorem inOrder_ok {α : Type} {a b : α} {r r₁ r₂ : Except Error Unit}
    (h : (r.bind fun _ => r₁.bind fun _ => r₂.map fun _ => a) = .ok b) :
    r = .ok () ∧ r₁ = .ok () ∧ r₂ = .ok () ∧ a = b := by
  rcases r with e | ⟨⟨⟩⟩
  · cases h
  rcases r₁ with e | ⟨⟨⟩⟩
  · cases h
  rcases r₂ with e | ⟨⟨⟩⟩
  · cases h
  · exact ⟨rfl, rfl, rfl, Except.ok.inj h⟩

/-- How an execution goes: the call is rejected, or its write is refused, or it is executed, and
then the statement is released and the cache invalidated if it is stale. -/
inductive Performed (call : Call) (copy : CopyStreams) (c : Connection) :
    Except Error (Statement × Outcome) × CopyStreams → Connection → Prop
  | rejected {e : Error} {c' : Connection} (rejected : Rejected call c c') :
    Performed call copy c (.error e, copy) c'
  | refused {encoders : List ParamEncoder} {params : List (Option Bytes)}
    {statement : Statement} {d : Connection} {e : Error} {s : Session}
    (readied : Readied call encoders params c statement d)
    (sent : d.session.send (executeBatch statement params d) = (.error e, s))
    (obtaining : (obtain (.of call.sql encoders) encoders).run c = (.ok statement, d)) :
    Performed call copy c (.error e, copy) { d with session := s }
  | executed {encoders : List ParamEncoder} {params : List (Option Bytes)}
    {statement : Statement} {d c₁ c₂ : Connection} {r r₁ r₂ : Except Error Unit}
    {receiver : Receiver} {s t : Session}
    (readied : Readied call encoders params c statement d)
    (sent : d.session.send (executeBatch statement params d) = (.ok (), s))
    (cycled : s.cycle (.rows statement.columns {} copy) = (r, receiver, t))
    (released : (release statement).run { d with session := t } = (r₁, c₁))
    (invalidated : invalidateStale.run c₁ = (r₂, c₂))
    (obtaining : (obtain (.of call.sql encoders) encoders).run c = (.ok statement, d)) :
    Performed call copy c
      (r.bind fun _ => r₁.bind fun _ => r₂.map fun _ => (statement, (collected copy receiver).1),
        (collected copy receiver).2) c₂

/-- The rest of an execution, after the statement was sent. -/
theorem perform_run {call : Call} (copy : CopyStreams) {c d : Connection}
    {statement : Statement} (hbind : (bind call).run c = (.ok statement, d)) :
    perform call copy c =
      let out := d.session.cycle (.rows statement.columns {} copy)
      let released := (release statement).run { d with session := out.2.2 }
      let invalidated := invalidateStale.run released.2
      ((out.1.bind fun _ => released.1.bind fun _ =>
          invalidated.1.map fun _ => (statement, (collected copy out.2.1).1),
        (collected copy out.2.1).2), invalidated.2) := by
  unfold perform
  rw [state_bind, show (bind call).run c = (.ok statement, d) from hbind]
  dsimp only
  rw [state_bind]
  have hfirst {α : Type} (r r₁ r₂ : Except Error Unit) (a : α) :
      (do r; r₁; r₂; return a) = r.bind fun _ => r₁.bind fun _ => r₂.map fun _ => a := by
    rcases r with _ | _ <;> rcases r₁ with _ | _ <;> rcases r₂ with _ | _ <;> rfl
  by_cases hunnamed : statement.isUnnamed = true
  · rw [if_pos hunnamed, state_bind, state_bind, state_pure, release, if_pos hunnamed, hfirst]
    rfl
  · rw [if_neg hunnamed, state_bind, state_bind, state_pure, release, if_neg hunnamed, hfirst]
    rfl

/-- An execution fails as its call does, before anything of it is sent. -/
theorem perform_error {call : Call} (copy : CopyStreams) {c d : Connection} {e : Error}
    (hbind : (bind call).run c = (.error e, d)) : perform call copy c = ((.error e, copy), d) := by
  unfold perform
  rw [state_bind, show (bind call).run c = (.error e, d) from hbind]
  rfl

/-- Every execution on a sound connection goes in one of these ways. -/
theorem perform_cases (call : Call) (copy : CopyStreams) {c : Connection}
    (hs : c.session.Settled) (hb : c.session.broken = false) :
    Performed call copy c (perform call copy c).1 (perform call copy c).2 := by
  rcases hbind : (bind call).run c with ⟨r₀, d₀⟩
  obtain ⟨e, rfl, hrejected⟩ | ⟨encoders, params, statement, d, hreadied, hobtain, rfl, rfl⟩ :=
    bindCall_cases hs hb hbind
  · rw [perform_error copy hbind]
    exact .rejected hrejected
  · rcases hsend : d.session.send (d.session.staged ++ bindMessages statement params) with
      ⟨e | ⟨⟨⟩⟩, s⟩
    · rw [hsend] at hbind
      rw [perform_error copy hbind]
      exact .refused hreadied hsend hobtain
    · rw [hsend] at hbind
      rw [perform_run copy hbind]
      exact .executed hreadied hsend rfl rfl rfl hobtain

end ConnectionM

end PgClient
