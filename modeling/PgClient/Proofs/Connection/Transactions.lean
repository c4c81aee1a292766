/-
  PgClient.Proofs.Connection.Transactions

  Transactions that a connection opens by itself. The BEGIN comes before the
  statement that it is opened for, and a BEGIN that fails leaves nothing of that
  statement on the wire. A server that opens a transaction when it is told to, and
  changes its status only when it executes something, is never told to execute a
  statement of the user while it is idle.
-/
import PgClient.Proofs.Connection.Packets
import PgClient.Proofs.Connection.Requests
import PgClient.Proofs.Connection.Unnamed

namespace PgClient

open ConnectionM Steps

/-! ## The texts of statements -/

/-- The text that a message parses under a name. -/
def Frontend.text? (name : String) : Frontend → Option Bytes
  | .parse name' query _ => if name' = name then some query else none
  | _ => none

/-- The text that some messages have parsed last under a name. -/
def textOf (name : String) (fs : List Frontend) : Option Bytes :=
  (fs.filterMap (Frontend.text? name)).getLast?

@[simp] theorem textOf_append (name : String) (fs gs : List Frontend) :
    textOf name (fs ++ gs) = (textOf name gs).or (textOf name fs) := by
  rw [textOf, List.filterMap_append, List.getLast?_append]
  rfl

/-- A name that is not parsed has no text. -/
theorem textOf_eq_none {name : String} {fs : List Frontend} (h : name ∉ parsedNames fs) :
    textOf name fs = none := by
  have hnone : fs.filterMap (Frontend.text? name) = [] := by
    refine List.filterMap_eq_nil_iff.2 fun f hf => ?_
    cases f with
    | parse name' query types =>
      refine if_neg fun hname => h ?_
      rw [← hname]
      exact List.mem_filterMap.2 ⟨_, hf, rfl⟩
    | _ => rfl
  rw [textOf, hnone]
  rfl

@[simp] theorem textOf_prepareBatch (name : String) (query : Bytes)
    (encoders : List ParamEncoder) :
    textOf name (prepareBatch name query encoders) = some query := by
  have htext : Frontend.text? name (.parse name query (encoders.map (·.oid))) = some query :=
    if_pos rfl
  rw [textOf, prepareBatch, List.filterMap_cons_some htext]
  rfl

/-- A message that parses a statement, or binds one, does so for a text. What was written before
the message tells which text its statement has. -/
def Frontend.About (text : Bytes) (past : List Frontend) : Frontend → Prop
  | .parse _ query _ => query = text
  | .bind _ name _ _ _ => textOf name past = some text
  | _ => True

instance (text : Bytes) (past : List Frontend) : ∀ f : Frontend, Decidable (f.About text past)
  | .parse _ query _ => inferInstanceAs (Decidable (query = text))
  | .bind _ name _ _ _ => inferInstanceAs (Decidable (textOf name past = some text))
  | .startup .. | .sslRequest | .password _ | .saslInitial .. | .saslResponse _ | .execute ..
  | .describe .. | .close .. | .sync | .flush | .terminate | .copyData _ | .copyDone
  | .copyFail _ => .isTrue trivial

/-- A statement that was parsed only once has the text of its SQL, in the encoding of that time. -/
theorem ParsedIn.text {sql name : String} {encoders : List ParamEncoder} {events : List Event}
    (h : ParsedIn sql name encoders events) (honce : (parsedNames (writtenIn events)).Nodup) :
    ∃ ctx : CodecContext, ∃ text, ctx.encodeText sql = .ok text ∧
      textOf name (writtenIn events) = some text := by
  obtain ⟨past, query, messages, status, future, rfl, hquery, -⟩ := h
  refine ⟨_, query, hquery, ?_⟩
  have hparts : past ++ .wrote (prepareBatch name query encoders) ::
      (messages.map .received ++ .received (.readyForQuery status) :: future) =
        past ++ preparingEvents name query encoders messages status ++ future := by
    simp only [preparingEvents, List.append_assoc, List.cons_append, List.nil_append]
  rw [hparts, writtenIn_append, writtenIn_append, writtenIn_preparing] at honce ⊢
  -- The only Parse under the name is the last one under it.
  have hlater : name ∉ parsedNames (writtenIn future) := by
    intro hmem
    rw [parsedNames_append, parsedNames_append] at honce
    have hdisjoint := (List.nodup_append.1 honce).2.2
    exact hdisjoint name (List.mem_append_right _ List.mem_cons_self) name hmem rfl
  rw [textOf_append, textOf_append, textOf_eq_none hlater, textOf_prepareBatch]
  rfl

namespace ConnectionM

open Connection

variable {call : Call} {c d : Connection} {encoders : List ParamEncoder}
  {params : List (Option Bytes)} {statement : Statement}

/-- When a call is made ready its statement has the text of its SQL. -/
theorem Readied.text (h : Readied call encoders params c statement d) (hs : c.session.Settled)
    (hledger : 0 < c.cache.capacity → Ledger c) :
    ∃ ctx : CodecContext, ∃ text, ctx.encodeText call.sql = .ok text ∧
      textOf statement.name d.session.written = some text := by
  -- A statement that is kept was parsed once; any other was parsed just now.
  by_cases henabled : 0 < c.cache.capacity
  · obtain ⟨-, hparsed, -⟩ := h.vouched (hledger henabled) hs
    have honce := ((hledger henabled).obtained hs rfl h.obtained).1.parsedOnce
    exact hparsed.text honce
  · obtain ⟨hname, -, -, query, messages, status, hquery, hevents⟩ :=
      h.obtained.reparsed (Nat.eq_zero_of_not_pos henabled)
    refine ⟨_, query, hquery, ?_⟩
    rw [hname, Session.written_eq, hevents, writtenIn_append, writtenIn_preparing, textOf_append,
      textOf_prepareBatch]
    rfl

end ConnectionM

/-- All that an execution parses and binds is the text of its SQL. -/
theorem Execution.about {x : Execution} {text : Bytes} (hx : x.before.Usable)
    (hledger : 0 < x.before.cache.capacity → x.before.Ledger)
    (htext : ∀ ctx : CodecContext, ∀ query, ctx.encodeText x.call.sql = .ok query → query = text)
    {past future : List Frontend} {f : Frontend}
    (hwritten : x.after.session.written = past ++ f :: future)
    (hpast : x.before.session.written <+: past) : f.About text past := by
  cases f with
  | parse name query types =>
    obtain ⟨added, hadded, hparses⟩ := x.parses hx
    obtain ⟨since, rfl⟩ := hpast
    rw [Session.written_eq, hadded, writtenIn_append, ← Session.written_eq, List.append_assoc]
      at hwritten
    have hnew : .parse name query types ∈ writtenIn added := by
      rw [List.append_cancel_left hwritten]
      exact List.mem_append_right _ List.mem_cons_self
    obtain ⟨encoders, -, query', hquery, hparse⟩ := hparses _ _ _ hnew
    cases hparse
    exact htext _ _ hquery
  | bind portal name formats params results =>
    have hnew : ¬ ∃ rest, x.before.session.written =
        past ++ .bind portal name formats params results :: rest := by
      rintro ⟨rest, hrest⟩
      have hlength := hpast.length_le
      rw [hrest, List.length_append, List.length_cons] at hlength
      omega
    obtain ⟨encoders, params', statement, d, after, hsends, rfl, hbind⟩ :=
      x.bind_cases hx rfl hnew hwritten
    obtain ⟨ctx, query, hquery, hknown⟩ := hsends.readied.text hx.settled hledger
    obtain ⟨closed, hclosed⟩ := hsends.readied.obtained.closes hx.settled
    cases hbind
    -- What is closed in front of the Bind is not parsed there.
    have hnone : textOf statement.name d.session.staged = none := by
      refine textOf_eq_none ?_
      rw [hclosed, parsedNames_closes]
      exact List.not_mem_nil
    rw [Frontend.About, textOf_append, hnone, hknown, htext _ _ hquery]
    rfl
  | _ => trivial

/-! ## Executions that succeed -/

/-- Whether a message is a complaint of the server. -/
def Backend.isError : Backend → Bool
  | .errorResponse _ => true
  | _ => false

/-- The cycle of an execution that succeeds brings no error, and nothing is bound after it. -/
theorem Execution.succeeded {x : Execution} {value : Statement × Outcome}
    (hx : x.before.Usable) (h : x.result = .ok value) :
    ∃ encoders params statement d body status t,
      Readied x.call encoders params x.before statement d ∧
        d.session.Exchanged (executeBatch statement params d)
          (.wrote (executeBatch statement params d) ::
            (body ++ [.received (.readyForQuery status)])) t ∧
        Unready body ∧ (∀ m ∈ receivedIn body, m.isError = false) ∧
        Connection.Moves false { d with session := t } x.after := by
  have hperformed := x.performed hx
  generalize hout : (perform x.call x.copy x.before).1 = out at hperformed
  generalize hafter : x.after = c at hperformed
  have hresult : out.1 = .ok value := (congrArg Prod.fst hout).symm.trans h
  cases hperformed with
  | rejected rejected => cases hresult
  | refused readied sent => cases hresult
  | @executed encoders params statement d c₁ c₂ r r₁ r₂ receiver s t readied sent cycled released
      invalidated =>
    obtain ⟨rfl, -, -, -⟩ := inOrder_ok hresult
    have hd := (readied.obtained.moves hx.settled hx.sound).settled hx.settled
    have hexchange : d.session.exchange (executeBatch statement params d)
        (.rows statement.columns {} x.copy) = (.ok (), receiver, t) := by
      rw [Session.exchange, sent]
      exact cycled
    obtain ⟨body, status, -, hexchanged, hunready, haccepted, -⟩ := Session.exchange_ok
      (executeBatch_ne_nil statement params d) (readied.obtained.broken hx.sound) hd.deferred
      hexchange
    have hreleased := release_moves hexchanged.settled released
    refine ⟨encoders, params, statement, d, body, status, t, readied, hexchanged, hunready,
      fun m hm => ?_, hreleased.trans
        (invalidateStale_moves (Connection.Moves.settled hreleased hexchanged.settled) invalidated)⟩
    have hrefuses := haccepted m hm
    cases m <;> first | rfl | cases hrefuses

/-! ## Servers -/

/-- The text of the statement that opens a transaction. -/
def beginText : Bytes := Utf8.encode "BEGIN TRANSACTION"

/-- It is the same in every encoding. -/
theorem encodeText_begin (ctx : CodecContext) :
    ctx.encodeText "BEGIN TRANSACTION" = .ok beginText := by
  rcases ctx with ⟨⟨⟩⟩ <;> rfl

/-- The status that the server reports at the end of the cycle that is under way. -/
def ending (events : List Event) : Option TransactionStatus :=
  (receivedIn events).findSome? Backend.status?

instance (batch : List Frontend) : Decidable (Binding batch) :=
  inferInstanceAs (Decidable (∃ f ∈ batch, f.isBind = true))

/-- What a server may report at the end of the cycle that a batch begins. After a BEGIN that
brought no error its transaction is open. A cycle in which nothing is executed leaves the status
as it was. -/
def Permits (past : List Event) : List Event → Prop
  | .wrote batch :: events =>
    ∀ status ∈ ending events,
      if Binding batch then
        (∃ f ∈ batch, f.isBind = true ∧ f.About beginText (writtenIn past)) →
          (∀ m ∈ cycleMessages events, m.isError = false) → status = .inTransaction
      else .sync ∈ batch → reported (receivedIn past) = some status
  | _ => True

instance (past : List Event) : ∀ events, Decidable (Permits past events)
  | [] | .received _ :: _ => inferInstanceAs (Decidable True)
  | .wrote batch :: events => inferInstanceAs (Decidable (∀ status ∈ ending events,
      if Binding batch then
        (∃ f ∈ batch, f.isBind = true ∧ f.About beginText (writtenIn past)) →
          (∀ m ∈ cycleMessages events, m.isError = false) → status = .inTransaction
      else .sync ∈ batch → reported (receivedIn past) = some status))

/-- A server opens a transaction when a BEGIN succeeds, and changes its status only in cycles in
which something is executed. -/
def Transactional (events : List Event) : Prop :=
  ∀ i < events.length, Permits (events.take i) (events.drop i)

instance (events : List Event) : Decidable (Transactional events) :=
  inferInstanceAs (Decidable (∀ i < events.length, _))

theorem ending_append {body : List Event} (h : Unready body) (status : TransactionStatus)
    (rest : List Event) :
    ending (body ++ .received (.readyForQuery status) :: rest) = some status := by
  have hnone : (receivedIn body).findSome? Backend.status? = none := by
    refine List.findSome?_eq_none_iff.2 fun m hm => ?_
    have hready := h m hm
    cases m <;> first | rfl | cases hready
  rw [ending, receivedIn_append, List.findSome?_append, hnone]
  rfl

namespace Transactional

variable {all before : List Event} {batch : List Frontend} {body : List Event}
  {status : TransactionStatus}

theorem permits {rest : List Event} (h : Transactional (before ++ rest)) : Permits before rest := by
  cases rest with
  | nil => trivial
  | cons e rest =>
    have hindex : before.length < (before ++ e :: rest).length := by
      rw [List.length_append, List.length_cons]
      omega
    have hpermits := h before.length hindex
    rw [List.take_left, List.drop_left] at hpermits
    exact hpermits

/-- A cycle in which nothing is executed leaves the status as it was. -/
theorem kept (h : Transactional all)
    (hall : before ++ .wrote batch :: (body ++ [.received (.readyForQuery status)]) <+: all)
    (hbody : Unready body) (hsync : .sync ∈ batch) (hbatch : ¬ Binding batch) :
    reported (receivedIn before) = some status := by
  obtain ⟨rest, rfl⟩ := hall
  rw [List.append_assoc] at h
  have hpermits := h.permits
  rw [List.cons_append, List.append_assoc, List.singleton_append, Permits] at hpermits
  have hstatus := hpermits status (ending_append hbody status rest)
  rw [if_neg hbatch] at hstatus
  exact hstatus hsync

/-- A BEGIN that brings no error opens its transaction. -/
theorem opened (h : Transactional all)
    (hall : before ++ .wrote batch :: (body ++ [.received (.readyForQuery status)]) <+: all)
    (hbody : Unready body) {f : Frontend} (hf : f ∈ batch) (hbind : f.isBind = true)
    (habout : f.About beginText (writtenIn before))
    (hsound : ∀ m ∈ receivedIn body, m.isError = false) : status = .inTransaction := by
  obtain ⟨rest, rfl⟩ := hall
  rw [List.append_assoc] at h
  have hpermits := h.permits
  rw [List.cons_append, List.append_assoc, List.singleton_append, Permits] at hpermits
  have hstatus := hpermits status (ending_append hbody status rest)
  rw [if_pos ⟨f, hf, hbind⟩, cycleMessages_of_unready hbody] at hstatus
  exact hstatus ⟨f, hf, hbind, habout⟩ hsound

end Transactional

namespace Connection

variable {c d : Connection} {all : List Event}

/-- While nothing is executed the server reports what it has reported before. -/
theorem Moves.reported (h : Moves false c d) (htransactional : Transactional all)
    (hall : d.session.events <+: all) :
    PgClient.reported d.session.received = PgClient.reported c.session.received := by
  induction h with
  | refl => rfl
  | @tail b d _ last ih =>
    have hevents := Moves.events (.single last)
    have hold := ih (List.IsPrefix.trans ⟨_, hevents.choose_spec.symm⟩ hall)
    cases last with
    | beside cache capacity sequence stale => exact hold
    | @exchange batch events s sound syncs binds exchanged =>
      have hreceived : PgClient.reported s.received =
          (PgClient.reported (receivedIn events)).or (PgClient.reported b.session.received) := by
        rw [Session.received_eq, exchanged.events_eq, receivedIn_append, reported_append,
          ← Session.received_eq]
      refine Eq.trans ?_ hold
      show PgClient.reported s.received = _
      cases exchanged.ended with
      | refused broken => exact hreceived
      | aborted answering unready broken =>
        rw [hreceived, receivedIn_wrote, unready.reported]
        rfl
      | @ready body status answering unready broken framed =>
        -- The one Sync of the batch asked for this status, and nothing was bound for it.
        have hsync : .sync ∈ batch := List.count_pos_iff.1 (by omega)
        have hbatch : ¬ Binding batch := by
          rintro ⟨f, hf, hbind⟩
          rw [binds rfl f hf] at hbind
          cases hbind
        have hkept := htransactional.kept (exchanged.events_eq ▸ hall) unready hsync hbatch
        rw [hreceived, receivedIn_wrote, receivedIn_append, receivedIn_received, receivedIn_nil,
          reported_ready, Session.received_eq, hkept]
        rfl

end Connection

/-! ## The status when something is bound -/

namespace Execution

variable {x : Execution} {all : List Event}

/-- When an execution binds its statement the server has reported nothing new since it began. -/
theorem bound (hx : x.before.Usable) (htransactional : Transactional all)
    (hall : x.after.session.events <+: all) {before rest : List Event} {batch : List Frontend}
    (hevents : x.after.session.events = before ++ .wrote batch :: rest)
    (hbefore : x.before.session.events <+: before) (hbatch : Binding batch) :
    reported (receivedIn before) = reported x.before.session.received := by
  obtain ⟨since, rfl⟩ := hbefore
  obtain ⟨encoders, params, statement, d, hsends, hd, -⟩ :=
    x.sends_of_binding hx (hevents.trans (List.append_assoc _ _ _)) rfl hbatch
  rw [← hd]
  refine (hsends.readied.obtained.moves hx.settled hx.sound).reported htransactional ?_
  exact List.IsPrefix.trans ⟨_, hsends.sent.symm⟩ hall

/-- After a BEGIN that succeeds the server reports that its transaction is open. -/
theorem begun {value : Statement × Outcome} (hx : x.before.Usable)
    (hledger : 0 < x.before.cache.capacity → x.before.Ledger)
    (hsql : x.call.sql = "BEGIN TRANSACTION") (h : x.result = .ok value)
    (htransactional : Transactional all) (hall : x.after.session.events <+: all) :
    reported x.after.session.received = some .inTransaction := by
  obtain ⟨encoders, params, statement, d, body, status, t, hreadied, hexchanged, hunready, hsound,
    hmoves⟩ := x.succeeded hx h
  obtain ⟨ctx, text, htext, hknown⟩ := hreadied.text hx.settled hledger
  rw [hsql, encodeText_begin] at htext
  cases htext
  obtain ⟨rest, hrest⟩ := hmoves.events
  -- The server opens the transaction in the cycle of the BEGIN, and keeps it open after that.
  have hprefix : d.session.events ++ .wrote (executeBatch statement params d) ::
      (body ++ [.received (.readyForQuery status)]) <+: all := by
    rw [← hexchanged.events_eq]
    exact List.IsPrefix.trans ⟨rest, hrest.symm⟩ hall
  have hbind : .bind "" statement.name (statement.encoders.map (·.format)) params
      statement.resultFormats ∈ executeBatch statement params d :=
    List.mem_append_right _ List.mem_cons_self
  obtain rfl := htransactional.opened hprefix hunready hbind rfl hknown hsound
  rw [hmoves.reported htransactional hall]
  show reported t.received = _
  rw [Session.received_eq, hexchanged.events_eq, receivedIn_append, receivedIn_wrote,
    receivedIn_append, ← List.append_assoc]
  exact reported_ready _ _

end Execution

/-! ## Implicit transactions -/

/-- How a request is served. `history` is all that happens to its connection. -/
structure Request.Served (r : Request) (history : List Event) : Prop where
  /-- A request that does not pass leaves the connection as it was. -/
  refused (fails : ∀ k, ¬ r.Passes k) : ∃ e, r.outcome = ((.error e, r.copy), r.before)
  /-- Where no transaction is due, its statement is executed and nothing else. -/
  direct {k : Call} (passes : r.Passes k) (undue : ¬ r.Due) :
    r.outcome = perform k r.copy r.before
  /-- Where one is due, it is opened before the statement is executed. -/
  opened {k : Call} {value : Statement × Outcome} (passes : r.Passes k) (due : r.Due)
    (opens : r.opening.result = .ok value) : r.outcome = perform k r.copy r.opening.after
  /-- If that fails, nothing is parsed or bound but the BEGIN. -/
  failed {k : Call} {e : Error} (passes : r.Passes k) (due : r.Due)
    (fails : r.opening.result = .error e) :
    r.outcome = ((.error e, r.copy), r.opening.after) ∧
      ∀ past f future, r.after.session.written = past ++ f :: future →
        r.before.session.written <+: past → f.About beginText past
  /-- Without autocommit no statement of the user is bound while the server is idle. -/
  inside {k : Call} {before rest : List Event} {batch : List Frontend} (passes : r.Passes k)
    (transactional : Transactional history) (executes : r.executes = true)
    (manual : r.before.config.autocommit = false)
    (sent : r.after.session.events = before ++ .wrote batch :: rest)
    (begun : r.start.session.events <+: before) (binding : Binding batch) :
    reported (receivedIn before) ≠ some .idle

namespace Request

variable {r : Request} {k : Call} {all : List Event}

/-- What an opening execution parses and binds is a BEGIN. -/
theorem opening_about (hr : r.before.Usable)
    (hledger : 0 < r.before.cache.capacity → r.before.Ledger) {past future : List Frontend}
    {f : Frontend} (hwritten : r.opening.after.session.written = past ++ f :: future)
    (hpast : r.before.session.written <+: past) : f.About beginText past := by
  refine Execution.about (x := r.opening) hr hledger ?_ hwritten hpast
  intro ctx query hquery
  cases (encodeText_begin ctx).symm.trans hquery
  rfl

/-- The statement of a request is executed from its start on, unless the BEGIN has failed. -/
theorem executed (hr : r.before.Usable) (hrested : Connection.Rested r.before)
    (hk : r.Passes k) {before rest : List Event} {batch : List Frontend}
    (hevents : r.after.session.events = before ++ .wrote batch :: rest)
    (hbefore : r.start.session.events <+: before) :
    ∃ x : Execution, x.before = r.start ∧ x.before.Usable ∧ x.after = r.after ∧
      (r.Due → ∃ value, r.opening.result = .ok value) := by
  have houtcome := outcome_eq hr hrested hk
  unfold start at hbefore ⊢
  by_cases due : r.Due
  · rw [if_pos due] at houtcome hbefore ⊢
    cases hresult : r.opening.result with
    | error e =>
      -- Nothing is written after a BEGIN that fails.
      have hafter : r.after = r.opening.after := by rw [after, houtcome, hresult]
      have hlength := hbefore.length_le
      rw [← hafter, hevents, List.length_append, List.length_cons] at hlength
      omega
    | ok value =>
      rw [hresult] at houtcome
      exact ⟨⟨r.opening.after, k, r.copy⟩, rfl, r.opening.usable_after hr hresult,
        (congrArg Prod.snd houtcome).symm, fun _ => ⟨value, rfl⟩⟩
  · rw [if_neg due] at houtcome ⊢
    exact ⟨⟨r.before, k, r.copy⟩, rfl, hr, (congrArg Prod.snd houtcome).symm,
      fun hdue => absurd hdue due⟩

/-- The status that the server has reported when the statement of a request is executed. -/
theorem start_busy (hr : r.before.Usable)
    (hledger : 0 < r.before.cache.capacity → r.before.Ledger)
    (htransactional : Transactional all) (hall : r.start.session.events <+: all)
    (hexecutes : r.executes = true) (hmanual : r.before.config.autocommit = false)
    (hopens : r.Due → ∃ value, r.opening.result = .ok value) :
    reported r.start.session.received ≠ some .idle := by
  unfold start at hall ⊢
  by_cases due : r.Due
  · rw [if_pos due] at hall ⊢
    obtain ⟨value, hresult⟩ := hopens due
    rw [Execution.begun (x := r.opening) hr hledger rfl hresult htransactional hall]
    nofun
  · rw [if_neg due]
    exact fun hidle => due ⟨hexecutes, hmanual, hidle⟩

theorem served (hr : r.before.Usable) (hrested : Connection.Rested r.before)
    (hledger : 0 < r.before.cache.capacity → r.before.Ledger)
    (hall : r.after.session.events <+: all) : r.Served all where
  refused := refused hr
  direct passes undue := by
    rw [outcome_eq hr hrested passes, if_neg undue]
  opened passes due opens := by
    rw [outcome_eq hr hrested passes, if_pos due, opens]
  failed {k e} passes due fails := by
    have houtcome : r.outcome = ((.error e, r.copy), r.opening.after) := by
      rw [outcome_eq hr hrested passes, if_pos due, fails]
    refine ⟨houtcome, fun past f future hwritten hpast => ?_⟩
    rw [after, houtcome] at hwritten
    exact opening_about hr hledger hwritten hpast
  inside {k before rest batch} passes transactional executes manual sent begun binding := by
    obtain ⟨x, hbefore, hx, hafter, hopens⟩ := executed hr hrested passes sent begun
    rw [← hafter] at sent hall
    have hstart : r.start.session.events <+: all := begun.trans (.trans ⟨_, sent.symm⟩ hall)
    rw [x.bound hx transactional hall sent (hbefore ▸ begun) binding, hbefore]
    exact start_busy hr hledger transactional hstart executes manual hopens

end Request

namespace Connection

variable {c d : Connection}

/-- Executions do not close a connection. -/
theorem Performs.terminated {xs : List Execution} (h : Performs c xs d)
    (hc : c.terminated = false) : d.terminated = false := by
  refine h.invariant (I := fun d => d.terminated = false) ?_ ?_ hc
  · exact fun hsettings hd => hsettings.terminated.trans hd
  · intro x husable hx
    rw [(x.moves husable).kept.rest]
    exact hx

/-- A connection that may keep statements keeps its ledger. -/
theorem Performs.ledger {stream : Stream} {config : Config} {options : ConnectOptions}
    {xs : List Execution} (h : connect stream config options = (.ok (), c))
    (hd : Performs c xs d) (henabled : 0 < d.cache.capacity) : Ledger d := by
  rw [hd.renewed.capacity, cache_of_connect h] at henabled
  exact (Ledger.of_connect henabled h).performs hd

/-- Whatever a server sends and however autocommit is switched: what a user asks for on a sound
connection is served as one statement, after a BEGIN just where a transaction is due. -/
theorem requests_served {stream : Stream} {config : Config} {options : ConnectOptions}
    (h : connect stream config options = (.ok (), c)) (ops : List Operation) :
    Serves c (c.requests ops) (c.runs ops) ∧
      ∀ r ∈ c.requests ops, r.before.session.broken = false →
        r.Served (c.runs ops).session.events := by
  have hserves := runs_serves ops c
  have hsettled := settled_of_connect h
  refine ⟨hserves, fun r hr hsound => ?_⟩
  obtain ⟨⟨xs, hbefore⟩, ys, hafter⟩ := hserves.split hsettled hr
  have hopened := hbefore.terminated (usable_of_connect h).opened
  exact Request.served ⟨hbefore.settled hsettled, hsound, hopened⟩
    ((Rested.of_connect h).performs hbefore) (hbefore.ledger h) hafter.events

/-- What a server sends that executes two statements without rows: the first opens a transaction,
and the second is executed in it. -/
def opened : Bytes :=
  [0x6E, 0, 0, 0, 4, 0x5A, 0, 0, 0, 5, 0x49, 0x5A, 0, 0, 0, 5, 0x54,
    0x6E, 0, 0, 0, 4, 0x5A, 0, 0, 0, 5, 0x54, 0x5A, 0, 0, 0, 5, 0x54]

/-- The case of a query to such a server, for which a transaction is due and is opened. -/
theorem requests_served_opened :
    (greeted opened).1 = .ok () ∧
      Transactional ((greeted opened).2.runs [.query "SELECT 1" .none]).session.events ∧
      (∃ r ∈ (greeted opened).2.requests [.query "SELECT 1" .none],
        r.before.session.broken = false ∧ r.Passes ⟨"SELECT 1", []⟩ ∧ r.Due ∧
          r.opening.result.isOk = true ∧
          r.after.session.written.map Frontend.tag? = r.start.session.written.map Frontend.tag? ++
            [some 'P', some 'D', some 'S', some 'B', some 'E', some 'S']) ∧
      Serves (greeted opened).2 ((greeted opened).2.requests [.query "SELECT 1" .none])
          ((greeted opened).2.runs [.query "SELECT 1" .none]) ∧
        ∀ r ∈ (greeted opened).2.requests [.query "SELECT 1" .none],
          r.before.session.broken = false →
            r.Served ((greeted opened).2.runs [.query "SELECT 1" .none]).session.events := by
  have hgreeted : (greeted opened).1 = .ok () := by decide +kernel
  have hserved := requests_served (Prod.ext hgreeted rfl) [.query "SELECT 1" .none]
  refine ⟨hgreeted, by decide +kernel, ⟨_, List.mem_cons_self, ?_, ?_, ?_⟩, hserved⟩
  · decide +kernel
  · exact ⟨.positional, by decide +kernel, rfl, by decide⟩
  · decide +kernel

end Connection

end PgClient
