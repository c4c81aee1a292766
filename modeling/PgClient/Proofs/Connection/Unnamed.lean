/-
  PgClient.Proofs.Connection.Unnamed

  A connection that keeps no statements. All of its statements share the one
  without a name, so each call parses its own right before it binds it, and
  closes it right after the cycle of the Bind, whatever came of that.
-/
import PgClient.Proofs.Connection.Packets
import PgClient.Proofs.Connection.Preparing
import PgClient.Proofs.Connection.Status

namespace PgClient

open ConnectionM Steps

/-! ## What follows -/

/-- The first message that some events wrote, answers apart, is a Parse. -/
def Opens (events : List Event) : Prop :=
  ∀ f, (writtenIn events).find? (fun f => !f.isAnswer) = some f →
    ∃ name query types, f = .parse name query types

namespace Opens

variable {events events' : List Event}

theorem nil : Opens [] := fun _ => nofun

theorem append (h : Opens events) (h' : Opens events') : Opens (events ++ events') := by
  intro f hf
  rw [writtenIn_append, List.find?_append] at hf
  cases hfirst : (writtenIn events).find? (fun f => !f.isAnswer) with
  | some g =>
    rw [hfirst] at hf
    cases hf
    exact h _ hfirst
  | none =>
    rw [hfirst] at hf
    exact h' _ hf

theorem of_answering (h : Answering events) : Opens events := by
  intro f hf
  have hanswer := List.find?_some hf
  rw [h f (List.mem_of_find?_eq_some hf)] at hanswer
  cases hanswer

theorem prepare (name : String) (query : Bytes) (encoders : List ParamEncoder) :
    Opens (.wrote (prepareBatch name query encoders) :: events) := by
  intro f hf
  cases hf
  exact ⟨_, _, _, rfl⟩

end Opens

/-! ## One execution -/

namespace ConnectionM

open Connection

variable {call : Call} {copy : CopyStreams} {c d : Connection} {statement : Statement}
  {key : StatementKey} {encoders : List ParamEncoder}

/-- Preparing writes a Parse first, if it writes at all. -/
theorem Unprepared.opens {named : Bool} {sql : String} (h : Unprepared named sql encoders c d) :
    ∃ added, d.session.events = c.session.events ++ added ∧ Opens added := by
  cases h with
  | unencoded => exact ⟨[], (List.append_nil _).symm, .nil⟩
  | @failed query events s encoded exchanged =>
    refine ⟨events, exchanged.events_eq, ?_⟩
    cases exchanged.ended with
    | refused broken => exact .nil
    | aborted answering unready broken => exact .prepare _ _ _
    | ready answering unready broken framed => exact .prepare _ _ _

/-- Where nothing is kept, the statement of a call is parsed without a name. -/
theorem Obtained.reparsed (h : Obtained key encoders c statement d)
    (hcapacity : c.cache.capacity = 0) :
    statement.name = "" ∧ d.cache = c.cache ∧ d.session.staged = [] ∧
      ∃ query messages status, c.session.context.encodeText key.sql = .ok query ∧
        d.session.events =
          c.session.events ++ preparingEvents "" query encoders messages status := by
  cases h with
  | hit enabled found => exact absurd hcapacity enabled
  | miss enabled missing prepared => exact absurd hcapacity enabled
  | unkept disabled prepared =>
    obtain ⟨hcache, -, -, -, hname⟩ := prepared.renewed
    obtain ⟨query, messages, status, -, hencoded, -, hevents⟩ := prepared.events
    have hunnamed : statement.name = "" := hname
    rw [hunnamed] at hevents
    exact ⟨hunnamed, hcache, prepared.settled.staged, query, messages, status, hencoded, hevents⟩

/-- The unnamed statement is closed in an exchange of its own. -/
theorem release_unnamed {r : Except Error Unit} (hs : c.session.Settled)
    (hb : c.session.broken = false) (hname : statement.name = "")
    (h : (release statement).run c = (r, d)) :
    d.cache = c.cache ∧ ∃ events, c.session.Exchanged (closeBatch [""]) events d.session := by
  have hunnamed : statement.isUnnamed = true := by
    rw [Statement.isUnnamed, hname]
    rfl
  rw [release, if_pos hunnamed, releaseUnnamed_run hs.staged, if_neg (Bool.eq_false_iff.1 hb)] at h
  obtain ⟨-, rfl⟩ := Prod.mk.inj h
  exact ⟨rfl, Session.exchange_exchanged .discard (closeBatch_ne_nil [""]) hb hs.deferred⟩

/-- What an empty cache leaves to an invalidation. -/
theorem invalidateStale_empty {r : Except Error Unit} (hs : c.session.staged = [])
    (hempty : c.cache.entries = []) (h : invalidateStale.run c = (r, d)) :
    d.session.events = c.session.events ∧ d.session.broken = c.session.broken := by
  have hnames : cachedNames c.cache = [] := by
    rw [cachedNames, Cache.drained, hempty]
    rfl
  rw [invalidateStale_run] at h
  cases hstale : c.session.stale with
  | true =>
    rw [if_pos hstale, invalidate_run (by exact hs), if_pos (.inl hnames)] at h
    obtain ⟨-, rfl⟩ := Prod.mk.inj h
    exact ⟨rfl, rfl⟩
  | false =>
    rw [if_neg (Bool.eq_false_iff.1 hstale)] at h
    obtain ⟨-, rfl⟩ := Prod.mk.inj h
    exact ⟨rfl, rfl⟩

end ConnectionM

/-- After the cycle of a Bind the unnamed statement is closed at once, unless the write fails. -/
def Released (broken : Bool) (rest : List Event) : Prop :=
  rest = [] ∧ broken = true ∨
    ∃ later, rest = .wrote [.close .statement "", .sync] :: later ∧ Opens later

namespace Execution

open Connection

variable {x : Execution} {encoders : List ParamEncoder} {params : List (Option Bytes)}
  {statement : Statement} {d : Connection} {after : List Event}

/-- What follows the cycle of the Bind that an execution sends. -/
theorem Sends.released (h : x.Sends encoders params statement d after) (hx : x.before.Usable)
    (hcapacity : x.before.cache.capacity = 0) (hempty : x.before.cache.entries = [])
    {body rest : List Event} {status : TransactionStatus}
    (hafter : after = body ++ .received (.readyForQuery status) :: rest) (hbody : Unready body) :
    Released x.after.session.broken rest := by
  obtain ⟨hname, hcache, -⟩ := h.readied.obtained.reparsed hcapacity
  obtain ⟨_, t, c₁, _, _, _, r₁, r₂, -, ht, hcompleted, released, invalidated, hevents⟩ :=
    h.completed hx hafter hbody
  obtain ⟨hkept, events, hexchanged⟩ :=
    release_unnamed (c := { d with session := t }) ht hcompleted.broken hname released
  -- Nothing is cached, so the exchange of the Close is the last.
  have hentries : c₁.cache.entries = [] := by
    rw [hkept]
    show d.cache.entries = []
    rw [hcache, hempty]
  obtain ⟨hsame, hbroken⟩ := invalidateStale_empty hexchanged.staged hentries invalidated
  obtain rfl := List.append_cancel_left (hevents.symm.trans (hsame.trans hexchanged.events_eq))
  rw [hbroken]
  cases hexchanged.ended with
  | refused broken => exact .inl ⟨rfl, broken⟩
  | aborted answering unready broken => exact .inr ⟨_, rfl, .of_answering answering⟩
  | ready answering unready broken framed =>
    refine .inr ⟨_, rfl, .of_answering (answering.append ?_)⟩
    exact fun _ => nofun

/-- Where nothing is kept, an execution that writes something writes a Parse first. -/
theorem opens (hx : x.before.Usable) (hcapacity : x.before.cache.capacity = 0) :
    ∃ added, x.after.session.events = x.before.session.events ++ added ∧ Opens added := by
  have hperformed := x.performed hx
  generalize (perform x.call x.copy x.before).1 = out at hperformed
  generalize x.after = c at hperformed
  cases hperformed with
  | rejected rejected =>
    cases rejected with
    | unchanged => exact ⟨[], (List.append_nil _).symm, .nil⟩
    | unprepared inspected failed => exact failed.opens
  | @refused encoders params statement d e s readied sent =>
    obtain ⟨-, -, -, query, messages, status, -, hevents⟩ := readied.obtained.reparsed hcapacity
    have hopens : Opens (preparingEvents "" query encoders messages status) := .prepare _ _ _
    refine ⟨_, ?_, hopens⟩
    rw [← hevents]
    exact Session.send_error (executeBatch_ne_nil statement params d) sent
  | @executed encoders params statement d c₁ c₂ r r₁ r₂ receiver s t readied sent cycled released
      invalidated =>
    obtain ⟨-, -, -, query, messages, status, -, hevents⟩ := readied.obtained.reparsed hcapacity
    obtain ⟨hsent, -, -, ht, body, -, hbody⟩ := readied.obtained.cycled hx.sound sent cycled
    obtain ⟨rest, -, hrest⟩ := bindless_after ht released invalidated
    have hopens : Opens (preparingEvents "" query encoders messages status ++
        ([.wrote (executeBatch statement params d)] ++ (body ++ rest))) := .prepare _ _ _
    refine ⟨_, ?_, hopens⟩
    rw [hrest, hbody, hsent, hevents]
    simp only [List.append_assoc]

end Execution

/-! ## Runs -/

/-- Whether a batch binds a statement. -/
def Binding (batch : List Frontend) : Prop := ∃ f ∈ batch, f.isBind = true

/-- A batch that binds is not among events that bind nothing. -/
theorem Bindless.notMem {events : List Event} {batch : List Frontend} (h : Bindless events)
    (hbatch : Binding batch) : .wrote batch ∉ events := by
  intro hmem
  obtain ⟨f, hf, hbind⟩ := hbatch
  have hwritten : f ∈ writtenIn events := List.mem_flatMap.2 ⟨_, hmem, hf⟩
  rw [h f hwritten] at hbind
  cases hbind

/-- The only batch that binds in some events. -/
theorem binding_of_append_eq {first last before tail : List Event} {sent batch : List Frontend}
    (h : first ++ .wrote sent :: last = before ++ .wrote batch :: tail) (hbatch : Binding batch)
    (hfirst : Bindless first) (hlast : Bindless last) :
    first = before ∧ sent = batch ∧ last = tail := by
  obtain ⟨rest, hmem⟩ | ⟨between, hbefore, hparts⟩ := split_of_append_eq h
  · exact absurd (hmem ▸ List.mem_append_right _ List.mem_cons_self) (hfirst.notMem hbatch)
  · cases between with
    | nil =>
      obtain ⟨hsent, htail⟩ := List.cons.inj hparts
      rw [List.append_nil] at hbefore
      exact ⟨hbefore.symm, Event.wrote.inj hsent, htail⟩
    | cons e between =>
      obtain ⟨-, hlater⟩ := List.cons.inj hparts
      exact absurd (hlater ▸ List.mem_append_right _ List.mem_cons_self) (hlast.notMem hbatch)

/-- A batch that binds, among what an execution has written, is the one that it sends. -/
theorem Execution.sends_of_binding {x : Execution} (hx : x.before.Usable)
    {added before tail : List Event} {batch : List Frontend}
    (hevents : x.after.session.events = x.before.session.events ++ added)
    (hadded : added = before ++ .wrote batch :: tail) (hbatch : Binding batch) :
    ∃ encoders params statement d, x.Sends encoders params statement d tail ∧
      d.session.events = x.before.session.events ++ before ∧
        batch = executeBatch statement params d := by
  obtain ⟨events, hbindless, hsame⟩ | ⟨encoders, params, statement, d, after, hsends⟩ :=
    x.sends_cases hx
  · obtain rfl := List.append_cancel_left (hevents.symm.trans hsame)
    exact absurd (hadded ▸ List.mem_append_right _ List.mem_cons_self) (hbindless.notMem hbatch)
  · obtain ⟨preparing, hpreparing, hd⟩ := hsends.readied.obtained.bindless hx.settled hx.sound
    have hsent := hevents.symm.trans hsends.sent
    rw [hd, List.append_assoc] at hsent
    have hparts := (List.append_cancel_left hsent).symm.trans hadded
    obtain ⟨rfl, rfl, rfl⟩ := binding_of_append_eq hparts hbatch hpreparing hsends.bindless
    exact ⟨encoders, params, statement, d, hsends, hd, rfl⟩

namespace Connection

/-- A connection that keeps no statements, and releases the unnamed one after each cycle with a
Bind. -/
structure Unkept (c : Connection) : Prop where
  capacity : c.cache.capacity = 0
  empty : c.cache.entries = []
  rested : Rested c
  released {before body rest : List Event} {batch : List Frontend} {status : TransactionStatus}
    (cycle : c.session.events =
      before ++ .wrote batch :: (body ++ .received (.readyForQuery status) :: rest))
    (binding : Binding batch) (unready : Unready body) : Released c.session.broken rest

namespace Unkept

variable {c d : Connection}

theorem settings (h : Unkept c) (hd : Settings c d) : Unkept d := by
  cases hd
  exact ⟨h.capacity, h.empty, h.rested.settings (.intro _ _), h.released⟩

/-- The cycle of a Bind from before an execution was released before it. -/
theorem released_append {added before body rest : List Event} {batch : List Frontend}
    {status : TransactionStatus} (h : Unkept c) (hsound : c.session.broken = false)
    {tail : List Event} (hevents : c.session.events = before ++ .wrote batch :: tail)
    (htail : tail ++ added = body ++ .received (.readyForQuery status) :: rest)
    (hadded : Opens added) (hbatch : Binding batch) (hbody : Unready body) (broken : Bool) :
    Released broken rest := by
  obtain ⟨rest', rfl⟩ | ⟨between, rfl, -⟩ := split_of_append_eq htail
  · obtain rfl : rest' ++ added = rest := by
      rw [List.append_assoc, List.cons_append] at htail
      exact (List.cons.inj (List.append_cancel_left htail)).2
    obtain ⟨-, hbroken⟩ | ⟨later, rfl, hlater⟩ := h.released hevents hbatch hbody
    · rw [hsound] at hbroken
      cases hbroken
    · exact .inr ⟨later ++ added, rfl, hlater.append hadded⟩
  -- Its cycle had come to its end before the execution began.
  · exact absurd hbody.left (h.rested.notUnready hsound hevents)

theorem performed {x : Execution} (h : Unkept x.before) (hx : x.before.Usable) :
    Unkept x.after := by
  have hrenewed := (x.performed hx).renewed hx.sound
  refine ⟨hrenewed.capacity.trans h.capacity, ?_, h.rested.moves (x.moves hx), ?_⟩
  · refine List.eq_nil_iff_forall_not_mem.2 fun e he => ?_
    obtain hold | ⟨henabled, -⟩ := hrenewed.entries e he
    · rw [h.empty] at hold
      cases hold
    · rw [h.capacity] at henabled
      cases henabled
  intro before body rest batch status hcycle hbatch hbody
  obtain ⟨added, hadded, hopens⟩ := x.opens hx h.capacity
  rw [hadded] at hcycle
  obtain ⟨tail, hold⟩ | ⟨between, hbefore, hnew⟩ := split_of_append_eq hcycle
  -- The batch was written before the execution.
  · rw [hold, List.append_assoc, List.cons_append] at hcycle
    obtain ⟨-, htail⟩ := List.cons.inj (List.append_cancel_left hcycle)
    exact h.released_append hx.sound hold htail hopens hbatch hbody _
  -- The execution has written it.
  · obtain ⟨encoders, params, statement, d, hsends, -, -⟩ :=
      x.sends_of_binding hx hadded hnew hbatch
    exact hsends.released hx h.capacity h.empty rfl hbody

theorem performs {xs : List Execution} (h : Unkept c) (hd : Performs c xs d) : Unkept d :=
  hd.invariant (fun hsettings hc => hc.settings hsettings)
    (fun _ husable hx => hx.performed husable) h

theorem of_connect {stream : Stream} {config : Config} {options : ConnectOptions}
    (hcapacity : config.maxPreparedStatements.toNat = 0)
    (h : connect stream config options = (.ok (), c)) : Unkept c := by
  have hcache := cache_of_connect h
  refine ⟨?_, ?_, .of_connect h, ?_⟩
  · rw [hcache]
    exact hcapacity
  · rw [hcache]
    rfl
  · intro before body rest batch status hcycle hbatch hbody
    exact absurd (hcycle ▸ List.mem_append_right _ List.mem_cons_self)
      ((bindless_of_connect h).notMem hbatch)

end Unkept

end Connection

/-- What makes a Bind one of the statement that its call has parsed right before it. `past` is all
that was written before the Bind. -/
structure Execution.Reparses (x : Execution) (query : Bytes) (encoders : List ParamEncoder)
    (past : List Frontend) (name : String) (params : List (Option Bytes)) : Prop where
  unnamed : name = ""
  inspected : x.call.values.mapM x.before.codec.inspect = .ok encoders
  text : x.before.session.context.encodeText x.call.sql = .ok query
  parsed : past = x.before.session.written ++
    [.parse "" query (encoders.map (·.oid)), .describe .statement "", .sync]
  encoded : (x.call.values.zip encoders).mapM (encodeParam x.before.session.context) = .ok params

namespace Connection

variable {c : Connection}

/-- Whatever a server sends to a connection that keeps no statements: nothing is cached between
calls, every Bind is of the statement that its own call has just parsed, and right after the cycle
of each Bind the statement is closed once, unless the write fails. -/
theorem unnamed_released {stream : Stream} {config : Config} {options : ConnectOptions}
    (h : connect stream config options = (.ok (), c))
    (hcapacity : config.maxPreparedStatements.toNat = 0) (ops : List Operation) :
    (c.runs ops).cache.entries = [] ∧
      (∀ past portal name formats params results future,
        (c.runs ops).session.written = past ++ .bind portal name formats params results :: future →
          ∃ x ∈ c.executions ops,
            Asks c.config.style (fun sql => ∃ op ∈ ops, op.sql? = some sql) x ∧
              ∃ query encoders, x.Reparses query encoders past name params) ∧
        ∀ before batch body status rest,
          (c.runs ops).session.events =
              before ++ .wrote batch :: (body ++ .received (.readyForQuery status) :: rest) →
            Binding batch → Unready body → Released (c.runs ops).session.broken rest := by
  have hsettled := settled_of_connect h
  have hopened := Unkept.of_connect hcapacity h
  have hunkept := hopened.performs (runs_performs ops hsettled)
  refine ⟨hunkept.empty, ?_, fun _ _ _ _ _ => hunkept.released⟩
  intro past portal name formats params results future hwritten
  obtain ⟨earlier, x, later, hxs, hearlier, -, -, encoders, params', statement, d, after, hsends,
    rfl, hbind⟩ := executes_bind h ops hwritten rfl
  have hmem : x ∈ c.executions ops := by
    rw [hxs]
    exact List.mem_append_right _ List.mem_cons_self
  obtain ⟨hname, -, hstaged, query, messages, status, htext, hevents⟩ :=
    hsends.readied.obtained.reparsed (hopened.performs hearlier).capacity
  cases hbind
  refine ⟨x, hmem, asks_of_mem hsettled hmem, query, encoders, hname, hsends.readied.inspected,
    htext, ?_, hsends.readied.encoded⟩
  rw [hstaged, List.append_nil, Session.written_eq, hevents, writtenIn_append,
    writtenIn_preparing]
  rfl

/-- A connection that keeps no statements, to a server that describes two statements without
rows: one opens a transaction, and the other is executed in it. -/
def unkept : Except Error Unit × Connection :=
  connect
    { incoming := ⟨greeting ++
      [0x6E, 0, 0, 0, 4, 0x5A, 0, 0, 0, 5, 0x49, 0x5A, 0, 0, 0, 5, 0x54, 0x5A, 0, 0, 0, 5, 0x54,
        0x6E, 0, 0, 0, 4, 0x5A, 0, 0, 0, 5, 0x54, 0x5A, 0, 0, 0, 5, 0x54, 0x5A, 0, 0, 0, 5, 0x54],
      .closed⟩ }
    { password := some "secret", maxPreparedStatements := 0 } {}

/-- The case of a call that comes after the implicit BEGIN. -/
theorem unnamed_released_twice :
    unkept.1 = .ok () ∧
      (unkept.2.runs [.query "SELECT 1" .none]).session.written.map Frontend.tag? =
        [none, 'P', 'D', 'S', 'B', 'E', 'S', 'C', 'S', 'P', 'D', 'S', 'B', 'E', 'S', 'C', 'S'] ∧
      (unkept.2.runs [.query "SELECT 1" .none]).cache.entries = [] ∧
        (∀ past portal name formats params results future,
          (unkept.2.runs [.query "SELECT 1" .none]).session.written =
              past ++ .bind portal name formats params results :: future →
            ∃ x ∈ unkept.2.executions [.query "SELECT 1" .none],
              Asks unkept.2.config.style
                  (fun sql => ∃ op ∈ [Operation.query "SELECT 1" .none], op.sql? = some sql) x ∧
                ∃ query encoders, x.Reparses query encoders past name params) ∧
          ∀ before batch body status rest,
            (unkept.2.runs [.query "SELECT 1" .none]).session.events =
                before ++ .wrote batch :: (body ++ .received (.readyForQuery status) :: rest) →
              Binding batch → Unready body →
                Released (unkept.2.runs [.query "SELECT 1" .none]).session.broken rest := by
  have hunkept : unkept.1 = .ok () := by decide +kernel
  have hsent : (unkept.2.runs [.query "SELECT 1" .none]).session.written.map Frontend.tag? =
      [none, 'P', 'D', 'S', 'B', 'E', 'S', 'C', 'S', 'P', 'D', 'S', 'B', 'E', 'S', 'C', 'S'] := by
    decide +kernel
  exact ⟨hunkept, hsent, unnamed_released (Prod.ext hunkept rfl) (by decide) _⟩

end Connection

end PgClient
