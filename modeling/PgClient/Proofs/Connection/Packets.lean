/-
  PgClient.Proofs.Connection.Packets

  The texts of a caller in the packets of a connection. Nothing stops a zero or
  an empty key on its way into the startup packet, nor a zero in SQL on its way
  into a Parse; exactly where there is one, or a length is too large for its
  word, the server reads something else than was meant.
-/
import PgClient.Proofs.Config.Texts
import PgClient.Proofs.Connection.Grammar
import PgClient.Proofs.Connection.Mistakes
import PgClient.Proofs.Connection.Results
import PgClient.Proofs.Message.Packets
import PgClient.Proofs.Placeholder.Characters

namespace PgClient

open ConnectionM Steps

theorem Statement.isText_nameOf {process : String} (h : Wire.IsText process) (sequence : Nat) :
    Wire.IsText (nameOf process sequence) := by
  have hnumber : '\x00' ∉ sequence.repr.toList := by
    rw [Nat.repr, String.toList_ofList]
    exact (Integer.Numeral.natural sequence).notMem (by decide)
  rw [Wire.IsText, nameOf, String.toList_append, String.toList_append, String.toList_append]
  simp only [List.mem_append, not_or]
  exact ⟨⟨⟨by decide, h⟩, by decide⟩, hnumber⟩

/-! ## The SQL of an execution -/

/-- The SQL of an operation that has some. -/
def Operation.sql? : Operation → Option String
  | query sql _ | execute _ sql _ | executeMany _ sql _ => some sql
  | commit => some "COMMIT"
  | rollback => some "ROLLBACK"
  | setAutocommit _ | takeNotifications => none

namespace ConnectionM

variable {sql : String} {args : Placeholder.Arguments} {copy : CopyStreams}
  {implicitBegin : Bool} {c d : Connection} {k : Call} {x : Execution}

/-- The text of a call is its SQL converted, and its values can be counted. -/
theorem convert_of_call (h : ((call sql args).run c).1 = .ok k) :
    (∃ order, Placeholder.convert c.config.style sql = .ok (k.sql, order)) ∧
      k.values.length ≤ maxCount := by
  have hopen := call_open (Prod.ext h rfl)
  obtain ⟨order, hconvert, -, hcount⟩ := (call_eq_ok_iff (Bool.or_eq_false_iff.2 hopen)).1 h
  exact ⟨⟨order, hconvert⟩, hcount⟩

/-- The executions of a statement are those of its own call and of the implicit BEGIN. -/
theorem call_of_mem_executions (h : x ∈ executions sql args copy implicitBegin c) :
    ∃ sql' args', (sql' = sql ∨ sql' = "BEGIN TRANSACTION") ∧
      ((call sql' args').run c).1 = .ok x.call := by
  unfold executions at h
  cases hcall : ((call sql args).run c).1 with
  | error e =>
    rw [hcall] at h
    cases h
  | ok k =>
    rw [hcall] at h
    dsimp only at h
    have hown : ∃ sql' args', (sql' = sql ∨ sql' = "BEGIN TRANSACTION") ∧
        ((call sql' args').run c).1 = .ok k := ⟨sql, args, .inl rfl, hcall⟩
    by_cases opens : (implicitBegin && c.session.status = .idle) = true
    · rw [if_pos opens] at h
      cases hbegin : ((call "BEGIN TRANSACTION" .none).run c).1 with
      | error e =>
        rw [hbegin] at h
        cases h
      | ok opening =>
        have hopening : ∃ sql' args', (sql' = sql ∨ sql' = "BEGIN TRANSACTION") ∧
            ((call sql' args').run c).1 = .ok opening :=
          ⟨"BEGIN TRANSACTION", .none, .inr rfl, hbegin⟩
        rw [hbegin] at h
        dsimp only at h
        split at h
        · obtain rfl := List.mem_singleton.1 h
          exact hopening
        · obtain rfl | h := List.mem_cons.1 h
          · exact hopening
          · obtain rfl := List.mem_singleton.1 h
            exact hown
    · rw [if_neg opens] at h
      obtain rfl := List.mem_singleton.1 h
      exact hown

end ConnectionM

namespace Connection

variable {c d : Connection} {xs : List Execution}

/-- Executions change neither the style of placeholders nor the label of the process. -/
theorem Performs.unchanged (h : Performs c xs d) :
    d.config.style = c.config.style ∧ d.process = c.process := by
  refine h.invariant (I := fun d => d.config.style = c.config.style ∧ d.process = c.process)
    ?_ ?_ ⟨rfl, rfl⟩
  · rintro _ _ ⟨autocommit, notifications⟩ hsame
    exact hsame
  · intro x husable hx
    have hkept := (x.moves husable).kept.rest
    rw [hkept]
    exact hx

/-- An execution is asked for by some SQL: its text is that of the SQL converted. -/
def Asks (style : Placeholder.Style) (asked : String → Prop) (x : Execution) : Prop :=
  ∃ sql, (asked sql ∨ sql = "BEGIN TRANSACTION") ∧
    (∃ order, Placeholder.convert style sql = .ok (x.call.sql, order)) ∧
    x.call.values.length ≤ maxCount

variable {style : Placeholder.Style} {asked asked' : String → Prop} {x : Execution}

theorem Asks.mono (h : Asks style asked x) (hle : ∀ sql, asked sql → asked' sql) :
    Asks style asked' x := by
  obtain ⟨sql, hsql, hcall⟩ := h
  exact ⟨sql, hsql.imp_left (hle sql), hcall⟩

theorem asks_of_mem_executions {sql : String} {args : Placeholder.Arguments} {copy : CopyStreams}
    {implicitBegin : Bool} (h : x ∈ ConnectionM.executions sql args copy implicitBegin c) :
    Asks c.config.style (· = sql) x := by
  obtain ⟨sql', args', hsql, hcall⟩ := call_of_mem_executions h
  exact ⟨sql', hsql, convert_of_call hcall⟩

theorem asks_of_mem_executionsEach {sql : String} {sets : List Placeholder.Arguments}
    {copy : CopyStreams} (hs : c.session.Settled)
    (h : x ∈ Cursor.executionsEach sql copy c sets) : Asks c.config.style (· = sql) x := by
  induction sets generalizing c copy with
  | nil => cases h
  | cons args sets ih =>
    rw [Cursor.executionsEach] at h
    have hfirst := execute_performs sql args copy (!c.config.autocommit) hs
    have hrun : Connection.run sql args copy c =
        ConnectionM.execute sql args copy (!c.config.autocommit) c := rfl
    rw [← hrun] at hfirst
    obtain h | h := List.mem_append.1 h
    · exact asks_of_mem_executions h
    · split at h
      · cases h
      · rename_i hout
        rw [hout] at hfirst
        rw [← hfirst.unchanged.1]
        exact ih (hfirst.settled hs) h

/-- Every execution is asked for by the SQL of some operation. -/
theorem asks_of_mem {ops : List Operation} (hs : c.session.Settled) (h : x ∈ c.executions ops) :
    Asks c.config.style (fun sql => ∃ op ∈ ops, op.sql? = some sql) x := by
  induction ops generalizing c with
  | nil => cases h
  | cons op ops ih =>
    have hfirst := op.performs hs
    obtain h | h := List.mem_append.1 h
    · have hown {sql : String} (hsql : op.sql? = some sql) (h : Asks c.config.style (· = sql) x) :
          Asks c.config.style (fun sql => ∃ op' ∈ op :: ops, op'.sql? = some sql) x := by
        refine h.mono fun sql' heq => ⟨op, List.mem_cons_self, ?_⟩
        rw [heq]
        exact hsql
      cases op with
      | query sql args => exact hown rfl (asks_of_mem_executions h)
      | commit => exact hown rfl (asks_of_mem_executions h)
      | rollback => exact hown rfl (asks_of_mem_executions h)
      | execute cursor sql args =>
        rw [Operation.executions] at h
        split at h
        · cases h
        · exact hown rfl (asks_of_mem_executions h)
      | executeMany cursor sql sets =>
        rw [Operation.executions] at h
        split at h
        · cases h
        · exact hown rfl (asks_of_mem_executionsEach hs h)
      | setAutocommit | takeNotifications => cases h
    · rw [← hfirst.unchanged.1]
      refine (ih (hfirst.settled hs) h).mono ?_
      rintro sql ⟨op', hop', hsql⟩
      exact ⟨op', List.mem_cons_of_mem _ hop', hsql⟩

end Connection

/-! ## Where a Parse comes from -/

namespace ConnectionM

variable {call : Call} {copy : CopyStreams} {c d : Connection} {statement : Statement}
  {named : Bool} {sql : String} {key : StatementKey} {encoders : List ParamEncoder}
  {name : String} {query : Bytes} {types : List Oid}

/-- A message prepares a statement: its text in the encoding in force, under the next name. -/
def Prepares (named : Bool) (sql : String) (encoders : List ParamEncoder) (c : Connection)
    (f : Frontend) : Prop :=
  ∃ query, c.session.context.encodeText sql = .ok query ∧
    f = .parse (nextName named c) query (encoders.map (·.oid))

/-- A Parse among the events of an exchange is in its batch. -/
theorem parse_of_exchanged {batch : List Frontend} {events : List Event} {s s' : Session}
    (h : s.Exchanged batch events s') (hf : .parse name query types ∈ writtenIn events) :
    .parse name query types ∈ batch := by
  cases h.ended with
  | refused broken => cases hf
  | aborted answering unready broken =>
    rw [writtenIn_wrote] at hf
    exact (List.mem_append.1 hf).resolve_right fun hf => nomatch answering _ hf
  | @ready body status answering unready broken framed =>
    rw [writtenIn_wrote, writtenIn_append, writtenIn_received, writtenIn_nil, List.append_nil] at hf
    exact (List.mem_append.1 hf).resolve_right fun hf => nomatch answering _ hf

/-- No other statement is parsed in some events. -/
def Parsing (named : Bool) (sql : String) (encoders : List ParamEncoder) (c : Connection)
    (events : List Event) : Prop :=
  ∀ name query types, .parse name query types ∈ writtenIn events →
    Prepares named sql encoders c (.parse name query types)

theorem Parsing.preparing {query' : Bytes} {events : List Event} {s : Session}
    (encoded : c.session.context.encodeText sql = .ok query')
    (exchanged : c.session.Exchanged (prepareBatch (nextName named c) query' encoders) events s) :
    Parsing named sql encoders c events := by
  intro name query types hf
  refine ⟨query', encoded, ?_⟩
  simpa only [prepareBatch, List.mem_cons, List.not_mem_nil, reduceCtorEq, or_false]
    using parse_of_exchanged exchanged hf

theorem Unprepared.parsing (h : Unprepared named sql encoders c d) :
    ∃ added, d.session.events = c.session.events ++ added ∧
      Parsing named sql encoders c added := by
  cases h with
  | unencoded => exact ⟨[], (List.append_nil _).symm, fun _ _ _ => nofun⟩
  | failed encoded exchanged => exact ⟨_, exchanged.events_eq, .preparing encoded exchanged⟩

theorem Prepared.parsing (h : Prepared named sql encoders c statement d) :
    ∃ added, d.session.events = c.session.events ++ added ∧
      Parsing named sql encoders c added := by
  obtain ⟨_, _, encoded, exchanged, _, _⟩ := h
  exact ⟨_, exchanged.events_eq, .preparing encoded exchanged⟩

theorem Obtained.parsing (h : Obtained key encoders c statement d) :
    ∃ added, d.session.events = c.session.events ++ added ∧
      Parsing c.cache.isEnabled key.sql encoders c added := by
  cases h with
  | hit enabled found => exact ⟨[], (List.append_nil _).symm, fun _ _ _ => nofun⟩
  | miss enabled missing prepared =>
    have henabled : c.cache.isEnabled = true := decide_eq_true (Nat.pos_of_ne_zero enabled)
    rw [henabled]
    exact prepared.parsing
  | unkept disabled prepared =>
    rw [Cache.isEnabled, disabled]
    exact prepared.parsing

/-- After its statement is obtained an execution parses nothing. -/
theorem executed_parseless {params : List (Option Bytes)} {s t : Session} {receiver : Receiver}
    {c₁ c₂ : Connection} {r r₁ r₂ : Except Error Unit} (hs : c.session.Settled)
    (hb : c.session.broken = false) (h : Obtained key encoders c statement d)
    (sent : d.session.send (executeBatch statement params d) = (.ok (), s))
    (cycled : s.cycle (.rows statement.columns {} copy) = (r, receiver, t))
    (released : (release statement).run { d with session := t } = (r₁, c₁))
    (invalidated : invalidateStale.run c₁ = (r₂, c₂)) :
    ∃ added, c₂.session.events = d.session.events ++ added ∧
      ∀ name query types, .parse name query types ∉ writtenIn added := by
  have hd : d.session.deferred = none := ((h.moves hs hb).settled hs).deferred
  have htags : ∃ tags, (executeBatch statement params d).map Frontend.tag? = tags ∧
      Signal.frame 'P' ∉ letters (Grammar.executed tags) := by
    obtain ⟨-, hstaged⟩ | ⟨-, name, hstaged⟩ := h.speaks hs
    · exact ⟨['B', 'E', 'S'], by rw [executeBatch, hstaged]; rfl, by decide⟩
    · exact ⟨['C', 'B', 'E', 'S'], by rw [executeBatch, hstaged]; rfl, by decide⟩
  obtain ⟨tags, htags, hletters⟩ := htags
  obtain ⟨added, torn, hsaid⟩ :=
    executed_speaks tags hd (h.broken hb) htags sent cycled released invalidated
  exact ⟨added, hsaid.events_eq, fun _ _ _ hf =>
    hletters (hsaid.letters (List.mem_append_left _ hf))⟩

/-- What an execution parses is its own statement. -/
theorem Performed.parsing {out : Except Error (Statement × Outcome) × CopyStreams}
    (hs : c.session.Settled) (hb : c.session.broken = false) (h : Performed call copy c out d) :
    ∃ added, d.session.events = c.session.events ++ added ∧
      ((∀ name query types, .parse name query types ∉ writtenIn added) ∨
        ∃ encoders, call.values.mapM c.codec.inspect = .ok encoders ∧
          Parsing c.cache.isEnabled call.sql encoders c added) := by
  cases h with
  | rejected rejected =>
    cases rejected with
    | unchanged => exact ⟨[], (List.append_nil _).symm, .inl fun _ _ _ => nofun⟩
    | unprepared inspected failed =>
      obtain ⟨added, hadded, hparsing⟩ := failed.parsing
      exact ⟨added, hadded, .inr ⟨_, inspected, hparsing⟩⟩
  | @refused encoders params statement d e s readied sent =>
    obtain ⟨added, hadded, hparsing⟩ := readied.obtained.parsing
    have hevents := Session.send_error (executeBatch_ne_nil statement params d) sent
    exact ⟨added, hevents.trans hadded, .inr ⟨_, readied.inspected, hparsing⟩⟩
  | executed readied sent cycled released invalidated =>
    obtain ⟨added, hadded, hparsing⟩ := readied.obtained.parsing
    obtain ⟨rest, hrest, hnone⟩ :=
      executed_parseless hs hb readied.obtained sent cycled released invalidated
    refine ⟨added ++ rest, ?_, .inr ⟨_, readied.inspected, fun name query types hf => ?_⟩⟩
    · rw [hrest, hadded, List.append_assoc]
    · rw [writtenIn_append] at hf
      exact hparsing _ _ _ ((List.mem_append.1 hf).resolve_right (hnone _ _ _))

end ConnectionM

/-- A message is the Parse with which an execution prepares its statement. -/
def Execution.Parses (x : Execution) (f : Frontend) : Prop :=
  ∃ encoders, x.call.values.mapM x.before.codec.inspect = .ok encoders ∧
    Prepares x.before.cache.isEnabled x.call.sql encoders x.before f

/-- Every Parse that an execution writes is of its own statement. -/
theorem Execution.parses {x : Execution} (h : x.before.Usable) :
    ∃ added, x.after.session.events = x.before.session.events ++ added ∧
      ∀ name query types, .parse name query types ∈ writtenIn added →
        x.Parses (.parse name query types) := by
  obtain ⟨added, hadded, hnone | ⟨encoders, inspected, hparsing⟩⟩ :=
    (x.performed h).parsing h.settled h.sound
  · exact ⟨added, hadded, fun _ _ _ hf => absurd hf (hnone _ _ _)⟩
  · exact ⟨added, hadded, fun _ _ _ hf => ⟨encoders, inspected, hparsing _ _ _ hf⟩⟩

namespace Execution.Parses

variable {x : Execution} {name : String} {query : Bytes} {types : List Oid}

/-- The name of a statement is a text if the label of the process is one. -/
theorem isText_name (h : x.Parses (.parse name query types))
    (hlabel : Wire.IsText x.before.process) : Wire.IsText name := by
  obtain ⟨encoders, -, query', -, hparse⟩ := h
  obtain ⟨rfl, -, -⟩ := Frontend.parse.inj hparse
  rw [nextName]
  split
  · exact Statement.isText_nameOf hlabel _
  · decide

/-- A Parse is read back if its name and its SQL are texts and its length fits. -/
theorem read_iff (h : x.Parses (.parse name query types))
    (hvalues : x.call.values.length ≤ maxCount) :
    (Body.tagged Body.parse).run (Frontend.parse name query types).encode =
        .ok (('P'.toUInt8, (Utf8.encode name, query, types), []), []) ↔
      Wire.IsText name ∧ Wire.IsText x.call.sql ∧
        (Frontend.parse name query types).FitsLength := by
  obtain ⟨encoders, hencoders, query', hquery, hparse⟩ := h
  obtain ⟨-, rfl, rfl⟩ := Frontend.parse.inj hparse
  -- The guard of the call sees to it that the types can be counted.
  have hcount : (encoders.map (·.oid)).length ≤ maxCount := by
    rw [List.length_map, ← (mapM_eq_ok_iff.1 hencoders).length_eq]
    exact hvalues
  rw [Frontend.parse_iff, CodecContext.zero_notMem_iff hquery, and_iff_right hcount]

end Execution.Parses

namespace Connection

variable {c d : Connection} {xs : List Execution} {name : String} {query : Bytes}
  {types : List Oid}

/-- A message that some executions add to what was written is added by one of them. -/
theorem Performs.writes {f : Frontend} (h : Performs c xs d) (hnew : f ∉ c.session.written)
    (hf : f ∈ d.session.written) :
    ∃ earlier x later, xs = earlier ++ x :: later ∧ Performs c earlier x.before ∧
      x.before.Usable ∧ f ∉ x.before.session.written ∧ f ∈ x.after.session.written := by
  have hsettings {c d : Connection} (h : Settings c d) (hd : f ∈ d.session.written) :
      f ∈ c.session.written := by
    rw [Session.written, ← h.history]
    exact hd
  obtain ⟨earlier, x, later, rfl, hbefore, hafter⟩ := h.crossing hsettings hnew hf
  obtain ⟨hearlier, hx, -⟩ := h.split
  exact ⟨earlier, x, later, rfl, hearlier, hx, hbefore, hafter⟩

/-- A Parse that some executions add prepares the statement of one of them. -/
theorem Performs.parse (h : Performs c xs d) (hnew : .parse name query types ∉ c.session.written)
    (hf : .parse name query types ∈ d.session.written) :
    ∃ x ∈ xs, x.Parses (.parse name query types) ∧ x.before.process = c.process := by
  obtain ⟨earlier, x, later, rfl, hearlier, hx, hbefore, hafter⟩ := h.writes hnew hf
  obtain ⟨added, hadded, hparses⟩ := x.parses hx
  rw [Session.written_eq, hadded, writtenIn_append] at hafter
  have hnew := (List.mem_append.1 hafter).resolve_left hbefore
  exact ⟨x, List.mem_append_right _ List.mem_cons_self, hparses _ _ _ hnew,
    hearlier.unchanged.2⟩

/-! ## The packets -/

/-- Closing adds no more than a Terminate. -/
theorem mem_written_close (hs : c.session.staged = []) (hopen : c.terminated = false)
    {f : Frontend} (hf : f ∈ c.close.2.session.written) :
    f ∈ c.session.written ∨ f = .terminate := by
  cases hb : c.session.broken with
  | true =>
    rw [close_broken hb] at hf
    exact .inl hf
  | false =>
    rw [Session.written_eq] at hf
    obtain ⟨-, -, hsaid⟩ | ⟨-, -, -, hsaid⟩ := close_sound hs hopen hb
    · rw [hsaid.events_eq, writtenIn_append] at hf
      exact (List.mem_append.1 hf).imp_right List.mem_singleton.1
    · rw [hsaid.events_eq, List.append_nil] at hf
      exact .inl hf

theorem close_unchanged (hs : c.session.staged = []) :
    c.close.2.config = c.config ∧ c.close.2.process = c.process := by
  rw [close_run hs]
  split
  · exact ⟨rfl, rfl⟩
  · split <;> exact ⟨rfl, rfl⟩

/-- What is true of a connection when it was opened, or closed because that failed. -/
structure Begun (config : Config) (options : ConnectOptions) (c : Connection) : Prop where
  settled : c.session.Settled
  configured : c.config = config
  labelled : c.process = options.process
  written : ∀ f ∈ c.session.written,
    f = .startup Wire.protocolVersion config.startupParams ∨ f.isAnswer = true ∨ f = .terminate

theorem Begun.close {config : Config} {options : ConnectOptions} (h : Begun config options c)
    (hopen : c.terminated = false) : Begun config options c.close.2 := by
  obtain ⟨hconfig, hprocess⟩ := close_unchanged h.settled.staged
  refine ⟨settled_close h.settled, hconfig.trans h.configured, hprocess.trans h.labelled,
    fun f hf => ?_⟩
  obtain hf | rfl := mem_written_close h.settled.staged hopen hf
  · exact h.written f hf
  · exact .inr (.inr rfl)

theorem begun_of_connect (stream : Stream) (config : Config) (options : ConnectOptions) :
    Begun config options (connect stream config options).2 := by
  cases hsource : options.credentials.resolve config.credentialProvider config with
  | error e =>
    rw [connect, hsource]
    exact ⟨⟨rfl, rfl⟩, rfl, rfl, fun f hf => absurd hf List.not_mem_nil⟩
  | ok source =>
    rw [connect_run stream hsource]
    rcases hout : (fresh stream config options).session.exchange (startupBatch config)
      (.startup (handshake source config options)) with ⟨r, receiver, s⟩
    have hbatch : startupBatch config ≠ [] := List.cons_ne_nil _ _
    obtain ⟨events, hexchanged⟩ := Session.exchange_exchanged
      (s := (fresh stream config options).session) (.startup (handshake source config options))
      hbatch rfl rfl
    rw [hout] at hexchanged
    have hopened : Begun config options { fresh stream config options with session := s } := by
      refine ⟨hexchanged.settled, rfl, rfl, fun f hf => ?_⟩
      obtain ⟨sent, answers, hsent, hanswers, hwritten⟩ := hexchanged.sent
      change f ∈ s.written at hf
      rw [hwritten] at hf
      obtain hf | hf := List.mem_append.1 hf
      · obtain hf | hf := List.mem_append.1 hf
        · cases hf
        · obtain rfl | rfl := hsent
          · cases hf
          · exact .inl (List.mem_singleton.1 hf)
      · exact .inr (.inl (hanswers f hf))
    dsimp only
    split
    · exact hopened
    · exact hopened.close rfl

/-- Nothing is parsed before the connection is used. -/
theorem Begun.parse_notMem {config : Config} {options : ConnectOptions}
    (h : Begun config options c) : .parse name query types ∉ c.session.written := by
  intro hf
  obtain hpacket | hanswer | hlast := h.written _ hf
  · cases hpacket
  · cases hanswer
  · cases hlast

/-- However a connection is used, no startup packet is sent but the one of its configuration. -/
theorem Begun.startup {config : Config} {options : ConnectOptions} (h : Begun config options c)
    (hd : Performs c xs d) {version : Int32} {params : List (String × String)}
    (hf : .startup version params ∈ d.session.written) :
    Frontend.startup version params = .startup Wire.protocolVersion config.startupParams := by
  obtain ⟨events, torn, hsaid⟩ := hd.speaks
  rw [Session.written_eq, hsaid.events_eq, writtenIn_append] at hf
  obtain hf | hf := List.mem_append.1 hf
  · obtain hpacket | hanswer | hlast := h.written _ hf
    · exact hpacket
    · cases hanswer
    · cases hlast
  · have hletter := hsaid.letters (List.mem_append_left _ hf)
    have hnone : Signal.frame none ∉ letters Grammar.statement.star := by decide
    exact absurd hletter hnone

/-- The startup packet that a connection sends is read back to its last byte as the parameters of
the configuration exactly if all of them are texts, no key is empty and the length fits its word;
a URL without the character zero leaves only its keys to look at. Every Parse that it sends is the
one of some execution, and is read back as its name, the converted SQL in the encoding in force
and the types of its values exactly if its name and the SQL are texts and the length fits. -/
theorem packets_read_iff (stream : Stream) (config : Config) (options : ConnectOptions)
    (ops : List Operation) :
    let c := (connect stream config options).2
    let packet := Frontend.startup Wire.protocolVersion config.startupParams
    (∀ version params, .startup version params ∈ (c.runs ops).session.written →
        .startup version params = packet) ∧
      ((Body.sized Body.startup).run packet.encode =
          .ok (((Wire.protocolVersion, config.startupParams.map Wire.texts), []), []) ↔
        config.Fits ∧ packet.FitsLength) ∧
      (∀ url, Config.ofUrl url = .ok config → Wire.IsText url →
        (config.Fits ↔ ∀ o ∈ config.options, o.1 ≠ "")) ∧
      ∀ name query types, .parse name query types ∈ (c.runs ops).session.written →
        ∃ x ∈ c.executions ops, x.Parses (.parse name query types) ∧
          (∃ sql order, ((∃ op ∈ ops, op.sql? = some sql) ∨ sql = "BEGIN TRANSACTION") ∧
            Placeholder.convert config.style sql = .ok (x.call.sql, order) ∧
            (Wire.IsText sql → Wire.IsText x.call.sql)) ∧
          (Wire.IsText options.process → Wire.IsText name) ∧
          ((Body.tagged Body.parse).run (Frontend.parse name query types).encode =
              .ok (('P'.toUInt8, (Utf8.encode name, query, types), []), []) ↔
            Wire.IsText name ∧ Wire.IsText x.call.sql ∧
              (Frontend.parse name query types).FitsLength) := by
  intro c packet
  have hbegun : Begun config options c := begun_of_connect stream config options
  have hruns := runs_performs ops hbegun.settled
  refine ⟨fun version params hf => hbegun.startup hruns hf, ?_,
    fun url hurl htext => Config.fits_ofUrl_iff hurl htext, fun name query types hf => ?_⟩
  · rw [Frontend.startup_iff, Config.fits_iff]
  · obtain ⟨x, hx, hparses, hprocess⟩ := hruns.parse hbegun.parse_notMem hf
    obtain ⟨sql, hsql, ⟨order, hconvert⟩, hvalues⟩ := asks_of_mem hbegun.settled hx
    rw [hbegun.configured] at hconvert
    refine ⟨x, hx, hparses, ⟨sql, order, hsql, hconvert, Placeholder.isText_convert hconvert⟩,
      fun hlabel => hparses.isText_name ?_, hparses.read_iff hvalues⟩
    rw [hprocess, hbegun.labelled]
    exact hlabel

/-- The packets of a connection that says COMMIT are read back. -/
theorem packets_read_iff_committed :
    let config : Config := { password := some "secret" }
    let packet := Frontend.startup Wire.protocolVersion config.startupParams
    let parse := Frontend.parse (Statement.nameOf "" 1) (Utf8.encode "COMMIT") []
    (Body.sized Body.startup).run packet.encode =
        .ok (((Wire.protocolVersion, config.startupParams.map Wire.texts), []), []) ∧
      parse ∈ ((greeted described).2.runs [.commit]).session.written ∧
      (Body.tagged Body.parse).run parse.encode =
        .ok (('P'.toUInt8, (Utf8.encode (Statement.nameOf "" 1), Utf8.encode "COMMIT", []), []),
          []) := by
  have hsent : Frontend.parse (Statement.nameOf "" 1) (Utf8.encode "COMMIT") [] ∈
      ((greeted described).2.runs [.commit]).session.written := by decide +kernel
  obtain ⟨-, hpacket, -, hparse⟩ := packets_read_iff
    { incoming := ⟨greeting ++ described, .closed⟩ } { password := some "secret" } {} [.commit]
  have hdefault := Config.Textual.default
  have htextual : ({ password := some "secret" } : Config).Textual :=
    ⟨hdefault.user, hdefault.database, hdefault.applicationName, hdefault.options⟩
  refine ⟨hpacket.2 ⟨htextual.fits_iff.2 fun _ => nofun, by decide⟩, hsent, ?_⟩
  obtain ⟨x, -, ⟨encoders, -, query, hquery, hown⟩, -, -, hread⟩ := hparse _ _ _ hsent
  simp only [Frontend.parse.injEq] at hown
  rw [← hown.2.1] at hquery
  exact hread.2 ⟨by decide, (CodecContext.zero_notMem_iff hquery).1 (by decide), by decide⟩

set_option synthInstance.maxSize 256 in
/-- An equals sign at the beginning of a query hides what comes after it from the server. Zeros in
a user add a parameter that nobody asked for. A zero in SQL ends it early, and its Parse late. -/
theorem packets_misread :
    (∃ config, Config.ofUrl "redshift://alice@host/dev?=on&search_path=audit" = .ok config ∧
      config.startupParams.drop 4 = [("", "on"), ("search_path", "audit")] ∧
      (Body.sized Body.startup).run
          (Frontend.startup Wire.protocolVersion config.startupParams).encode =
        .ok (((Wire.protocolVersion, (config.startupParams.take 4).map Wire.texts),
          Utf8.encode "on\x00search_path\x00audit\x00\x00"), [])) ∧
    (∃ config, Config.ofUrl "redshift://alice\x00database\x00prod@host/dev" = .ok config ∧
      (Body.sized Body.startup).run
          (Frontend.startup Wire.protocolVersion config.startupParams).encode =
        .ok (((Wire.protocolVersion,
          (("user", "alice") :: ("database", "prod") :: config.startupParams.drop 1).map
            Wire.texts), []), [])) ∧
    Frontend.parse (Statement.nameOf "" 1) (Utf8.encode "SELECT 1\x00") [] ∈
      ((greeted described).2.runs
        [.setAutocommit true, .query "SELECT 1\x00" .none]).session.written ∧
    (Body.tagged Body.parse).run
        (Frontend.parse (Statement.nameOf "" 1) (Utf8.encode "SELECT 1\x00") []).encode =
      .ok (('P'.toUInt8, (Utf8.encode (Statement.nameOf "" 1), Utf8.encode "SELECT 1", []), [0]),
        []) := by
  refine ⟨⟨{ host := "host", user := "alice", options := [("", "on"), ("search_path", "audit")] },
    by decide +kernel, rfl, by decide +kernel⟩,
    ⟨{ host := "host", user := "alice\x00database\x00prod" }, by decide +kernel,
      by decide +kernel⟩,
    by decide +kernel, by decide +kernel⟩

end Connection

end PgClient
