/-
  PgClient.Proofs.Connection.BindSafety

  Every Bind that a connection sends can be traced to the execution that sent
  it. The ledger of the connection at that moment vouches for the statement that
  the Bind names, and the key under which it was obtained for the types.
-/
import PgClient.Proofs.Connection.Ledger
import PgClient.Proofs.Session.Rows

namespace PgClient

open ConnectionM Steps

/-! ## Events without a Bind -/

/-- An item of a list of two parts is in the first or in the second. -/
theorem split_of_append_eq {α : Type} {first second past future : List α} {f : α}
    (h : first ++ second = past ++ f :: future) :
    (∃ rest, first = past ++ f :: rest) ∨
      ∃ between, past = first ++ between ∧ second = between ++ f :: future := by
  rcases List.append_eq_append_iff.1 h with ⟨between, hpast, hsecond⟩ | ⟨rest, hfirst, hrest⟩
  · exact .inr ⟨between, hpast, hsecond⟩
  · cases rest with
    | nil =>
      rw [List.append_nil] at hfirst
      exact .inr ⟨[], by rw [hfirst, List.append_nil], hrest.symm⟩
    | cons g rest =>
      obtain ⟨rfl, -⟩ := List.cons.inj hrest
      exact .inl ⟨rest, hfirst⟩

/-- A Bind is not in a part that has none. -/
theorem bind_of_append_eq {first second past future : List Frontend} {f : Frontend}
    (h : first ++ second = past ++ f :: future) (hf : f.isBind = true)
    (hsecond : ∀ g ∈ second, g.isBind = false) : ∃ rest, first = past ++ f :: rest := by
  rcases split_of_append_eq h with hfirst | ⟨between, -, hparts⟩
  · exact hfirst
  · have hmem : f ∈ second := by
      rw [hparts]
      exact List.mem_append_right _ List.mem_cons_self
    rw [hsecond f hmem] at hf
    cases hf

/-- No message that some events wrote is a Bind. -/
def Bindless (events : List Event) : Prop := ∀ f ∈ writtenIn events, f.isBind = false

namespace Bindless

variable {events events' : List Event} {batch : List Frontend}

theorem append (h : Bindless events) (h' : Bindless events') : Bindless (events ++ events') := by
  intro f hf
  rw [writtenIn_append] at hf
  exact (List.mem_append.1 hf).elim (h f) (h' f)

theorem wrote (hbatch : ∀ f ∈ batch, f.isBind = false) (h : Bindless events) :
    Bindless (.wrote batch :: events) := by
  intro f hf
  rw [writtenIn_wrote] at hf
  exact (List.mem_append.1 hf).elim (hbatch f) (h f)

theorem of_answering (h : Answering events) : Bindless events := by
  intro f hf
  have hanswer := h f hf
  cases f <;> first | rfl | cases hanswer

/-- An exchange of a batch without a Bind. -/
theorem exchanged {s s' : Session} (hbatch : ∀ f ∈ batch, f.isBind = false)
    (h : s.Exchanged batch events s') : Bindless events := by
  cases h.ended with
  | refused broken => exact fun _ => nofun
  | aborted answering unready broken => exact wrote hbatch (of_answering answering)
  | ready answering unready broken framed =>
    exact wrote hbatch ((of_answering answering).append fun _ => nofun)

end Bindless

/-- Moves that are not binding add no Bind. -/
theorem Connection.Moves.bindless {c d : Connection} (h : Moves false c d) :
    ∃ added, Bindless added ∧ d.session.events = c.session.events ++ added := by
  induction h with
  | refl => exact ⟨[], fun _ => nofun, (List.append_nil _).symm⟩
  | tail _ last ih =>
    obtain ⟨added, hadded, hevents⟩ := ih
    cases last with
    | beside cache capacity sequence stale => exact ⟨added, hadded, hevents⟩
    | @exchange batch events s sound syncs binds exchanged =>
      refine ⟨added ++ events, hadded.append (.exchanged (binds rfl) exchanged), ?_⟩
      rw [exchanged.events_eq, hevents, List.append_assoc]

/-! ## Tracing a Bind -/

/-- An execution sends a Bind for a statement: `d` is the connection that is ready for it, and
`after` is what has happened since. -/
structure Execution.Sends (x : Execution) (encoders : List ParamEncoder)
    (params : List (Option Bytes)) (statement : Statement) (d : Connection)
    (after : List Event) : Prop where
  readied : Readied x.call encoders params x.before statement d
  course : ∃ s t c₁ receiver r r₁ r₂,
    d.session.send (executeBatch statement params d) = (.ok (), s) ∧
      s.cycle (.rows statement.columns {} x.copy) = (r, receiver, t) ∧
      (release statement).run { d with session := t } = (r₁, c₁) ∧
      invalidateStale.run c₁ = (r₂, x.after)
  sent : x.after.session.events =
    d.session.events ++ .wrote (executeBatch statement params d) :: after
  bindless : Bindless after
  rows {value : Statement × Outcome} (succeeded : x.result = .ok value) :
    value.1 = statement ∧ ∃ body status rest,
      after = body ++ .received (.readyForQuery status) :: rest ∧ Unready body ∧
        List.Forall₂ (DecodesTo statement.columns) (sentRows body) value.2.rows

namespace ConnectionM

open Connection

variable {call : Call} {c d : Connection} {encoders : List ParamEncoder}
  {params : List (Option Bytes)} {statement : Statement}

/-- Two lists of encoders with the same signature have the same types and formats. -/
theorem types_of_signature {encoders encoders' : List ParamEncoder}
    (h : (encoders.map fun e => (e.oid, e.format)) = encoders'.map fun e => (e.oid, e.format)) :
    encoders.map (·.oid) = encoders'.map (·.oid) ∧
      encoders.map (·.format) = encoders'.map (·.format) := by
  have hoid := congrArg (List.map Prod.fst) h
  have hformat := congrArg (List.map Prod.snd) h
  simp only [List.map_map] at hoid hformat
  exact ⟨hoid, hformat⟩

/-- The ledger vouches for the statement that a call is made ready with. -/
theorem Readied.vouched (h : Readied call encoders params c statement d) (hledger : Ledger c)
    (hs : c.session.Settled) :
    (statement.encoders.map fun e => (e.oid, e.format)) =
        (encoders.map fun e => (e.oid, e.format)) ∧
      ParsedIn call.sql statement.name encoders d.session.events ∧
      statement.name ∉ closedNames (d.session.written ++ d.session.staged) := by
  obtain ⟨hd, hmem⟩ := hledger.obtained hs rfl h.obtained
  have hentered := hd.entered _ hmem
  have hsignature := hentered.signature.symm
  exact ⟨hsignature, hentered.parsed.congr (types_of_signature hsignature).1.symm,
    hentered.unclosed⟩

/-- No Bind is sent before the statement of a call is obtained. -/
theorem Obtained.bindless {key : StatementKey} (h : Obtained key encoders c statement d)
    (hs : c.session.Settled) (hb : c.session.broken = false) :
    ∃ added, Bindless added ∧ d.session.events = c.session.events ++ added :=
  (h.moves hs hb).bindless

/-- The cycle of an execution starts right after the write, and settles the session. -/
theorem Obtained.cycled {key : StatementKey} {s t : Session} {receiver receiver' : Receiver}
    {r : Except Error Unit} (h : Obtained key encoders c statement d)
    (hb : c.session.broken = false)
    (sent : d.session.send (executeBatch statement params d) = (.ok (), s))
    (cycled : s.cycle receiver = (r, receiver', t)) :
    s.events = d.session.events ++ [.wrote (executeBatch statement params d)] ∧ s.staged = [] ∧
      s.broken = false ∧ t.Settled ∧ ∃ body, Answering body ∧ t.events = s.events ++ body := by
  obtain ⟨hevents, hstaged, hsame⟩ :=
    Session.send_ok (executeBatch_ne_nil statement params d) sent
  have hsound : s.broken = false := hsame.trans (h.broken hb)
  exact ⟨hevents, hstaged, hsound, Session.cycle_events hstaged hsound cycled⟩

/-- What an execution does after its cycle sends no Bind. -/
theorem bindless_after {t : Session} {r₁ r₂ : Except Error Unit} {c₁ c₂ : Connection}
    (ht : t.Settled) (released : (release statement).run { d with session := t } = (r₁, c₁))
    (invalidated : invalidateStale.run c₁ = (r₂, c₂)) :
    ∃ added, Bindless added ∧ c₂.session.events = t.events ++ added := by
  have hreleased := release_moves ht released
  have hinvalidated := invalidateStale_moves (Moves.settled hreleased ht) invalidated
  exact Moves.bindless (hreleased.trans hinvalidated)

/-- What comes of the cycle of an execution that succeeds: the statement, and a row for every
row that was sent. -/
theorem rows_of_ok {s t : Session} {copy : CopyStreams} {r r₁ r₂ : Except Error Unit}
    {receiver : Receiver} {value : Statement × Outcome} (hs : s.staged = [])
    (hb : s.broken = false)
    (cycled : s.cycle (.rows statement.columns {} copy) = (r, receiver, t))
    (succeeded : (r.bind fun _ => r₁.bind fun _ => r₂.map fun _ =>
      (statement, (collected copy receiver).1)) = .ok value) :
    value.1 = statement ∧ ∃ body status,
      t.events = s.events ++ (body ++ [.received (.readyForQuery status)]) ∧ Unready body ∧
        List.Forall₂ (DecodesTo statement.columns) (sentRows body) value.2.rows := by
  obtain ⟨rfl, -, -, rfl⟩ := inOrder_ok succeeded
  obtain ⟨body, status, outcome, copy', hevents, hbody, rfl, hrows⟩ :=
    Session.cycle_rows hs hb cycled
  exact ⟨rfl, body, status, hevents, hbody, decodesTo_of_decodedRows hrows⟩

end ConnectionM

namespace Execution

variable {x : Execution} {past future : List Frontend} {f : Frontend}
  {encoders : List ParamEncoder} {params : List (Option Bytes)} {statement : Statement}
  {d : Connection} {after : List Event}

/-- An execution sends one Bind or none, for the statement that it obtains. -/
theorem sends_obtained (h : x.before.Usable) :
    (∃ added, Bindless added ∧ x.after.session.events = x.before.session.events ++ added) ∨
      ∃ encoders params statement d after, x.Sends encoders params statement d after ∧
        (obtain (.of x.call.sql encoders) encoders).run x.before = (.ok statement, d) := by
  have hperformed := x.performed h
  generalize hout : (perform x.call x.copy x.before).1 = out at hperformed
  generalize hafter : x.after = c at hperformed
  cases hperformed with
  | rejected rejected => exact .inl (Connection.Moves.bindless (rejected.moves h.sound))
  | @refused encoders params statement d e s readied sent =>
    obtain ⟨added, hbindless, hevents⟩ := readied.obtained.bindless h.settled h.sound
    refine .inl ⟨added, hbindless, ?_⟩
    rw [← hevents]
    exact Session.send_error (executeBatch_ne_nil statement params d) sent
  | @executed encoders params statement d c₁ c₂ r r₁ r₂ receiver s t readied sent cycled released
      invalidated obtaining =>
    obtain ⟨hsent, hstaged, hs, ht, body, hbody, hcycle⟩ :=
      readied.obtained.cycled h.sound sent cycled
    obtain ⟨rest, hrest, hreleased⟩ := bindless_after ht released invalidated
    have hevents : c.session.events =
        d.session.events ++ .wrote (executeBatch statement params d) :: (body ++ rest) := by
      rw [hreleased, hcycle, hsent, List.append_assoc, List.append_assoc, List.singleton_append]
    refine .inr ⟨encoders, params, statement, d, body ++ rest, ⟨readied,
      ⟨s, t, c₁, receiver, r, r₁, r₂, sent, cycled, released, hafter ▸ invalidated⟩,
      hafter ▸ hevents, (Bindless.of_answering hbody).append hrest, ?_⟩, obtaining⟩
    intro value succeeded
    -- The cycle is described twice: by what it wrote and by the rows it took.
    have hresult := (congrArg Prod.fst hout).symm.trans succeeded
    obtain ⟨hvalue, body', status, hcycle', hunready, hrows⟩ :=
      rows_of_ok hstaged hs cycled hresult
    obtain rfl := List.append_cancel_left (hcycle.symm.trans hcycle')
    refine ⟨hvalue, body', status, rest, ?_, hunready, hrows⟩
    rw [List.append_assoc, List.singleton_append]

/-- An execution sends one Bind or none. -/
theorem sends_cases (h : x.before.Usable) :
    (∃ added, Bindless added ∧ x.after.session.events = x.before.session.events ++ added) ∨
      ∃ encoders params statement d after, x.Sends encoders params statement d after :=
  (sends_obtained h).imp_right fun ⟨encoders, params, statement, d, after, hsends, _⟩ =>
    ⟨encoders, params, statement, d, after, hsends⟩

/-- The Bind that an execution sends is the only one that it adds to what was written. -/
theorem Sends.bind_eq (h : x.Sends encoders params statement d after) (hx : x.before.Usable)
    (hf : f.isBind = true) (hnew : ¬ ∃ rest, x.before.session.written = past ++ f :: rest)
    (hwritten : x.after.session.written = past ++ f :: future) :
    past = d.session.written ++ d.session.staged ∧
      f = .bind "" statement.name (statement.encoders.map (·.format)) params
        statement.resultFormats := by
  obtain ⟨obtaining, hobtaining, hbefore⟩ := h.readied.obtained.bindless hx.settled hx.sound
  obtain ⟨names, hcloses⟩ := h.readied.obtained.closes hx.settled
  have htail : ∀ g ∈ .execute "" 0 :: .sync :: writtenIn after, g.isBind = false := by
    intro g hg
    rcases List.mem_cons.1 hg with rfl | hg
    · rfl
    rcases List.mem_cons.1 hg with rfl | hg
    · rfl
    · exact h.bindless g hg
  -- What waited to be closed goes out in front of the Bind.
  have hall : x.after.session.written = (d.session.written ++ d.session.staged) ++
      .bind "" statement.name (statement.encoders.map (·.format)) params
        statement.resultFormats :: (.execute "" 0 :: .sync :: writtenIn after) := by
    rw [Session.written_eq, h.sent, writtenIn_append, writtenIn_wrote, executeBatch, bindMessages,
      ← Session.written_eq, List.append_assoc, List.append_assoc]
    rfl
  rw [hall] at hwritten
  rcases split_of_append_eq hwritten with ⟨rest, hfirst⟩ | ⟨between, hpast, hlast⟩
  · -- Neither the Close messages nor what came before them hold a new Bind.
    obtain ⟨rest, hfirst⟩ := bind_of_append_eq hfirst hf (hcloses ▸ closes_bindless names)
    rw [Session.written_eq, hbefore, writtenIn_append] at hfirst
    exact absurd (bind_of_append_eq hfirst hf hobtaining) hnew
  -- The Bind is the first message after them, since no later one is a Bind.
  · cases between with
    | nil =>
      obtain ⟨rfl, -⟩ := List.cons.inj hlast
      exact ⟨hpast.trans (List.append_nil _), rfl⟩
    | cons g between =>
      obtain ⟨-, hmore⟩ := List.cons.inj hlast
      have hmem : f ∈ .execute "" 0 :: .sync :: writtenIn after := by
        rw [hmore]
        exact List.mem_append_right _ List.mem_cons_self
      rw [htail f hmem] at hf
      cases hf

/-- A Bind that an execution adds to what was written is one that it sends. -/
theorem bind_cases (h : x.before.Usable) (hf : f.isBind = true)
    (hnew : ¬ ∃ rest, x.before.session.written = past ++ f :: rest)
    (hwritten : x.after.session.written = past ++ f :: future) :
    ∃ encoders params statement d after, x.Sends encoders params statement d after ∧
      past = d.session.written ++ d.session.staged ∧
        f = .bind "" statement.name (statement.encoders.map (·.format)) params
          statement.resultFormats := by
  obtain ⟨added, hbindless, hevents⟩ | ⟨_, _, _, _, _, hsends⟩ := sends_cases h
  · rw [Session.written_eq, hevents, writtenIn_append] at hwritten
    exact absurd (bind_of_append_eq hwritten hf hbindless) hnew
  · exact ⟨_, _, _, _, _, hsends, hsends.bind_eq h hf hnew hwritten⟩

end Execution

namespace Connection

variable {c c' : Connection} {xs : List Execution} {past future : List Frontend} {f : Frontend}

/-- A Bind that some executions add to what was written is one that one of them sends. -/
theorem Performs.bind_cases (h : Performs c xs c') (hf : f.isBind = true)
    (hnew : ¬ ∃ rest, c.session.written = past ++ f :: rest)
    (hwritten : c'.session.written = past ++ f :: future) :
    ∃ earlier x later encoders params statement d after, xs = earlier ++ x :: later ∧
      x.Sends encoders params statement d after ∧
        past = d.session.written ++ d.session.staged ∧
          f = .bind "" statement.name (statement.encoders.map (·.format)) params
            statement.resultFormats := by
  obtain ⟨earlier, x, later, rfl, hbefore, rest, hafter⟩ :=
    h.crossing (P := fun d => ∃ rest, d.session.written = past ++ f :: rest)
      (fun hsettings ⟨rest, hrest⟩ => ⟨rest, by
        rw [← hrest, Session.written, Session.written, hsettings.history]⟩) hnew ⟨future, hwritten⟩
  obtain ⟨_, _, _, _, _, hsends⟩ := x.bind_cases h.split.2.1 hf hbefore hafter
  exact ⟨earlier, x, later, _, _, _, _, _, rfl, hsends⟩

end Connection

/-! ## Safety -/

/-- What makes the Bind that an execution has sent, after `past` was written, a safe one.
`before` is all that had happened when the batch with the Bind was sent, `closes` is what went
out with it, and `after` is what has happened since. -/
structure Execution.SafeBind (x : Execution) (encoders : List ParamEncoder)
    (columns : List Column) (before after : List Event) (closes past : List Frontend)
    (portal name : String) (formats : List Format) (params : List (Option Bytes))
    (results : List Format) : Prop where
  place : past = writtenIn before ++ closes
  sent : x.after.session.events = before ++
    .wrote (closes ++ [.bind portal name formats params results, .execute "" 0, .sync]) :: after
  /-- The statement was parsed for this call, and the server had no complaint. -/
  parsed : ParsedIn x.call.sql name encoders before
  unclosed : name ∉ closedNames past
  inspected : x.call.values.mapM x.before.codec.inspect = .ok encoders
  formatted : formats = encoders.map (·.format)
  encoded : (x.call.values.zip encoders).mapM (encodeParam x.before.session.context) = .ok params
  asked : results = columns.map (·.decoder.format)
  /-- Whatever comes of the cycle after the Bind, its rows are taken with the columns. -/
  cycled : ∃ (s t : Session) (receiver : Receiver) (r : Except Error Unit) (rest : List Event),
    s.events = before ++
      [.wrote (closes ++ [.bind portal name formats params results, .execute "" 0, .sync])] ∧
    s.cycle (.rows columns {} x.copy) = (r, receiver, t) ∧
    x.after.session.events = t.events ++ rest
  rows {statement : Statement} {outcome : Outcome}
    (succeeded : x.result = .ok (statement, outcome)) :
    statement.columns = columns ∧ ∃ body status rest,
      after = body ++ .received (.readyForQuery status) :: rest ∧ Unready body ∧
        List.Forall₂ (DecodesTo columns) (sentRows body) outcome.rows

/-- Where the ledger vouches for the statements, the Bind that an execution sends is safe. -/
theorem Execution.Sends.safe {x : Execution} {encoders : List ParamEncoder}
    {params : List (Option Bytes)} {statement : Statement} {d : Connection} {after : List Event}
    (h : x.Sends encoders params statement d after) (hx : x.before.Usable)
    (hledger : Connection.Ledger x.before) :
    x.SafeBind encoders statement.columns d.session.events after d.session.staged
      (d.session.written ++ d.session.staged) "" statement.name
      (statement.encoders.map (·.format)) params statement.resultFormats := by
  obtain ⟨hsignature, hparsed, hunclosed⟩ := h.readied.vouched hledger hx.settled
  obtain ⟨s, t, c₁, receiver, r, r₁, r₂, sent, cycled, released, invalidated⟩ := h.course
  obtain ⟨hsent, -, -, ht, -⟩ := h.readied.obtained.cycled hx.sound sent cycled
  obtain ⟨rest, -, hrest⟩ := bindless_after ht released invalidated
  refine ⟨rfl, h.sent, hparsed, hunclosed, h.readied.inspected,
    (types_of_signature hsignature).2, h.readied.encoded, rfl,
    ⟨s, t, receiver, r, rest, hsent, cycled, hrest⟩, ?_⟩
  intro statement' outcome succeeded
  obtain ⟨rfl, hrows⟩ := h.rows succeeded
  exact ⟨rfl, hrows⟩

namespace Connection

variable {c : Connection}

/-- Before the first call no Bind was sent. -/
theorem bindless_of_connect {stream : Stream} {config : Config} {options : ConnectOptions}
    (h : connect stream config options = (.ok (), c)) : Bindless c.session.events := by
  obtain ⟨events, s, rfl, -, hexchanged⟩ := opened_of_connect h
  show Bindless s.events
  rw [hexchanged.events_eq]
  refine .exchanged ?_ hexchanged
  intro f hf
  rw [List.mem_singleton.1 hf]
  rfl

/-- Whatever a server sends: no statement of a connection that may keep some is closed twice, and
every Bind names a statement that was parsed once and makes a safe one of some execution. -/
theorem bind_safe {stream : Stream} {config : Config} {options : ConnectOptions}
    (h : connect stream config options = (.ok (), c))
    (hcapacity : 0 < config.maxPreparedStatements.toNat) (ops : List Operation) :
    (closedNames (c.runs ops).session.written).Nodup ∧
      ∀ past portal name formats params results future,
        (c.runs ops).session.written =
            past ++ .bind portal name formats params results :: future →
          (parsedNames (c.runs ops).session.written).count name = 1 ∧
            ∃ x ∈ c.executions ops, ∃ encoders columns before after closes,
              x.SafeBind encoders columns before after closes past portal name formats params
                results := by
  have hledger := Ledger.of_connect hcapacity h
  have hruns := runs_performs ops (settled_of_connect h)
  have hall := hledger.performs hruns
  refine ⟨?_, ?_⟩
  · have hclosed := hall.closedOnce
    rw [closedNames_append] at hclosed
    exact (List.nodup_append.1 hclosed).1
  intro past portal name formats params results future hwritten
  -- The Bind was not there when the connection was opened, so an execution sent it.
  have hnew : ¬ ∃ rest, c.session.written =
      past ++ .bind portal name formats params results :: rest := by
    rintro ⟨rest, hrest⟩
    have hmem : .bind portal name formats params results ∈ writtenIn c.session.events := by
      rw [← Session.written_eq, hrest]
      exact List.mem_append_right _ List.mem_cons_self
    cases bindless_of_connect h _ hmem
  obtain ⟨earlier, x, later, encoders, params', statement, d, after, hxs, hsends, rfl, hbind⟩ :=
    hruns.bind_cases rfl hnew hwritten
  rw [hxs] at hruns
  obtain ⟨hearlier, hx, hlater⟩ := hruns.split
  have hsafe := hsends.safe hx (hledger.performs hearlier)
  cases hbind
  refine ⟨?_, x, ?_, encoders, statement.columns, d.session.events, after, d.session.staged,
    hsafe⟩
  · refine List.count_eq_one_of_mem hall.parsedOnce ?_
    rw [hwritten, parsedNames_append, parsedNames_append]
    exact List.mem_append_left _ (List.mem_append_left _ hsafe.parsed.mem)
  · rw [hxs]
    exact List.mem_append_right _ List.mem_cons_self

/-- What a server sends that describes one statement as one without rows, and has nothing to say
when it is executed. -/
def described : Bytes := [0x6E, 0, 0, 0, 4, 0x5A, 0, 0, 0, 5, 0x49, 0x5A, 0, 0, 0, 5, 0x49]

/-- The case of a COMMIT, which is bound right after its description. -/
theorem bind_safe_described :
    (greeted described).1 = .ok () ∧
      ((greeted described).2.runs [.commit]).session.written.drop 4 =
        [.bind "" (Statement.nameOf "" 1) [] [] [], .execute "" 0, .sync] ∧
      (closedNames ((greeted described).2.runs [.commit]).session.written).Nodup ∧
      ∀ past portal name formats params results future,
        ((greeted described).2.runs [.commit]).session.written =
            past ++ .bind portal name formats params results :: future →
          (parsedNames ((greeted described).2.runs [.commit]).session.written).count name = 1 ∧
            ∃ x ∈ (greeted described).2.executions [.commit],
              ∃ encoders columns before after closes,
                x.SafeBind encoders columns before after closes past portal name formats
                  params results := by
  have hgreeted : (greeted described).1 = .ok () := by decide +kernel
  have hsent : ((greeted described).2.runs [.commit]).session.written.drop 4 =
      [.bind "" (Statement.nameOf "" 1) [] [] [], .execute "" 0, .sync] := by decide +kernel
  exact ⟨hgreeted, hsent, bind_safe (Prod.ext hgreeted rfl) (by decide) [.commit]⟩

end Connection

end PgClient
