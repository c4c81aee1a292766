/-
  PgClient.Proofs.Connection.Results

  What an execution that succeeds has brought. Its statement has the columns of
  a description, with the decoders that the codec has for their types, whether
  it was prepared just now or found in the cache. Every row that came in its
  cycle was decoded with them.
-/
import PgClient.Proofs.Connection.Invalidation
import PgClient.Proofs.Session.Description

namespace PgClient

open ConnectionM Steps

/-- The columns that a description makes. -/
def Codec.columns (codec : Codec) (fields : List FieldDescription) : List Column :=
  fields.map fun field => ⟨field, codec.lookup field.typeOid⟩

/-! ## Statements and their columns -/

namespace Connection

/-- Statements are cached with the columns that the codec makes of a description, and values are
decoded as all that was received asks for. -/
structure Informed (codec : Codec) (c : Connection) : Prop where
  decoders : c.codec = codec
  columns : ∀ e ∈ c.cache.entries, ∃ fields, e.2.columns = codec.columns fields
  context : c.session.context = contextAfter c.session.received

variable {codec : Codec} {c d : Connection}

theorem Moves.context {binding : Bool} (h : Moves binding c d)
    (hc : c.session.context = contextAfter c.session.received) :
    d.session.context = contextAfter d.session.received := by
  induction h with
  | refl => exact hc
  | tail _ last ih =>
    cases last with
    | beside cache capacity sequence stale => exact ih
    | exchange sound syncs binds exchanged => exact exchanged.context ih

end Connection

namespace ConnectionM

open Connection

variable {codec : Codec} {call : Call} {copy : CopyStreams} {c c' d : Connection}
  {statement : Statement} {named : Bool} {sql : String} {key : StatementKey}
  {encoders : List ParamEncoder} {params : List (Option Bytes)}

/-- A statement that is prepared is made of a description, which a count can tell. -/
theorem statement_of_prepare (hs : c.session.Settled) (hb : c.session.broken = false)
    (h : (prepare named sql encoders).run c = (.ok statement, d)) :
    ∃ types fields, statement = describedStatement named encoders c types fields ∧
      fields.length ≤ maxCount := by
  rw [prepare_run _ _ _ _ hs.staged] at h
  cases hquery : c.session.context.encodeText sql with
  | error e =>
    rw [hquery] at h
    cases (Prod.mk.inj h).1
  | ok query =>
    rw [hquery] at h
    have hbatch : prepareBatch (nextName named c) query encoders ≠ [] := List.cons_ne_nil _ _
    rcases hout : c.session.exchange (prepareBatch (nextName named c) query encoders)
      (.describe {}) with ⟨r, receiver, s⟩
    simp only [hout] at h
    obtain ⟨hr, -⟩ := Prod.mk.inj h
    split at hr
    · cases hr
    · exact ⟨_, _, (Except.ok.inj hr).symm, Session.exchange_few hbatch hb hs.deferred hout⟩
    · cases hr

/-- What is true of all that is cached and of what is prepared is true of a statement that is
obtained, and of all that is cached then. -/
theorem obtain_entries {P : StatementKey → Statement → Prop}
    (h : (obtain key encoders).run c = (.ok statement, d))
    (hprepare : ∀ s d', (prepare c.cache.isEnabled key.sql encoders).run c = (.ok s, d') → P key s)
    (hc : ∀ e ∈ c.cache.entries, P e.1 e.2) :
    P key statement ∧ ∀ e ∈ d.cache.entries, P e.1 e.2 := by
  obtain ⟨s, enabled, found, hr, rfl⟩ | ⟨-, ⟨e, hr, -⟩ | ⟨s, d', hr, hprepared, rfl⟩⟩ :=
    obtain_split h
  · cases hr
    have hmem := Cache.mem_of_peek? found
    exact ⟨hc _ hmem, fun e he => hc e (Cache.mem_touch hmem he)⟩
  · cases hr
  · cases hr
    have hstatement := hprepare _ _ hprepared
    refine ⟨hstatement, fun e he => ?_⟩
    by_cases disabled : c.cache.capacity = 0
    · rw [if_pos disabled] at he
      exact hc e he
    · rw [if_neg disabled] at he
      have hgrown : e ∈ (key, statement) :: c.cache.entries := List.mem_of_mem_take he
      obtain rfl | he := List.mem_cons.1 hgrown
      · exact hstatement
      · exact hc e he

/-- What is cached after an execution was cached before it or prepared in it. -/
theorem Performed.entries {P : StatementKey → Statement → Prop}
    {out : Except Error (Statement × Outcome) × CopyStreams} (h : Performed call copy c out c')
    (hb : c.session.broken = false)
    (hprepare : ∀ encoders s d', call.values.mapM c.codec.inspect = .ok encoders →
      (prepare c.cache.isEnabled call.sql encoders).run c = (.ok s, d') →
        P (.of call.sql encoders) s)
    (hc : ∀ e ∈ c.cache.entries, P e.1 e.2) : ∀ e ∈ c'.cache.entries, P e.1 e.2 := by
  cases h with
  | rejected rejected =>
    cases rejected with
    | unchanged => exact hc
    | unprepared inspected failed => cases failed <;> exact hc
  | refused readied sent obtaining =>
    exact (obtain_entries obtaining (fun s d' => hprepare _ s d' readied.inspected) hc).2
  | @executed encoders params statement d c₁ c₂ r r₁ r₂ receiver s t readied sent cycled released
      invalidated obtaining =>
    obtain ⟨-, hd⟩ :=
      obtain_entries obtaining (fun s d' => hprepare _ s d' readied.inspected) hc
    obtain ⟨-, -, -, ht, -⟩ := readied.obtained.cycled hb sent cycled
    have hcache : c₁.cache = d.cache := by rw [release_cache ht.staged released]
    have hsettled := Moves.settled (release_moves ht released) ht
    rw [invalidateStale_run] at invalidated
    cases hstale : c₁.session.stale with
    | true =>
      rw [if_pos hstale] at invalidated
      rw [invalidate_cache (c := { c₁ with session := { c₁.session with stale := false } })
        hsettled.staged invalidated]
      exact fun _ => nofun
    | false =>
      rw [if_neg (Bool.eq_false_iff.1 hstale)] at invalidated
      obtain ⟨-, rfl⟩ := Prod.mk.inj invalidated
      rw [hcache]
      exact hd

/-- A statement that is prepared has the columns of its description. -/
theorem prepare_columns (hs : c.session.Settled) (hb : c.session.broken = false)
    (h : (prepare named sql encoders).run c = (.ok statement, d)) :
    ∃ fields, statement.columns = c.codec.columns fields := by
  obtain ⟨types, fields, rfl, -⟩ := statement_of_prepare hs hb h
  exact ⟨fields, rfl⟩

end ConnectionM

namespace Connection.Informed

variable {codec : Codec} {c d : Connection}

/-- Executions keep a connection informed. -/
theorem performs {xs : List Execution} (h : Informed codec c) (hd : Performs c xs d) :
    Informed codec d := by
  refine hd.invariant (I := Informed codec) ?_ ?_ h
  · rintro c d ⟨autocommit, notifications⟩ hc
    exact ⟨hc.decoders, hc.columns, hc.context⟩
  · intro x husable hx
    have hmoves := x.moves husable
    refine ⟨?_, ?_, hmoves.context hx.context⟩
    · rw [hmoves.kept.rest]
      exact hx.decoders
    · refine (x.performed husable).entries
        (P := fun _ statement => ∃ fields, statement.columns = codec.columns fields)
        husable.sound (fun encoders s d' _ hprepare => ?_) hx.columns
      rw [← hx.decoders]
      exact prepare_columns husable.settled husable.sound hprepare

/-- An opened connection has nothing cached yet. -/
theorem of_connect {stream : Stream} {config : Config} {options : ConnectOptions}
    (h : connect stream config options = (.ok (), c)) : Informed c.codec c := by
  obtain ⟨events, s, rfl, -, hexchanged⟩ := opened_of_connect h
  exact ⟨rfl, fun _ => nofun, hexchanged.context rfl⟩

end Connection.Informed

/-! ## Rows -/

/-- Between `past` and `events` a statement was bound and executed, and until the server was ready
again it sent the rows of a description. Each of them was decoded by the decoders of the codec, in
the context that all messages before it had left behind. No statement was bound after that. -/
inductive Brings (codec : Codec) (past events : List Event) (fields : List FieldDescription)
    (rows : List Row) : Prop
  | intro {before body rest : List Event} {closed : List String} {name : String}
    {formats results : List Format} {params : List (Option Bytes)} {status : TransactionStatus}
    (sent : events = before ++
      .wrote (closed.map (.close .statement) ++
        [.bind "" name formats params results, .execute "" 0, .sync]) ::
      (body ++ .received (.readyForQuery status) :: rest))
    (begun : past <+: before) (unready : Unready body) (bindless : Bindless rest)
    (decoded : rows.map .ok =
      decodedRows (codec.columns fields) (contextAfter (receivedIn before)) (receivedIn body)) :
    Brings codec past events fields rows

/-- A row has one value for each column. -/
theorem length_of_decodeRow {ctx : CodecContext} {columns : List Column}
    {values : List (Option Bytes)} {row : Row}
    (h : CycleM.decodeRow ctx columns values = .ok row) : row.length = columns.length := by
  unfold CycleM.decodeRow at h
  by_cases width : values.length = columns.length
  · rw [if_pos width] at h
    rw [← (mapM_eq_ok_iff.1 h).length_eq, List.length_zip, width, Nat.min_self]
  · rw [if_neg width] at h
    cases h

/-- The rows that were brought are as wide as their description. -/
theorem Brings.width {codec : Codec} {past events : List Event} {fields : List FieldDescription}
    {rows : List Row} (h : Brings codec past events fields rows) :
    ∀ row ∈ rows, row.length = fields.length := by
  obtain ⟨-, -, -, -, decoded⟩ := h
  have hwidth : List.Forall₂ (fun _ row => row.length = fields.length) _ rows :=
    (decodesTo_of_decodedRows decoded).imp fun _ row ⟨ctx, hrow⟩ => by
      rw [length_of_decodeRow hrow, Codec.columns, List.length_map]
  intro row hrow
  obtain ⟨i, hi, rfl⟩ := List.getElem_of_mem hrow
  exact (List.forall₂_iff_get.1 hwidth).2 i (hwidth.length_eq ▸ hi) hi

/-- What was brought since some events was brought since any before them. -/
theorem Brings.of_prefix {codec : Codec} {past past' events : List Event}
    {fields : List FieldDescription} {rows : List Row} (h : Brings codec past events fields rows)
    (hpast : past' <+: past) : Brings codec past' events fields rows := by
  obtain ⟨sent, begun, unready, bindless, decoded⟩ := h
  exact .intro sent (hpast.trans begun) unready bindless decoded

namespace Connection

variable {c c' : Connection}

/-- Executions take no event back. -/
theorem Performs.events {xs : List Execution} (h : Performs c xs c') :
    c.session.events <+: c'.session.events := by
  refine h.invariant (I := fun d => c.session.events <+: d.session.events) ?_ ?_ List.prefix_rfl
  · intro d e hsettings hd
    have hevents : e.session.events = d.session.events := congrArg List.reverse hsettings.history
    rw [hevents]
    exact hd
  · intro x husable hx
    obtain ⟨added, hadded⟩ := (x.moves husable).events
    exact hx.trans ⟨added, hadded.symm⟩

/-- A call that succeeds ends in an execution that does, with the streams lent to the call. What is
executed before it succeeds as well, without any streams. -/
theorem run_perform {sql : String} {args : Placeholder.Arguments} {copy copy' : CopyStreams}
    {value : Statement × Outcome} (hs : c.session.Settled)
    (h : Connection.run sql args copy c = ((.ok value, copy'), c')) :
    ∃ (xs : List Execution) (x : Execution), Performs c xs x.before ∧
      (∀ y ∈ xs, y.copy = {} ∧ ∃ value, y.result = .ok value) ∧ x.before.Usable ∧
      x.copy = copy ∧ perform x.call x.copy x.before = ((.ok value, copy'), c') := by
  have hrun : Connection.run sql args copy c =
      ConnectionM.execute sql args copy (!c.config.autocommit) c := rfl
  rw [hrun, execute_run] at h
  rcases hcall : (call sql args).run c with ⟨e | k, d⟩
  · rw [hcall] at h
    cases h
  · obtain ⟨hsound, hopened⟩ := call_open hcall
    have husable : c.Usable := ⟨hs, hsound, hopened⟩
    rw [hcall] at h
    dsimp only at h
    by_cases opens : (!c.config.autocommit && c.session.status = .idle) = true
    · rw [if_pos opens, beginTransaction_run] at h
      rcases hbegin : (call "BEGIN TRANSACTION" .none).run c with ⟨e | opening, d'⟩
      · rw [hbegin] at h
        cases h
      · rw [hbegin] at h
        -- The BEGIN has succeeded, and the statement is executed after it.
        rcases hperform : perform opening {} c with ⟨⟨e | first, copy₁⟩, d₁⟩
        · simp only [hperform] at h
          cases h
        · simp only [hperform] at h
          have hafter : Execution.after { before := c, call := opening } = d₁ :=
            congrArg Prod.snd hperform
          have hbegun : Execution.result { before := c, call := opening } = .ok first :=
            congrArg (fun out => out.1.1) hperform
          have husable' : Usable d₁ := hafter ▸ Execution.usable_after
            (x := { before := c, call := opening }) husable hbegun
          have hfirst : Performs c [{ before := c, call := opening }] d₁ :=
            hafter ▸ Execution.performs (x := { before := c, call := opening }) husable
          exact ⟨_, { before := d₁, call := k, copy }, hfirst,
            List.forall_mem_singleton.2 ⟨rfl, first, hbegun⟩, husable', rfl, h⟩
    · rw [if_neg opens] at h
      exact ⟨[], { before := c, call := k, copy }, .nil (.refl c), fun _ => nofun, husable, rfl,
        h⟩

end Connection

end PgClient
