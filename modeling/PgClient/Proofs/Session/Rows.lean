/-
  PgClient.Proofs.Session.Rows

  The rows of an execution. In a cycle that brings no error every row that the
  server sends is decoded with the columns of the statement, in order and with
  what the server has said of values up to then, and none is lost.
-/
import PgClient.Proofs.Session.Exchange

namespace PgClient

/-- The values of a row that the server sends. -/
def Backend.rowValues? : Backend → Option (List (Option Bytes))
  | .dataRow values => some values
  | _ => none

/-- The rows that the server sent in some events. -/
def sentRows (events : List Event) : List (List (Option Bytes)) :=
  (receivedIn events).filterMap Backend.rowValues?

/-- The row that some values make with some columns, in some context. -/
def DecodesTo (columns : List Column) (values : List (Option Bytes)) (row : Row) : Prop :=
  ∃ ctx, CycleM.decodeRow ctx columns values = .ok row

/-- What becomes of the rows among some messages: each is decoded in the context that the
messages before it have left behind. -/
def decodedRows (columns : List Column) : CodecContext → List Backend → List (Except Error Row)
  | _, [] => []
  | ctx, m :: messages =>
    (m.rowValues?.map (CycleM.decodeRow ctx columns)).toList ++
      decodedRows columns (ctx.noted m) messages

/-- The end of a cycle brings no row. -/
theorem decodedRows_ready (columns : List Column) (ctx : CodecContext) (messages : List Backend)
    (status : TransactionStatus) :
    decodedRows columns ctx (messages ++ [.readyForQuery status]) =
      decodedRows columns ctx messages := by
  induction messages generalizing ctx with
  | nil => rfl
  | cons m messages ih => rw [List.cons_append, decodedRows, decodedRows, ih]

/-- Where all rows are decoded there is one for each that was sent. -/
theorem decodesTo_of_decodedRows {columns : List Column} {ctx : CodecContext}
    {messages : List Backend} {rows : List Row}
    (h : rows.map .ok = decodedRows columns ctx messages) :
    List.Forall₂ (DecodesTo columns) (messages.filterMap Backend.rowValues?) rows := by
  induction messages generalizing ctx rows with
  | nil =>
    obtain rfl := List.map_eq_nil_iff.1 h
    exact .nil
  | cons m messages ih =>
    rw [decodedRows] at h
    rw [List.filterMap_cons]
    cases hvalues : m.rowValues? with
    | none =>
      rw [hvalues] at h
      exact ih h
    | some values =>
      rw [hvalues] at h
      obtain ⟨row, rest, rfl, hrow, hrest⟩ := List.map_eq_cons_iff.1 h
      exact .cons ⟨ctx, hrow.symm⟩ (ih hrest)

namespace Receiver

variable {s : Session} {m : Backend} {columns : List Column} {outcome : Outcome}
  {copy : CopyStreams}

/-- Only a row adds to the rows. -/
theorem next_rows (h : m.rowValues? = none) :
    ∃ outcome' copy', next s (.rows columns outcome copy) m = .rows columns outcome' copy' ∧
      outcome'.rows = outcome.rows := by
  cases m with
  | dataRow values => cases h
  | commandComplete tag => exact ⟨_, copy, rfl, rfl⟩
  | copyIn format formats => exact ⟨outcome, _, rfl, rfl⟩
  | copyData data =>
    obtain ⟨source, _ | sink⟩ := copy
    · exact ⟨outcome, _, rfl, rfl⟩
    · simp only [next]
      split <;> exact ⟨outcome, _, rfl, rfl⟩
  | _ => exact ⟨outcome, copy, rfl, rfl⟩

/-- A row that is not refused is decoded and kept. -/
theorem next_dataRow {values : List (Option Bytes)}
    (h : refusal s (.rows columns outcome copy) (.dataRow values) = none) :
    ∃ row outcome', next s (.rows columns outcome copy) (.dataRow values) =
        .rows columns outcome' copy ∧
      outcome'.rows = outcome.rows ++ [row] ∧
      CycleM.decodeRow s.context columns values = .ok row := by
  cases decoded : CycleM.decodeRow s.context columns values with
  | ok row =>
    simp only [next, decoded]
    exact ⟨row, _, rfl, rfl, rfl⟩
  | error e =>
    simp only [refusal, decoded] at h
    cases h

end Receiver

/-- The context after a step is the one that its message leaves behind. -/
theorem Cycle.Step.context {m : Backend} {batches : List (List Frontend)} {c c' : Cycle}
    (h : Step m batches c c') : c'.session.context = c.session.context.noted m := by
  have hknown := congrArg Session.context h.ran.known
  have hreplay := Session.context_replay c.session (handled m batches)
  rw [receivedIn_handled] at hreplay
  exact hknown.trans hreplay

/-- The rows after a run that held no error back. -/
theorem Cycle.Runs.rows {c c' : Cycle} {events : List Event} {columns : List Column}
    {outcome : Outcome} {copy : CopyStreams} (h : Runs c events c')
    (hreceiver : c.receiver = .rows columns outcome copy)
    (hnone : c'.session.deferred = none) :
    ∃ rows outcome' copy', c'.receiver = .rows columns outcome' copy' ∧
      outcome'.rows = outcome.rows ++ rows ∧
      rows.map .ok = decodedRows columns c.session.context (receivedIn events) := by
  induction h generalizing outcome copy with
  | refl c => exact ⟨[], outcome, copy, hreceiver, (List.append_nil _).symm, rfl⟩
  | @step c c₁ c₂ m batches events first rest ih =>
    -- No error is held back in the end, so none was for this message.
    obtain ⟨-, hrefusal, hnext⟩ :=
      (first_accepted first rest hnone).of_rows (by rw [hreceiver]; rfl)
    rw [hreceiver] at hrefusal hnext
    rw [receivedIn_append, receivedIn_handled, List.singleton_append, decodedRows,
      ← first.context]
    cases hvalues : m.rowValues? with
    | none =>
      obtain ⟨outcome₁, copy₁, hreceiver₁, hrows₁⟩ := Receiver.next_rows hvalues
      rw [hreceiver₁] at hnext
      obtain ⟨rows, outcome', copy', hreceiver', hrows, hdecoded⟩ := ih hnext hnone
      exact ⟨rows, outcome', copy', hreceiver', by rw [hrows, hrows₁], hdecoded⟩
    | some values =>
      obtain rfl : m = .dataRow values := by
        cases m <;> first | (cases hvalues; rfl) | cases hvalues
      obtain ⟨row, outcome₁, hreceiver₁, hrows₁, hrow⟩ := Receiver.next_dataRow hrefusal.symm
      rw [hreceiver₁] at hnext
      obtain ⟨rows, outcome', copy', hreceiver', hrows, hdecoded⟩ := ih hnext hnone
      refine ⟨row :: rows, outcome', copy', hreceiver', ?_, ?_⟩
      · rw [hrows, hrows₁, List.append_assoc, List.singleton_append]
      · rw [List.map_cons, hdecoded, Option.map_some, hrow]
        rfl

/-- A cycle of an execution that went without an error has decoded all of its rows. -/
theorem Session.cycle_rows {s t : Session} {columns : List Column} {copy : CopyStreams}
    {receiver : Receiver} (hs : s.staged = []) (hb : s.broken = false)
    (h : s.cycle (.rows columns {} copy) = (.ok (), receiver, t)) :
    ∃ body status outcome copy',
      t.events = s.events ++ (body ++ [.received (.readyForQuery status)]) ∧ Unready body ∧
        receiver = .rows columns outcome copy' ∧
        outcome.rows.map .ok = decodedRows columns s.context (receivedIn body) := by
  obtain ⟨held, events, hr, hcompleted⟩ | ⟨e, events, hr, -⟩ := cycle_cases hs hb h
  · obtain rfl : held = none := by
      cases held with
      | none => rfl
      | some e => cases hr
    obtain ⟨-, hevents⟩ := hcompleted.answering hs
    obtain ⟨rows, outcome, copy', hreceiver, hrows, hdecoded⟩ := hcompleted.runs.rows rfl rfl
    obtain ⟨body, status, rfl, hbody⟩ := hcompleted.ready
    refine ⟨body, status, outcome, copy', hevents, hbody, hreceiver, ?_⟩
    rw [receivedIn_append, receivedIn_received, receivedIn_nil, decodedRows_ready] at hdecoded
    rw [hrows]
    exact hdecoded
  · cases hr

end PgClient
