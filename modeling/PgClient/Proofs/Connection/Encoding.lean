/-
  PgClient.Proofs.Connection.Encoding

  The context that the parameters of a Bind are encoded in. It is the one that
  was in force before the statement of the call was obtained. A server that
  changes it while it parses and describes that statement gets parameters in the
  old one, unless they look the same in both.
-/
import PgClient.Proofs.Connection.Preparing

namespace PgClient

open ConnectionM Steps

/-! ## The parameters of a call -/

/-- Values that have some parameters in one context have the same ones in another just where the
contexts agree on each of them. -/
theorem encoded_iff {ctx ctx' : CodecContext} {items : List (Value × ParamEncoder)}
    {params : List (Option Bytes)} (h : items.mapM (encodeParam ctx) = .ok params) :
    items.mapM (encodeParam ctx') = .ok params ↔
      ∀ item ∈ items, encodeParam ctx' item = encodeParam ctx item := by
  rw [mapM_eq_ok_iff] at h ⊢
  induction h with
  | nil => exact ⟨fun _ _ => nofun, fun _ => .nil⟩
  | @cons item param items params hitem _ ih =>
    rw [List.forall₂_cons, ih, List.forall_mem_cons, hitem]

/-- What an execution writes with its Bind: `preparing` is what happened while its statement was
obtained, `closes` is what went out in front of the Bind, and `after` what has happened since. The
parameters are encoded as all that was received before the execution asks for. -/
structure Execution.Binds (x : Execution) (encoders : List ParamEncoder) (statement : Statement)
    (preparing after : List Event) (closes : List Frontend) (params : List (Option Bytes)) :
    Prop where
  prepared : Preparing (.of x.call.sql encoders) encoders x.before statement preparing
  sent : x.after.session.events = x.before.session.events ++ preparing ++
    .wrote (closes ++ bindMessages statement params) :: after
  inspected : x.call.values.mapM x.before.codec.inspect = .ok encoders
  encoded : (x.call.values.zip encoders).mapM
    (encodeParam (contextAfter x.before.session.received)) = .ok params

/-- An execution that sends a Bind encodes its parameters before the statement is obtained. -/
theorem Execution.Sends.binds {x : Execution} {encoders : List ParamEncoder}
    {params : List (Option Bytes)} {statement : Statement} {d : Connection} {after : List Event}
    (h : x.Sends encoders params statement d after)
    (hcontext : x.before.session.context = contextAfter x.before.session.received) :
    ∃ preparing, d.session.events = x.before.session.events ++ preparing ∧
      x.Binds encoders statement preparing after d.session.staged params := by
  obtain ⟨preparing, hpreparing, hevents⟩ := h.readied.obtained.preparing
  refine ⟨preparing, hevents, hpreparing, ?_, h.readied.inspected, ?_⟩
  · rw [h.sent, hevents]
    rfl
  · rw [← hcontext]
    exact h.readied.encoded

namespace Connection

variable {c : Connection}

/-- Whatever a server sends: the parameters of every Bind are those of its call in the context that
was in force when its statement was looked for. They are those in the context that is in force when
the Bind is written just where no value is encoded differently in the two. -/
theorem params_current_iff {stream : Stream} {config : Config} {options : ConnectOptions}
    (h : connect stream config options = (.ok (), c)) (ops : List Operation) :
    ∀ past portal name formats params results future,
      (c.runs ops).session.written = past ++ .bind portal name formats params results :: future →
        ∃ x ∈ c.executions ops, ∃ encoders statement preparing after closes,
          x.Binds encoders statement preparing after closes params ∧
            past = x.before.session.written ++ writtenIn preparing ++ closes ∧
            ((x.call.values.zip encoders).mapM
                (encodeParam (contextAfter (x.before.session.received ++ receivedIn preparing))) =
                  .ok params ↔
              ∀ item ∈ x.call.values.zip encoders,
                encodeParam (contextAfter (x.before.session.received ++ receivedIn preparing))
                    item =
                  encodeParam (contextAfter x.before.session.received) item) := by
  intro past portal name formats params results future hwritten
  obtain ⟨earlier, x, later, hxs, hearlier, -, -, encoders, params', statement, d, after, hsends,
    rfl, hbind⟩ := executes_bind h ops hwritten rfl
  obtain ⟨preparing, hevents, hbinds⟩ :=
    hsends.binds ((Informed.of_connect h).performs hearlier).context
  cases hbind
  refine ⟨x, ?_, encoders, statement, preparing, after, d.session.staged, hbinds, ?_,
    encoded_iff hbinds.encoded⟩
  · rw [hxs]
    exact List.mem_append_right _ List.mem_cons_self
  · rw [Session.written_eq, hevents, writtenIn_append]
    rfl

/-- What a server sends that changes the encoding to Latin-1 while it describes a statement. -/
def reencoded : Bytes :=
  [0x53, 0, 0, 0, 0x1B, 0x63, 0x6C, 0x69, 0x65, 0x6E, 0x74, 0x5F, 0x65, 0x6E, 0x63, 0x6F, 0x64,
    0x69, 0x6E, 0x67, 0, 0x4C, 0x41, 0x54, 0x49, 0x4E, 0x31, 0, 0x6E, 0, 0, 0, 4, 0x5A, 0, 0, 0, 5,
    0x49, 0x5A, 0, 0, 0, 5, 0x49]

/-- A connection to such a server that commits by itself and sends it an accented letter. -/
def relabelled : Connection :=
  (greeted reencoded).2.runs
    [.setAutocommit true, .query "INSERT INTO t VALUES (%s)" (.positional [.text "é"])]

/-- The case of this letter, which is looked for once and is not the same in the two. -/
theorem params_current_iff_reencoded :
    (greeted reencoded).1 = .ok () ∧
      relabelled.session.written.drop 4 =
        [.bind "" (Statement.nameOf "" 1) [.text] [some [0xC3, 0xA9]] [], .execute "" 0, .sync] ∧
      ∀ past portal name formats params results future,
        relabelled.session.written = past ++ .bind portal name formats params results :: future →
          ∃ x ∈ (greeted reencoded).2.executions
              [.setAutocommit true, .query "INSERT INTO t VALUES (%s)" (.positional [.text "é"])],
            ∃ encoders statement preparing after closes,
              x.Binds encoders statement preparing after closes params ∧
                past = x.before.session.written ++ writtenIn preparing ++ closes ∧
                ((x.call.values.zip encoders).mapM
                    (encodeParam
                      (contextAfter (x.before.session.received ++ receivedIn preparing))) =
                      .ok params ↔
                  ∀ item ∈ x.call.values.zip encoders,
                    encodeParam (contextAfter (x.before.session.received ++ receivedIn preparing))
                        item =
                      encodeParam (contextAfter x.before.session.received) item) := by
  have hgreeted : (greeted reencoded).1 = .ok () := by decide +kernel
  have hsent : relabelled.session.written.drop 4 =
      [.bind "" (Statement.nameOf "" 1) [.text] [some [0xC3, 0xA9]] [], .execute "" 0, .sync] := by
    decide +kernel
  exact ⟨hgreeted, hsent, params_current_iff (Prod.ext hgreeted rfl) _⟩

/-- The letter goes out in UTF-8, though Latin-1 was in force when its Bind was written. -/
theorem params_stale :
    (greeted reencoded).1 = .ok () ∧
      ∃ before after,
        relabelled.session.events = before ++
            .wrote [.bind "" (Statement.nameOf "" 1) [.text] [some [0xC3, 0xA9]] [],
              .execute "" 0, .sync] :: after ∧
          (contextAfter (receivedIn before)).encoding = .latin1 ∧
          (([.text "é"] : List Value).mapM relabelled.codec.inspect).bind (fun encoders =>
            ([.text "é"].zip encoders).mapM (encodeParam (contextAfter (receivedIn before)))) =
              .ok [some [0xE9]] := by
  refine ⟨by decide +kernel, relabelled.session.events.take 7, relabelled.session.events.drop 8,
    ?_, ?_, ?_⟩ <;> decide +kernel

end Connection

end PgClient
