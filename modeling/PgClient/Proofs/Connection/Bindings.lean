/-
  PgClient.Proofs.Connection.Bindings

  The Bind messages of a connection as a server reads them. Their lists come from
  different places: the parameters from the call, their formats from a statement
  that may have been cached for an earlier call, and the formats of the result
  from a description. What every statement keeps to sees to it that they fit
  together and can be counted.
-/
import PgClient.Proofs.Connection.Packets

namespace PgClient

open ConnectionM Steps

/-! ## Statements and their keys -/

/-- What a statement of a process keeps to where it stands for a key: it is unnamed or has a name
of the process, its parameters are those of the key, and its columns can be counted. -/
structure Statement.Suits (process : String) (key : StatementKey) (statement : Statement) :
    Prop where
  named : statement.name = "" ∨ ∃ n, statement.name = nameOf process n
  signature : key.signature = statement.encoders.map fun e => (e.oid, e.format)
  counted : statement.columns.length ≤ maxCount

/-- A statement that is prepared suits the key that it is prepared for. -/
theorem ConnectionM.prepare_suits {named : Bool} {sql : String} {encoders : List ParamEncoder}
    {c d : Connection} {statement : Statement} (hs : c.session.Settled)
    (hb : c.session.broken = false)
    (h : (prepare named sql encoders).run c = (.ok statement, d)) :
    statement.Suits c.process (.of sql encoders) := by
  obtain ⟨types, fields, rfl, hfew⟩ := statement_of_prepare hs hb h
  refine ⟨?_, rfl, ?_⟩
  · cases named with
    | false => exact .inl rfl
    | true => exact .inr ⟨c.sequence, rfl⟩
  · rw [describedStatement, List.length_map]
    exact hfew

namespace Connection

/-- All that is cached on a connection of a process suits its key. -/
structure Stocked (process : String) (c : Connection) : Prop where
  labelled : c.process = process
  suits : ∀ e ∈ c.cache.entries, e.2.Suits process e.1

namespace Stocked

variable {process : String} {c d : Connection}

/-- Executions cache nothing but what suits its key. -/
theorem performs {xs : List Execution} (h : Stocked process c) (hd : Performs c xs d) :
    Stocked process d := by
  refine hd.invariant (I := Stocked process) ?_ ?_ h
  · rintro c d ⟨autocommit, notifications⟩ hc
    exact ⟨hc.labelled, hc.suits⟩
  · intro x husable hx
    refine ⟨?_, ?_⟩
    · rw [(x.moves husable).kept.rest]
      exact hx.labelled
    · refine (x.performed husable).entries (P := fun key statement => statement.Suits process key)
        husable.sound (fun encoders s d' _ hprepare => ?_) hx.suits
      rw [← hx.labelled]
      exact prepare_suits husable.settled husable.sound hprepare

/-- An opened connection has nothing cached yet. -/
theorem of_connect {stream : Stream} {config : Config} {options : ConnectOptions}
    (h : connect stream config options = (.ok (), c)) : Stocked options.process c := by
  obtain ⟨events, s, rfl, -, -⟩ := opened_of_connect h
  exact ⟨rfl, fun _ => nofun⟩

/-- What is obtained suits the key that it is obtained for. -/
theorem obtained {sql : String} {encoders : List ParamEncoder} {statement : Statement}
    (h : Stocked process c) (hc : c.Usable)
    (hobtain : (obtain (.of sql encoders) encoders).run c = (.ok statement, d)) :
    statement.Suits process (.of sql encoders) := by
  refine (obtain_entries (P := fun key statement => statement.Suits process key) hobtain
    (fun s d' hprepare => ?_) h.suits).1
  rw [← h.labelled]
  exact prepare_suits hc.settled hc.sound hprepare

end Stocked

end Connection

/-! ## The parameters of a call -/

/-- A parameter is missing just where its value is null; an empty one is there. -/
theorem ConnectionM.isNone_of_encodeParam {ctx : CodecContext} {v : Value}
    {encoder : ParamEncoder} {param : Option Bytes}
    (h : encodeParam ctx (v, encoder) = .ok param) : param.isNone = v.isNull := by
  have hthere (h : (encoder.encode v ctx).map some = .ok param) : param.isNone = false := by
    cases hencode : encoder.encode v ctx with
    | error e =>
      rw [hencode] at h
      cases h
    | ok bs =>
      rw [hencode] at h
      cases h
      rfl
  -- All values but the null go through their encoder.
  cases v with
  | null =>
    cases h
    rfl
  | _ => exact hthere h

theorem ConnectionM.isNone_params {ctx : CodecContext} {items : List (Value × ParamEncoder)}
    {params : List (Option Bytes)} (h : items.mapM (encodeParam ctx) = .ok params) :
    params.map Option.isNone = (items.map Prod.fst).map Value.isNull := by
  rw [mapM_eq_ok_iff] at h
  induction h with
  | nil => rfl
  | cons hitem _ ih =>
    rw [List.map_cons, List.map_cons, List.map_cons, ih, isNone_of_encodeParam hitem]

/-! ## The Bind of an execution -/

/-- A message is the Bind of an execution: its parameters are the values of the call, encoded as
they were inspected, and the rest is told by the statement that was obtained for them. -/
def Execution.Bound (x : Execution) (f : Frontend) : Prop :=
  ∃ encoders params statement d,
    x.call.values.mapM x.before.codec.inspect = .ok encoders ∧
    (x.call.values.zip encoders).mapM (encodeParam x.before.session.context) = .ok params ∧
    (obtain (.of x.call.sql encoders) encoders).run x.before = (.ok statement, d) ∧
    f = .bind "" statement.name (statement.encoders.map (·.format)) params
      statement.resultFormats

/-- Every Bind that an execution adds to what was written is its own. -/
theorem Execution.bound_of_written {x : Execution} {f : Frontend} (hx : x.before.Usable)
    (hf : f.isBind = true) (hbefore : f ∉ x.before.session.written)
    (hafter : f ∈ x.after.session.written) : x.Bound f := by
  -- Any place of the message among what was written will do.
  obtain ⟨past, future, hwritten⟩ := List.append_of_mem hafter
  obtain ⟨added, hbindless, hevents⟩ | ⟨encoders, params, statement, d, after, hsends, hobtain⟩ :=
    x.sends_obtained hx
  · rw [Session.written_eq, hevents, writtenIn_append] at hafter
    have hnew := (List.mem_append.1 hafter).resolve_left hbefore
    rw [hbindless f hnew] at hf
    cases hf
  · have hnew : ¬ ∃ rest, x.before.session.written = past ++ f :: rest := by
      rintro ⟨rest, hrest⟩
      rw [hrest] at hbefore
      exact hbefore (List.mem_append_right _ List.mem_cons_self)
    exact ⟨encoders, params, statement, d, hsends.readied.inspected, hsends.readied.encoded,
      hobtain, (hsends.bind_eq hx hf hnew hwritten).2⟩

/-- The parts of a Bind fit together, and are what some values ask for in a process. -/
structure Frontend.BindFits (process : String) (values : List Value) (portal name : String)
    (formats : List Format) (params : List (Option Bytes)) (results : List Format) : Prop where
  portal : portal = ""
  named : name = "" ∨ ∃ n, name = Statement.nameOf process n
  formatted : formats.length = params.length
  counted : params.length ≤ maxCount
  results : results.length ≤ maxCount
  nulls : params.map Option.isNone = values.map Value.isNull

variable {process portal name : String} {values : List Value} {formats results : List Format}
  {params : List (Option Bytes)}

/-- A Bind whose parts fit together is read back if its length fits. -/
theorem Frontend.BindFits.read_iff
    (h : BindFits process values portal name formats params results)
    (hlabel : Wire.IsText process) :
    (Body.tagged Body.binding).run (Frontend.bind portal name formats params results).encode =
        .ok (('B'.toUInt8, (Utf8.encode portal, Utf8.encode name, formats.map Format.code, params,
          results.map Format.code), []), []) ↔
      (Frontend.bind portal name formats params results).FitsLength := by
  have hportal : Wire.IsText portal := by
    rw [h.portal]
    decide
  have hname : Wire.IsText name := by
    obtain hunnamed | ⟨n, hname⟩ := h.named
    · rw [hunnamed]
      decide
    · rw [hname]
      exact Statement.isText_nameOf hlabel n
  rw [Frontend.bind_iff, and_iff_right hportal, and_iff_right hname,
    and_iff_right (h.formatted.trans_le h.counted), and_iff_right h.counted,
    and_iff_right h.results]

/-- The parts of the Bind of an execution fit together if what is cached suits its key. -/
theorem Execution.Bound.fits {x : Execution}
    (h : x.Bound (.bind portal name formats params results)) (hx : x.before.Usable)
    (hstocked : Connection.Stocked process x.before) (hvalues : x.call.values.length ≤ maxCount) :
    Frontend.BindFits process x.call.values portal name formats params results := by
  obtain ⟨encoders, params', statement, d, hinspect, hencode, hobtain, hbind⟩ := h
  cases hbind
  have hsuits := hstocked.obtained hx hobtain
  have hinspected : x.call.values.length = encoders.length :=
    (mapM_eq_ok_iff.1 hinspect).length_eq
  have hnulls := isNone_params hencode
  rw [List.map_fst_zip hinspected.le] at hnulls
  have hparams : params.length = x.call.values.length := by
    have hsame := congrArg List.length hnulls
    rw [List.length_map, List.length_map] at hsame
    exact hsame
  -- The statement may be of an earlier call, but one with parameters of the same types.
  have hformats : statement.encoders.length = encoders.length := by
    have hsame := congrArg List.length hsuits.signature
    rw [StatementKey.of, List.length_map, List.length_map] at hsame
    exact hsame.symm
  refine ⟨rfl, hsuits.named, ?_, hparams.trans_le hvalues, ?_, hnulls⟩
  · rw [List.length_map, hformats, hparams, hinspected]
  · rw [Statement.resultFormats, List.length_map]
    exact hsuits.counted

/-! ## Calls with too many values -/

/-- A call with more values than can be counted fails and does nothing, on any connection. -/
theorem ConnectionM.execute_many {sql text : String} {order : Placeholder.Order}
    {args : Placeholder.Arguments} {c : Connection}
    (hconvert : Placeholder.convert c.config.style sql = .ok (text, order))
    (harrange : order.arrange args = .ok values) (hmany : maxCount < values.length)
    (copy : CopyStreams) (implicitBegin : Bool) :
    execute sql args copy implicitBegin c =
      ((.error (if c.session.broken || c.terminated then .connectionClosed
        else .tooManyParameters values.length), copy), c) := by
  rw [execute_run]
  by_cases closed : (c.session.broken || c.terminated) = true
  · rw [call_closed sql args closed, if_pos closed]
  · have hcall := (Malformed.many hconvert harrange hmany).call (Bool.eq_false_iff.2 closed)
    rw [hcall, if_neg closed]

namespace Connection

variable {c : Connection}

/-- Whatever a server sends, and whatever it is asked to execute: every Bind that goes out is the
one of some execution, its parts fit together, and it is read back to its last byte, with a null
kept apart from an empty value, exactly if its length fits its word. A call with more values than
can be counted fails before anything is done. -/
theorem binds_read_back {stream : Stream} {config : Config} {options : ConnectOptions}
    (h : connect stream config options = (.ok (), c)) (hlabel : Wire.IsText options.process)
    (ops : List Operation) :
    (∀ portal name formats params results,
      .bind portal name formats params results ∈ (c.runs ops).session.written →
        ∃ x ∈ c.executions ops, x.Bound (.bind portal name formats params results) ∧
          Frontend.BindFits options.process x.call.values portal name formats params results ∧
          ((Body.tagged Body.binding).run
                (Frontend.bind portal name formats params results).encode =
              .ok (('B'.toUInt8, (Utf8.encode portal, Utf8.encode name,
                formats.map Format.code, params, results.map Format.code), []), []) ↔
            (Frontend.bind portal name formats params results).FitsLength)) ∧
      ∀ (d : Connection) sql args copy implicitBegin text order values,
        Placeholder.convert d.config.style sql = .ok (text, order) →
          order.arrange args = .ok values → maxCount < values.length →
            execute sql args copy implicitBegin d =
              ((.error (if d.session.broken || d.terminated then .connectionClosed
                else .tooManyParameters values.length), copy), d) := by
  have hsettled := settled_of_connect h
  have hruns := runs_performs ops hsettled
  constructor
  · intro portal name formats params results hf
    -- No Bind was there when the connection was opened, so that an execution has added it.
    have hnew : .bind portal name formats params results ∉ c.session.written := by
      intro hold
      rw [Session.written_eq] at hold
      cases bindless_of_connect h _ hold
    obtain ⟨earlier, x, later, hxs, hearlier, hx, hbefore, hafter⟩ := hruns.writes hnew hf
    have hmem : x ∈ c.executions ops := by
      rw [hxs]
      exact List.mem_append_right _ List.mem_cons_self
    obtain ⟨_, _, _, hvalues⟩ := asks_of_mem hsettled hmem
    have hbound := x.bound_of_written hx rfl hbefore hafter
    have hstocked : Stocked options.process x.before := (Stocked.of_connect h).performs hearlier
    have hfits := hbound.fits hx hstocked hvalues
    exact ⟨x, hmem, hbound, hfits, hfits.read_iff hlabel⟩
  · intro d sql args copy implicitBegin text order values hconvert harrange hmany
    exact execute_many hconvert harrange hmany copy implicitBegin

/-- A null and an empty text are bound, and come back as what they are. Values that cannot be
counted are not looked at, even where no placeholder asks for them. -/
theorem binds_read_back_null :
    let ops : List Operation :=
      [.setAutocommit true, .query "SELECT %s, %s" (.positional [.null, .text ""])]
    let message := Frontend.bind "" (Statement.nameOf "" 1) [.text, .text] [none, some []] []
    (greeted described).1 = .ok () ∧
      message ∈ ((greeted described).2.runs ops).session.written ∧
      (Body.tagged Body.binding).run message.encode =
        .ok (('B'.toUInt8, ([], Utf8.encode (Statement.nameOf "" 1), [0, 0], [none, some []], []),
          []), []) ∧
      execute "SELECT 1" (.positional (List.replicate 32768 .null)) {} false (greeted described).2 =
        ((.error (.tooManyParameters 32768), {}), (greeted described).2) := by
  intro ops message
  have hgreeted : (greeted described).1 = .ok () := by decide +kernel
  have hsent : message ∈ ((greeted described).2.runs ops).session.written := by decide +kernel
  have hopen : ((greeted described).2.session.broken || (greeted described).2.terminated) = false :=
    by decide +kernel
  have hconvert : Placeholder.convert (greeted described).2.config.style "SELECT 1" =
      .ok ("SELECT 1", .positional) := by decide +kernel
  obtain ⟨hread, hmany⟩ := binds_read_back (Prod.ext hgreeted rfl) (by decide) ops
  obtain ⟨x, -, -, -, hiff⟩ := hread _ _ _ _ _ hsent
  refine ⟨hgreeted, hsent, hiff.2 (by decide), ?_⟩
  have hrefused := hmany _ "SELECT 1" (.positional (List.replicate 32768 .null)) {} false _ _ _
    hconvert rfl (by rw [List.length_replicate]; decide)
  rw [hopen, List.length_replicate] at hrefused
  exact hrefused

end Connection

end PgClient
