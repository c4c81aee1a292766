/-
  PgClient.Proofs.Connection.Executed

  The cycle in which a statement is executed, found again among all that has
  happened on a connection, and what the execution has collected in it.
-/
import PgClient.Proofs.Connection.Opening
import PgClient.Proofs.Connection.Results
import PgClient.Proofs.Session.Collected

namespace PgClient

open ConnectionM Steps

/-- Between `past` and `events` a statement was bound and executed in one write: `before` is all
that happened up to that write, and `body` what came of it until the server was ready again. No
statement was bound after that. -/
inductive Executed (past events before body : List Event) : Prop
  | intro {rest : List Event} {closed : List String} {name : String}
    {formats results : List Format} {params : List (Option Bytes)} {status : TransactionStatus}
    (sent : events = before ++
      .wrote (closed.map (.close .statement) ++
        [.bind "" name formats params results, .execute "" 0, .sync]) ::
      (body ++ .received (.readyForQuery status) :: rest))
    (begun : past <+: before) (answering : Answering body) (unready : Unready body)
    (bindless : Bindless rest) : Executed past events before body

theorem Executed.of_prefix {past past' events before body : List Event}
    (h : Executed past events before body) (hpast : past' <+: past) :
    Executed past' events before body := by
  obtain ⟨sent, begun, answering, unready, bindless⟩ := h
  exact .intro sent (hpast.trans begun) answering unready bindless

/-- A write of a Bind after which none comes is the last one. -/
theorem split_at_bind {before before' after after' : List Event} {batch batch' : List Frontend}
    (hbatch : ¬ ∀ f ∈ batch, f.isBind = false) (hbatch' : ¬ ∀ f ∈ batch', f.isBind = false)
    (hafter : Bindless after) (hafter' : Bindless after')
    (h : before ++ .wrote batch :: after = before' ++ .wrote batch' :: after') :
    before = before' ∧ after = after' := by
  have later {events rest : List Event} {batch : List Frontend}
      (hevents : Bindless (events ++ .wrote batch :: rest)) : ∀ f ∈ batch, f.isBind = false :=
    fun f hf => hevents f (by simp [hf])
  induction before generalizing before' with
  | nil =>
    cases before' with
    | nil => exact ⟨rfl, (List.cons.inj h).2⟩
    | cons e' before' =>
      have hrest : after = before' ++ .wrote batch' :: after' := (List.cons.inj h).2
      exact absurd (later (hrest ▸ hafter)) hbatch'
  | cons e before ih =>
    cases before' with
    | nil =>
      have hrest : before ++ .wrote batch :: after = after' := (List.cons.inj h).2
      exact absurd (later (hrest ▸ hafter')) hbatch
    | cons e' before' =>
      obtain ⟨rfl, htails⟩ := List.cons.inj h
      obtain ⟨rfl, hrest⟩ := ih htails
      exact ⟨rfl, hrest⟩

/-- The cycle of the last execution is found in one way only. -/
theorem Executed.unique {past events before before' body body' : List Event}
    (h : Executed past events before body) (h' : Executed past events before' body') :
    before = before' ∧ body = body' := by
  obtain ⟨sent, -, answering, unready, bindless⟩ := h
  obtain ⟨sent', -, answering', unready', bindless'⟩ := h'
  have hbinds {closes tail : List Frontend} {name : String} {formats results : List Format}
      {params : List (Option Bytes)} :
      ¬ ∀ f ∈ closes ++ .bind "" name formats params results :: tail, f.isBind = false :=
    fun h => nomatch h _ (List.mem_append_right _ List.mem_cons_self)
  have hends {body rest : List Event} {status : TransactionStatus} (h : Answering body)
      (h' : Bindless rest) : Bindless (body ++ .received (.readyForQuery status) :: rest) :=
    (Bindless.of_answering h).append h'
  obtain ⟨rfl, htails⟩ := split_at_bind hbinds hbinds (hends answering bindless)
    (hends answering' bindless') (sent.symm.trans sent')
  exact ⟨rfl, (unready.append_inj unready' htails).1⟩

/-- A cycle with nothing in it but messages is the one that was executed. -/
theorem Executed.of_messages {past events : List Event} (before : List Event) (name : String)
    (results : List Format) (messages : List Backend) (status : TransactionStatus)
    (sent : events = before ++ .wrote [.bind "" name [] [] results, .execute "" 0, .sync] ::
      (messages.map .received ++ [.received (.readyForQuery status)]))
    (begun : past <+: before) (unready : ∀ m ∈ messages, m.isReady = false) :
    Executed past events before (messages.map .received) := by
  have hwritten : writtenIn (messages.map .received) = [] := by
    simp [writtenIn, List.flatMap_map, Event.written]
  have hreceived : receivedIn (messages.map .received) = messages := by
    simp [receivedIn, List.filterMap_map, Function.comp_def, Event.received?]
  have hsent : events = before ++ .wrote (([] : List String).map (.close .statement) ++
      [.bind "" name [] [] results, .execute "" 0, .sync]) ::
      (messages.map .received ++ .received (.readyForQuery status) :: []) := sent
  refine .intro hsent begun ?_ ?_ fun _ => nofun
  · rw [Answering, hwritten]
    exact fun _ => nofun
  · rw [Unready, hreceived]
    exact unready

/-! ## The verbs in force -/

namespace Connection

variable {c d : Connection}

theorem Moves.versed {binding : Bool} (h : Moves binding c d) (hc : c.session.Versed) :
    d.session.Versed := by
  induction h with
  | refl => exact hc
  | tail _ last ih =>
    cases last with
    | beside cache capacity sequence stale => exact ih
    | exchange sound syncs binds exchanged => exact ih.known exchanged.known

theorem Performs.versed {xs : List Execution} (h : Performs c xs d) (hc : c.session.Versed) :
    d.session.Versed := by
  refine h.invariant (I := fun c => c.session.Versed) ?_ ?_ hc
  · rintro c d ⟨autocommit, notifications⟩ hc
    exact hc
  · intro x husable hx
    exact (x.moves husable).versed hx

theorem versed_of_connect {stream : Stream} {config : Config} {options : ConnectOptions}
    (h : connect stream config options = (.ok (), c)) : c.session.Versed := by
  obtain ⟨events, s, rfl, -, hexchanged⟩ := opened_of_connect h
  have hfresh : (fresh stream config options).session.Versed := rfl
  exact hfresh.known hexchanged.known

/-- A connection that was opened and then used in any way is settled and versed. -/
theorem runs_of_connect {stream : Stream} {config : Config} {options : ConnectOptions}
    (h : connect stream config options = (.ok (), c)) (ops : List Operation) :
    (c.runs ops).session.Settled ∧ (c.runs ops).session.Versed := by
  have hperforms := runs_performs ops (settled_of_connect h)
  exact ⟨hperforms.settled (settled_of_connect h), hperforms.versed (versed_of_connect h)⟩

end Connection

/-! ## Executions -/

/-- What an execution that succeeds has collected in its cycle. -/
theorem Execution.collects {x : Execution} {statement : Statement} {outcome : Outcome}
    {copy' : CopyStreams} (husable : x.before.Usable) (hversed : x.before.session.Versed)
    (succeeded : (perform x.call x.copy x.before).1 = (.ok (statement, outcome), copy')) :
    ∃ before body, Executed x.before.session.events x.after.session.events before body ∧
      ∀ P, Collecting statement.columns (receivedIn before) x.copy P →
        P (receivedIn body) outcome copy' := by
  have hperformed := x.performed husable
  rw [succeeded] at hperformed
  generalize hout : (Except.ok (statement, outcome), copy') = out at hperformed
  generalize x.after = c at hperformed
  cases hperformed with
  | rejected rejected => cases hout
  | refused readied sent => cases hout
  | @executed encoders params statement d c₁ c₂ r r₁ r₂ receiver s t readied sent cycled
      released invalidated =>
    obtain ⟨hvalue, rfl⟩ := Prod.mk.inj hout
    obtain ⟨rfl, -, -, hvalue⟩ := inOrder_ok hvalue.symm
    obtain ⟨rfl, rfl⟩ := Prod.mk.inj hvalue
    obtain ⟨hsent, hstaged, hs, ht, cycle, hanswering, hadded⟩ :=
      readied.obtained.cycled husable.sound sent cycled
    obtain ⟨rest, hrest, hreleased⟩ := bindless_after ht released invalidated
    obtain ⟨body, status, outcome, copy₁, hcycle, hbody, rfl, -⟩ :=
      Session.cycle_rows hstaged hs cycled
    obtain rfl := List.append_cancel_left (hadded.symm.trans hcycle)
    obtain ⟨closed, hclosed⟩ := readied.obtained.closes husable.settled
    obtain ⟨added, -, hbefore⟩ := readied.obtained.bindless husable.settled husable.sound
    have hevents : c.session.events = d.session.events ++
        .wrote (closed.map (.close .statement) ++
          [.bind "" statement.name (statement.encoders.map (·.format)) params
            statement.resultFormats, .execute "" 0, .sync]) ::
        (body ++ .received (.readyForQuery status) :: rest) := by
      rw [hreleased, hcycle, hsent, executeBatch, hclosed, bindMessages]
      simp only [List.append_assoc, List.cons_append, List.nil_append]
    -- The write has told the client nothing new.
    have hverbs : s.countVerbs = verbsInForce (receivedIn d.session.events) :=
      (congrArg Session.countVerbs (Session.send_rest sent)).trans
        ((readied.obtained.moves husable.settled husable.sound).versed hversed)
    refine ⟨d.session.events, body,
      .intro hevents ⟨added, hbefore.symm⟩ hanswering.left hbody hrest, fun P hP => ?_⟩
    obtain ⟨outcome', copy', hreceiver, hbrought⟩ :=
      Session.cycle_collects hP hstaged hs hverbs cycled hcycle
    cases hreceiver
    exact hbrought

/-- A call that succeeds has collected what its statement's cycle brought. -/
theorem Connection.run_collects {c c' : Connection} {sql : String}
    {args : Placeholder.Arguments} {copy copy' : CopyStreams} {statement : Statement}
    {outcome : Outcome} (hs : c.session.Settled) (hversed : c.session.Versed)
    (h : Connection.run sql args copy c = ((.ok (statement, outcome), copy'), c')) :
    ∃ before body, Executed c.session.events c'.session.events before body ∧
      ∀ P, Collecting statement.columns (receivedIn before) copy P →
        P (receivedIn body) outcome copy' := by
  obtain ⟨xs, x, hperforms, -, husable, rfl, hperform⟩ := run_perform hs h
  obtain ⟨before, body, hexecuted, hcollects⟩ :=
    x.collects husable (hperforms.versed hversed) (congrArg Prod.fst hperform)
  rw [show x.after = c' from congrArg Prod.snd hperform] at hexecuted
  exact ⟨before, body, hexecuted.of_prefix hperforms.events, hcollects⟩

end PgClient
