/-
  PgClient.Proofs.Session.Handling

  What handling one message does. The session takes note of the message, the
  receiver goes on with it, an error of the message is held back, and the answer
  that the message calls for is sent in some writes; a write that is refused
  loses the rest of the answer and ends the cycle.
-/
import PgClient.Proofs.Session.Writes

namespace PgClient

open Steps

/-! ## Receivers -/

/-- How a handshake goes on with a request that it can answer: what it replies, if anything, and
the handshake after that. -/
inductive Handshake.Replies (h : Handshake) : AuthRequest → Option Frontend → Handshake → Prop
  | ok : h.Replies .ok none h
  | cleartext {secret : Bytes} (asked : h.source h.environment = .ok secret) :
    h.Replies .cleartext (some (.password secret)) h
  | md5 {secret : Bytes} {salt : UInt32} (asked : h.source h.environment = .ok secret) :
    h.Replies (.md5 salt) (some (.password (md5Response h.user secret salt))) h
  | sasl {secret : Bytes} {offered : List String} (asked : h.source h.environment = .ok secret)
    (offers : offered.contains Scram.mechanism = true) :
    h.Replies (.sasl offered)
      (some (.saslInitial Scram.mechanism
        (Scram.Client.ofRandom h.user secret h.random).clientFirst.1))
      { h with sasl := some (Scram.Client.ofRandom h.user secret h.random).clientFirst.2 }
  | saslContinue {client client' : Scram.Client} {data final : Bytes}
    (started : h.sasl = some client)
    (challenged : client.serverFirst h.primitives data = .ok (final, client')) :
    h.Replies (.saslContinue data) (some (.saslResponse final)) { h with sasl := some client' }
  | saslFinal {client client' : Scram.Client} {data : Bytes} (started : h.sasl = some client)
    (accepted : client.serverFinal data = .ok client') :
    h.Replies (.saslFinal data) none { h with sasl := none }

/-- What a copy is answered with: all data of its source and one message more, which says whether
the data is all there is. -/
def copyAnswer : Option CopySource → List Frontend
  | none => [.copyFail "no copy source supplied"]
  | some source =>
    source.chunks.map .copyData ++
      [match source.failure with
        | none => .copyDone
        | some reason => .copyFail ("copy source failed: " ++ reason)]

/-- The error of a copy that has no source, or one that fails. -/
def copyRefusal : Option CopySource → Option Error
  | none => some (.copy .noSource)
  | some source => source.failure.map fun reason => .copy (.source reason)

namespace Receiver

/-- The streams that a receiver has for copies. -/
def copy : Receiver → CopyStreams
  | .rows _ _ copy => copy
  | _ => {}

/-- The answer to a message that is no challenge. -/
def answer (r : Receiver) : Backend → List Frontend
  | .copyIn .. => copyAnswer r.copy.source
  | _ => []

/-- The error that is held back for a message that is no challenge. -/
def refusal (s : Session) (r : Receiver) (m : Backend) : Option Error :=
  match m, r with
  | .errorResponse fields, _ => some (.server ⟨fields⟩)
  | .emptyQuery, _ => some .emptyQuery
  | .dataRow values, .rows columns _ _ =>
    match CycleM.decodeRow s.context columns values with
    | .ok _ => none
    | .error e => some e
  | .copyData data, .rows _ _ { sink := some sink, .. } =>
    match sink.write data with
    | .ok _ => none
    | .error reason => some (.copy (.sink reason))
  | .copyIn .., r => copyRefusal r.copy.source
  | .copyOut .., r => if r.copy.sink.isSome then none else some (.copy .noSink)
  | _, _ => none

/-- The receiver after a message that is no challenge. -/
def next (s : Session) (r : Receiver) (m : Backend) : Receiver :=
  match m, r with
  | .rowDescription fields, .describe d => .describe { d with fields := some fields }
  | .noData, .describe d => .describe { d with fields := some [] }
  | .parameterDescription types, .describe d => .describe { d with paramTypes := types }
  | .dataRow values, .rows columns outcome copy =>
    match CycleM.decodeRow s.context columns values with
    | .ok row =>
      .rows columns
        { outcome with
          rows := outcome.rows ++ [row]
          rowsInCommand := outcome.rowsInCommand + 1 } copy
    | .error _ => .rows columns outcome copy
  | .commandComplete tag, .rows columns outcome copy =>
    .rows columns (CycleM.completed s.countVerbs tag outcome) copy
  | .copyData data, .rows columns outcome { source, sink := some sink } =>
    match sink.write data with
    | .ok sink => .rows columns outcome { source, sink := some sink }
    | .error _ => .rows columns outcome { source, sink := some sink }
  | .copyIn .., .rows columns outcome copy =>
    .rows columns outcome { copy with source := copy.source.map CopySource.exhausted }
  | _, r => r

/-- What a receiver makes of a message: the answer, the error that is held back, and the receiver
after it. A challenge is answered during the startup; nothing else is a challenge. -/
inductive Handles (s : Session) (r : Receiver) :
    Backend → List Frontend → Option Error → Receiver → Prop
  | challenge {h h' : Handshake} {request : AuthRequest} {reply : Option Frontend}
    (startup : r = .startup h) (replied : h.Replies request reply h') :
    Handles s r (.authentication request) reply.toList none (.startup h')
  | message {m : Backend} (unasked : ∀ request, m ≠ .authentication request) :
    Handles s r m (r.answer m) (r.refusal s m) (r.next s m)

/-- Whether it is the receiver of an execution. -/
def takesRows : Receiver → Bool
  | .rows .. => true
  | _ => false

/-- The messages for which a receiver holds an error back, whatever has come before. -/
def refuses (r : Receiver) : Backend → Bool
  | .errorResponse _ | .emptyQuery => true
  | .copyIn .. | .copyOut .. => !r.takesRows
  | _ => false

variable {s : Session} {m : Backend} {r r' : Receiver} {answer : List Frontend}
  {held : Option Error}

theorem takesRows_next : (r.next s m).takesRows = r.takesRows := by
  unfold next
  split <;> (try split) <;> rfl

theorem refuses_congr (h : r'.takesRows = r.takesRows) : r'.refuses m = r.refuses m := by
  unfold refuses
  rw [h]

theorem Handles.takesRows (h : r.Handles s m answer held r') : r'.takesRows = r.takesRows := by
  cases h with
  | challenge startup replied =>
    rw [startup]
    rfl
  | message unasked => exact takesRows_next

/-- A receiver that takes rows takes no challenge. -/
theorem Handles.of_rows (h : r.Handles s m answer held r') (hrows : r.takesRows = true) :
    answer = r.answer m ∧ held = r.refusal s m ∧ r' = r.next s m := by
  cases h with
  | challenge startup replied =>
    rw [startup] at hrows
    cases hrows
  | message unasked => exact ⟨rfl, rfl, rfl⟩

/-- A message that is refused leaves an error behind. -/
theorem Handles.refused (h : r.Handles s m answer held r') (hrefuses : r.refuses m = true) :
    held.isSome = true := by
  cases h with
  | challenge startup replied => cases hrefuses
  | message unasked =>
    cases m with
    | errorResponse | emptyQuery => rfl
    | copyIn | copyOut =>
      cases r with
      | rows => cases hrefuses
      | _ => rfl
    | _ => cases hrefuses

end Receiver

/-! ## One message -/

/-- What answering has made of a session: the answer was sent in some writes and the refusal is
held back, or a write was refused and the answer was sent in part, of which the refused write would
have been the next. -/
structure Session.Answered (answer : List Frontend) (refusal : Option Error)
    (r : Except Error Unit) (batches : List (List Frontend)) (torn : Option (List Frontend))
    (held : Option Error) (s s' : Session) : Prop extends s.Sent batches torn held s' where
  staged : s'.staged = []
  part : (batches ++ torn.toList).flatten <+: answer
  whole : r = .ok () →
    batches.flatten = answer ∧ torn = none ∧ held = refusal ∧ s'.broken = s.broken

namespace Session.Answered

variable {r : Except Error Unit} {s s' : Session}

/-- Nothing is sent, and no more than an error is held back. -/
theorem quiet (hs : s.staged = []) (e : Option Error) :
    s.Answered [] e r [] none e { s with deferred := s.deferred.or e } where
  toSent := (Sent.refl s).defer e
  staged := hs
  part := List.nil_prefix
  whole _ := ⟨rfl, rfl, rfl, rfl⟩

theorem unchanged (hs : s.staged = []) : s.Answered [] none r [] none none s where
  toSent := .refl s
  staged := hs
  part := List.nil_prefix
  whole _ := ⟨rfl, rfl, rfl, rfl⟩

/-- The end of an answer goes out with all of it that still waits. -/
theorem finish {answer : List Frontend} {batches : List (List Frontend)}
    {held : Option Error} {t : Session} (hsent : s.Sent batches none held t)
    (hwaits : t.staged ≠ []) (hbroken : t.broken = s.broken)
    (hall : batches.flatten ++ t.staged = answer) (h : t.send t.staged = (r, s')) :
    ∃ batches' torn, s.Answered answer held r batches' torn held s' := by
  have hflat : (batches ++ [t.staged]).flatten = answer := by
    rw [List.flatten_append, List.flatten_singleton, hall]
  obtain ⟨u, hu, hlast, hnone, hsame⟩ | ⟨e, u, hu, hlast, hnone, -⟩ := send_cases hwaits t
  · obtain ⟨rfl, rfl⟩ := Prod.mk.inj (hu.symm.trans h)
    refine ⟨batches ++ [t.staged], none, by simpa using hsent.trans hlast, hnone, ?_,
      fun _ => ⟨hflat, rfl, rfl, hsame.trans hbroken⟩⟩
    simp only [Option.toList_none, List.append_nil, hflat]
    exact List.prefix_rfl
  · obtain ⟨rfl, rfl⟩ := Prod.mk.inj (hu.symm.trans h)
    exact ⟨batches, some t.staged, by simpa using hsent.trans hlast, hnone,
      hflat ▸ List.prefix_rfl, (nomatch ·)⟩

/-- The answer is one message, sent in one write. -/
theorem send {f : Frontend} (h : s.send [f] = (r, s')) :
    ∃ batches torn, s.Answered [f] none r batches torn none s' :=
  finish ((Sent.refl s).stage [f]) (List.cons_ne_nil f []) rfl rfl h

end Session.Answered

/-! ## Authentication -/

namespace CycleM

/-- The secret is asked for before anything is sent. -/
theorem secret_run (h : Handshake) (c : Cycle) :
    (secret h).run c =
      ((h.source h.environment).mapError (fun f => Error.credentials f), c) := by
  unfold secret
  split <;> rename_i hsource <;> rw [hsource] <;> rfl

/-- A request that cannot be answered changes nothing of the session. Any other is answered in
one write, or without one. -/
theorem authenticate_cases {request : AuthRequest} {hs : Handshake} {c c' : Cycle}
    {r : Except Error Unit} (hstaged : c.session.staged = [])
    (hreceiver : c.receiver = .startup hs) (h : (authenticate request hs).run c = (r, c')) :
    (∃ e, r = .error e ∧ c'.session = c.session) ∨
      ∃ reply hs', hs.Replies request reply hs' ∧ (r = .ok () → c'.receiver = .startup hs') ∧
        match reply with
        | none => r = .ok () ∧ c'.session = c.session
        | some f => c.session.send [f] = (r, c'.session) := by
  have failed : ∀ {e : Error} {c₁ : Cycle}, (Except.error e, c₁) = (r, c') →
      c₁.session = c.session → ∃ e, r = .error e ∧ c'.session = c.session := by
    intro e c₁ he hsame
    obtain ⟨rfl, rfl⟩ := Prod.mk.inj he
    exact ⟨e, rfl, hsame⟩
  cases request with
  | ok =>
    obtain ⟨rfl, rfl⟩ := Prod.mk.inj h
    exact .inr ⟨none, hs, .ok, fun _ => hreceiver, rfl, rfl⟩
  | cleartext =>
    rw [authenticate, run_bind, secret_run] at h
    cases hsecret : hs.source hs.environment with
    | error f => rw [hsecret] at h; exact .inl (failed h rfl)
    | ok secret =>
      rw [hsecret] at h
      obtain ⟨hr, hc⟩ := Prod.mk.inj ((send_run _ hstaged).symm.trans h)
      refine .inr ⟨_, hs, .cleartext hsecret, fun _ => hc ▸ hreceiver, ?_⟩
      rw [← hr, ← hc]
  | md5 salt =>
    rw [authenticate, run_bind, secret_run] at h
    cases hsecret : hs.source hs.environment with
    | error f => rw [hsecret] at h; exact .inl (failed h rfl)
    | ok secret =>
      rw [hsecret] at h
      obtain ⟨hr, hc⟩ := Prod.mk.inj ((send_run _ hstaged).symm.trans h)
      refine .inr ⟨_, hs, .md5 hsecret, fun _ => hc ▸ hreceiver, ?_⟩
      rw [← hr, ← hc]
  | sasl offered =>
    rw [authenticate, run_bind, secret_run] at h
    cases hsecret : hs.source hs.environment with
    | error f => rw [hsecret] at h; exact .inl (failed h rfl)
    | ok secret =>
      -- The client starts only after its first message was sent.
      rw [hsecret] at h
      cases offers : offered.contains Scram.mechanism with
      | false =>
        simp only [mapError_ok, offers, Bool.false_eq_true, if_false, run_bind, run_throw] at h
        exact .inl (failed h rfl)
      | true =>
        simp only [mapError_ok, offers, if_true, run_bind, send_run _ hstaged] at h
        refine .inr ⟨_, _, .sasl hsecret offers, ?_⟩
        rcases hsend : c.session.send _ with ⟨_ | u, t⟩ <;> rw [hsend] at h <;>
          obtain ⟨rfl, rfl⟩ := Prod.mk.inj h
        · exact ⟨fun hr => (by cases hr), hsend⟩
        · exact ⟨fun _ => rfl, hsend⟩
  | saslContinue data =>
    rw [authenticate] at h
    cases started : hs.sasl with
    | none => rw [started] at h; exact .inl (failed h rfl)
    | some client =>
      rw [started] at h
      cases challenged : client.serverFirst hs.primitives data with
      | error f => simp only [challenged] at h; exact .inl (failed h rfl)
      | ok answer =>
        obtain ⟨final, client'⟩ := answer
        -- Here the client goes on before the answer is sent.
        simp only [challenged, run_bind, setReceiver_run] at h
        obtain ⟨hr, hc⟩ := Prod.mk.inj ((send_run _ (by exact hstaged)).symm.trans h)
        refine .inr ⟨_, _, .saslContinue started challenged, fun _ => hc ▸ rfl, ?_⟩
        rw [← hr, ← hc]
  | saslFinal data =>
    rw [authenticate] at h
    cases started : hs.sasl with
    | none => rw [started] at h; exact .inl (failed h rfl)
    | some client =>
      rw [started] at h
      cases accepted : client.serverFinal data with
      | error f =>
        -- The client is gone, but nothing was sent.
        simp only [accepted, run_bind, setReceiver_run, run_throw] at h
        exact .inl (failed h rfl)
      | ok client' =>
        simp only [accepted, run_bind, setReceiver_run, run_pure] at h
        obtain ⟨rfl, rfl⟩ := Prod.mk.inj h
        exact .inr ⟨none, _, .saslFinal started accepted, fun _ => rfl, rfl, rfl⟩
  | unsupported code => exact .inl (failed h rfl)

/-! ## Copies -/

/-- A copy is answered with all of its data and its end. -/
theorem copyIn_answered {source : Option CopySource} {c c' : Cycle} {r : Except Error Unit}
    (hs : c.session.staged = []) (h : (copyIn source).run c = (r, c')) :
    c'.receiver = c.receiver ∧ ∃ batches torn held,
      c.session.Answered (copyAnswer source) (copyRefusal source) r batches torn held
        c'.session := by
  cases source with
  | none =>
    rw [copyIn, run_bind, send_run _ hs] at h
    obtain ⟨t, ht, hsent, hnone, hsame⟩ | ⟨e, t, ht, hsent, hnone, -⟩ := Session.send_cases
      (List.cons_ne_nil (Frontend.copyFail "no copy source supplied") []) c.session
    · rw [ht] at h
      obtain ⟨rfl, rfl⟩ := Prod.mk.inj h
      exact ⟨rfl, [_], none, _, hsent.defer _, hnone, List.prefix_rfl,
        fun _ => ⟨rfl, rfl, rfl, hsame⟩⟩
    · rw [ht] at h
      obtain ⟨rfl, rfl⟩ := Prod.mk.inj h
      exact ⟨rfl, [], some _, none, hsent, hnone, List.prefix_rfl, (nomatch ·)⟩
  | some source =>
    obtain ⟨e, hchunks, rfl⟩ | ⟨⟨⟩, d, hchunks, h⟩ := bind_cases h
    -- A chunk could not be sent: what went out is a part of the data.
    · obtain ⟨hreceiver, batches, torn, hsent, hcase⟩ := sendChunks_cases hchunks
      obtain ⟨hr, -⟩ | ⟨-, hnone, hpre⟩ := hcase
      · cases hr
      rw [hs, List.nil_append] at hpre
      exact ⟨hreceiver, batches, torn, none, hsent, hnone,
        hpre.trans (List.prefix_append _ _), (nomatch ·)⟩
    -- All chunks were sent or still wait; the end goes out with those that wait.
    · obtain ⟨hreceiver, batches, torn, hsent, hcase⟩ := sendChunks_cases hchunks
      obtain ⟨-, rfl, hbroken, hall⟩ := hcase.resolve_right fun ⟨⟨_, hr⟩, _⟩ => nomatch hr
      rw [hs, List.nil_append] at hall
      have hends (f : Frontend) : batches.flatten ++ (d.session.staged ++ [f]) =
          source.chunks.map Frontend.copyData ++ [f] := by
        rw [← List.append_assoc, hall]
      have hwaits (f : Frontend) : d.session.staged ++ [f] ≠ [] :=
        List.append_ne_nil_of_right_ne_nil _ (List.cons_ne_nil _ [])
      rw [copyAnswer, copyRefusal]
      cases hfailure : source.failure with
      | none =>
        simp only [hfailure, run_bind, onSession_run, SessionM.stage_run, SessionM.flush_run,
          hwaits, if_false] at h
        obtain ⟨hr, rfl⟩ := Prod.mk.inj h
        obtain ⟨batches', torn, hanswer⟩ := Session.Answered.finish
          (hsent.stage (d.session.staged ++ [Frontend.copyDone])) (hwaits _) hbroken (hends _)
          (Prod.ext hr rfl)
        exact ⟨hreceiver, batches', torn, _, hanswer⟩
      | some reason =>
        simp only [hfailure, run_bind, onSession_run, SessionM.stage_run, SessionM.flush_run,
          defer_run, hwaits, if_false] at h
        obtain ⟨hr, rfl⟩ := Prod.mk.inj h
        obtain ⟨batches', torn, hanswer⟩ := Session.Answered.finish
          ((hsent.stage (d.session.staged ++ [Frontend.copyFail _])).defer
            (some (.copy (.source reason)))) (hwaits _) hbroken (hends _) (Prod.ext hr rfl)
        exact ⟨hreceiver, batches', torn, _, hanswer⟩

end CycleM

/-! ## Handling -/

/-- What handling a message has made of a cycle: the session has taken note of it and answered
it, and the receiver has gone on. A challenge that cannot be met changes nothing. -/
inductive Cycle.Handled (m : Backend) (r : Except Error Unit) (c c' : Cycle) : Prop
  | met {answer : List Frontend} {refusal held : Option Error} {next : Receiver}
    {batches : List (List Frontend)} {torn : Option (List Frontend)}
    (handles : c.receiver.Handles c.session m answer refusal next)
    (answered : (c.session.noted m).Answered answer refusal r batches torn held c'.session)
    (next : r = .ok () → c'.receiver = next) : Cycle.Handled m r c c'
  | failed {e : Error} {request : AuthRequest} (asked : m = .authentication request)
    (failed : r = .error e) (unchanged : c'.session = c.session) : Cycle.Handled m r c c'

namespace CycleM

/-- A message that is no challenge and asks for no data is noted, its error is held back, and the
receiver goes on with it. Nothing is sent. -/
theorem handle_quiet {m : Backend} (unasked : ∀ request, m ≠ .authentication request)
    (uncopied : ∀ format columns, m ≠ .copyIn format columns) (c : Cycle) :
    (handle m).run c =
      (.ok (), ⟨{ c.session.noted m with
          deferred := (c.session.noted m).deferred.or (c.receiver.refusal c.session m) },
        c.receiver.next c.session m⟩) := by
  have unrefused (h : c.receiver.refusal c.session m = none) :
      { c.session.noted m with
        deferred := (c.session.noted m).deferred.or (c.receiver.refusal c.session m) } =
      c.session.noted m := by
    rw [h, Option.or_none]
  obtain ⟨s, receiver⟩ := c
  cases m with
  | authentication request => exact absurd rfl (unasked request)
  | copyIn format columns => exact absurd rfl (uncopied format columns)
  -- Errors of the server do not end the cycle.
  | errorResponse | emptyQuery => rfl
  | commandComplete tag =>
    rw [unrefused rfl]
    by_cases stale : CommandTag.invalidates tag = true
    · simp only [handle, commandComplete, Session.noted, stale, if_true, run_bind, run_get,
        modifySession_run]
      cases receiver <;> rfl
    · simp only [handle, commandComplete, Session.noted, stale, if_false, run_bind, run_get,
        Bool.false_eq_true]
      cases receiver <;> rfl
  | dataRow values =>
    cases receiver with
    | rows columns outcome copy =>
      cases decoded : decodeRow s.context columns values with
      | ok row =>
        rw [unrefused (by simp only [Receiver.refusal, decoded])]
        simp only [handle, dataRow, run_bind, run_get, decoded, setReceiver_run, Receiver.next]
        rfl
      | error e =>
        simp only [handle, dataRow, run_bind, run_get, decoded, defer_run, Receiver.next,
          Receiver.refusal]
        rfl
    | _ => rw [unrefused rfl]; rfl
  | copyData data =>
    cases receiver with
    | rows columns outcome copy =>
      obtain ⟨source, _ | sink⟩ := copy
      · rw [unrefused rfl]
        rfl
      · cases written : sink.write data with
        | ok sink' =>
          rw [unrefused (by simp only [Receiver.refusal, written])]
          simp only [handle, copyData, run_bind, run_get, written, setReceiver_run, Receiver.next]
          rfl
        | error reason =>
          simp only [handle, copyData, run_bind, run_get, written, defer_run, Receiver.next,
            Receiver.refusal]
          rfl
    | _ => rw [unrefused rfl]; rfl
  | copyOut format columns =>
    cases receiver with
    | rows columns' outcome copy =>
      obtain ⟨source, _ | sink⟩ := copy
      · rfl
      · rw [unrefused rfl]
        rfl
    | _ => rfl
  -- Only the receiver of a description looks at these.
  | rowDescription | noData | parameterDescription =>
    rw [unrefused rfl]
    cases receiver <;> rfl
  | _ =>
    rw [unrefused rfl]
    rfl

/-- A challenge is met, in one write or without one, or it cannot be. -/
theorem handle_authentication {request : AuthRequest} {c c' : Cycle} {r : Except Error Unit}
    (hs : c.session.staged = []) (h : (handle (.authentication request)).run c = (r, c')) :
    Cycle.Handled (.authentication request) r c c' := by
  simp only [handle, run_bind, run_get] at h
  cases hreceiver : c.receiver with
  | startup handshake =>
    rw [hreceiver] at h
    obtain ⟨e, hr, hc⟩ | ⟨reply, next, hreplies, hnext, hsend⟩ :=
      authenticate_cases hs hreceiver h
    · exact .failed rfl hr hc
    have handles : c.receiver.Handles c.session (.authentication request) reply.toList none
        (.startup next) := .challenge hreceiver hreplies
    cases reply with
    | none =>
      have hanswer : (c.session.noted (.authentication request)).Answered [] none r [] none none
          c'.session := by
        rw [hsend.2]
        exact .unchanged hs
      exact .met handles hanswer hnext
    | some f =>
      obtain ⟨batches, torn, hanswer⟩ := Session.Answered.send hsend
      exact .met handles hanswer hnext
  -- Past the startup a challenge is a violation.
  | _ =>
    rw [hreceiver] at h
    obtain ⟨rfl, rfl⟩ := Prod.mk.inj h
    exact .failed rfl rfl rfl

/-- A copy that the server asks for is answered from the source of the receiver. -/
theorem handle_copyIn {format : Format} {columns : List Format} {c c' : Cycle}
    {r : Except Error Unit} (hs : c.session.staged = [])
    (h : (handle (.copyIn format columns)).run c = (r, c')) :
    Cycle.Handled (.copyIn format columns) r c c' := by
  have handles := Receiver.Handles.message (s := c.session) (r := c.receiver)
    (m := .copyIn format columns) fun _ => nofun
  obtain ⟨s, receiver⟩ := c
  simp only [handle, run_bind, run_get] at h
  cases receiver with
  | rows columns' outcome copy =>
    simp only [run_bind, setReceiver_run] at h
    obtain ⟨hsame, batches, torn, held, hanswer⟩ := copyIn_answered (by exact hs) h
    exact .met handles hanswer fun _ => hsame
  | _ =>
    obtain ⟨hsame, batches, torn, held, hanswer⟩ := copyIn_answered (by exact hs) h
    exact .met handles hanswer fun _ => hsame

/-- Every message is handled so. -/
theorem handle_cases {m : Backend} {c c' : Cycle} {r : Except Error Unit}
    (hs : c.session.staged = []) (h : (handle m).run c = (r, c')) : Cycle.Handled m r c c' := by
  have quiet (unasked : ∀ request, m ≠ .authentication request)
      (uncopied : ∀ format columns, m ≠ .copyIn format columns) : Cycle.Handled m r c c' := by
    have handles := Receiver.Handles.message (s := c.session) (r := c.receiver) unasked
    have hanswer : c.receiver.answer m = [] := by
      cases m with
      | copyIn format columns => exact absurd rfl (uncopied format columns)
      | _ => rfl
    rw [handle_quiet unasked uncopied] at h
    obtain ⟨rfl, rfl⟩ := Prod.mk.inj h
    rw [hanswer] at handles
    exact .met handles (.quiet ((Session.staged_noted _ _).trans hs) _) fun _ => rfl
  cases m with
  | authentication request => exact handle_authentication hs h
  | copyIn format columns => exact handle_copyIn hs h
  | _ => exact quiet nofun nofun

end CycleM

end PgClient
