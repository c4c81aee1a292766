/-
  PgClient.Proofs.Session.Outcome

  How a cycle comes out. Its messages are read and handled one after the other,
  and each may leave an error behind. A cycle that gets to a ReadyForQuery gives
  the first of these errors. A cycle that is cut off breaks the session and gives
  the error that cut it off, unless that is only the end of the stream or a
  failure of it, which the first error left behind explains.
-/
import Mathlib.Data.List.Forall2
import PgClient.Proofs.Session.Cycle

namespace PgClient

open Steps

/-! ## What sending leaves alone -/

/-- What is still to be read, the error that is held back and, after a success, the soundness of
a session are as they were. -/
structure Session.Untouched (ok : Bool) (s s' : Session) : Prop where
  incoming : s'.stream.incoming = s.stream.incoming
  deferred : s'.deferred = s.deferred
  broken : ok = true → s'.broken = s.broken

/-- A write leaves them alone. -/
theorem Session.untouched_send {batch : List Frontend} (hbatch : batch ≠ []) (s : Session) :
    s.Untouched (s.send batch).1.isOk (s.send batch).2 := by
  obtain ⟨t, ht, hsent, -, hsame⟩ | ⟨f, t, ht, hsent, -, -⟩ := send_cases hbatch s
  · rw [ht]
    exact ⟨hsent.incoming, hsent.deferred.trans Option.or_none, fun _ => hsame⟩
  · rw [ht]
    exact ⟨hsent.incoming, hsent.deferred.trans Option.or_none, nofun⟩

namespace CycleM

/-- Steps that do nothing beside the receiver but send. -/
def OnlySends {α : Type} (x : CycleM α) : Prop :=
  ∀ c : Cycle, c.session.Untouched (x.run c).1.isOk (x.run c).2.session

namespace OnlySends

variable {α β : Type}

theorem pure (a : α) : OnlySends (Pure.pure a : CycleM α) := fun _ => ⟨rfl, rfl, fun _ => rfl⟩

theorem throw (e : Error) : OnlySends (MonadExcept.throw e : CycleM α) := fun _ =>
  ⟨rfl, rfl, nofun⟩

theorem setReceiver (r : Receiver) : OnlySends (CycleM.setReceiver r) := fun _ =>
  ⟨rfl, rfl, fun _ => rfl⟩

theorem bind {x : CycleM α} {f : α → CycleM β} (hx : OnlySends x) (hf : ∀ a, OnlySends (f a)) :
    OnlySends (x >>= f) := by
  intro c
  have hfirst := hx c
  rw [run_bind]
  rcases hrun : x.run c with ⟨e | a, t⟩ <;> rw [hrun] at hfirst
  · exact ⟨hfirst.incoming, hfirst.deferred, nofun⟩
  · have hrest := hf a t
    exact ⟨hrest.incoming.trans hfirst.incoming, hrest.deferred.trans hfirst.deferred,
      fun hok => (hrest.broken hok).trans (hfirst.broken rfl)⟩

/-- Whatever is staged already goes out with the message. -/
theorem send (m : Frontend) : OnlySends (CycleM.send m) := by
  intro c
  have hwaits : c.session.staged ++ [m] ≠ [] :=
    List.append_ne_nil_of_right_ne_nil _ (List.cons_ne_nil m [])
  simp only [CycleM.send, onSession_run, run_bind, SessionM.stage_run, SessionM.flush_run, hwaits,
    if_false]
  exact Session.untouched_send hwaits c.session

theorem secret (h : Handshake) : OnlySends (CycleM.secret h) := by
  intro c
  rw [secret_run]
  exact ⟨rfl, rfl, fun _ => rfl⟩

/-- An answer to a challenge, or its refusal. -/
theorem authenticate (request : AuthRequest) (h : Handshake) :
    OnlySends (CycleM.authenticate request h) := by
  unfold CycleM.authenticate
  cases request with
  | ok => exact pure _
  | cleartext => exact (secret h).bind fun _ => send _
  | md5 salt => exact (secret h).bind fun _ => send _
  | sasl offered =>
    refine (secret h).bind fun bs => ?_
    dsimp only
    split
    · exact (send _).bind fun _ => setReceiver _
    · exact (throw _).bind fun _ => (send _).bind fun _ => setReceiver _
  | saslContinue data =>
    dsimp only
    split
    · exact throw _
    · split
      · exact throw _
      · exact (setReceiver _).bind fun _ => send _
  | saslFinal data =>
    dsimp only
    split
    · exact throw _
    · refine (setReceiver _).bind fun _ => ?_
      split
      · exact throw _
      · exact pure _
  | unsupported code => exact throw _

/-- The data of a copy. -/
theorem sendChunks (chunks : List Bytes) : OnlySends (CycleM.sendChunks chunks) := by
  intro c
  rcases h : (CycleM.sendChunks chunks).run c with ⟨r, c'⟩
  obtain ⟨-, batches, torn, hsent, hcase⟩ := sendChunks_cases h
  refine ⟨hsent.incoming, hsent.deferred.trans Option.or_none, fun hok => ?_⟩
  obtain ⟨-, -, hbroken, -⟩ | ⟨⟨e, rfl⟩, -⟩ := hcase
  · exact hbroken
  · cases hok

end OnlySends

/-! ## Handling one message -/

/-- Whether the data of a copy gets through does not depend on the receiver. -/
theorem sendChunks_receiver (chunks : List Bytes) (s : Session) (r r' : Receiver) :
    ((sendChunks chunks).run ⟨s, r⟩).1 = ((sendChunks chunks).run ⟨s, r'⟩).1 := by
  induction chunks generalizing s with
  | nil => rfl
  | cons chunk chunks ih =>
    simp only [sendChunks, run_bind (α := PUnit), stageChunk_run]
    generalize (if copyFlushSize ≤ _ then _ else _ : Except Error Unit × Session) = sent
    rcases sent with ⟨e | u, t⟩
    · rfl
    · exact ih t

end CycleM

namespace Session

/-- The error that is held back for a copy by the time that answering it fails. A source that
gives out is reported when all of its data has got through, before the end of the copy is sent. -/
def copyHeld (s : Session) : Option CopySource → Option Error
  | none => none
  | some source =>
    match ((CycleM.sendChunks source.chunks).run ⟨s, .discard⟩).1 with
    | .ok () => copyRefusal (some source)
    | .error _ => none

/-- The error that is held back for a message by the time that handling it fails. -/
def heldBefore (s : Session) (r : Receiver) : Backend → Option Error
  | .copyIn .. => s.copyHeld r.copy.source
  | _ => none

end Session

namespace CycleM

/-- The answer to a copy holds its own error back and no other. -/
theorem copyIn_held {source : Option CopySource} {c c' : Cycle} {r : Except Error Unit}
    (h : (copyIn source).run c = (r, c')) :
    c'.session.stream.incoming = c.session.stream.incoming ∧
      (r = .ok () → c'.session.broken = c.session.broken ∧
        c'.session.deferred = c.session.deferred.or (copyRefusal source)) ∧
      ∀ e, r = .error e →
        c'.session.deferred = c.session.deferred.or (c.session.copyHeld source) := by
  cases source with
  | none =>
    have hsend := OnlySends.send (.copyFail "no copy source supplied") c
    obtain ⟨e, hrun, rfl⟩ | ⟨⟨⟩, d, hrun, h⟩ := bind_cases h <;> rw [hrun] at hsend
    · refine ⟨hsend.incoming, nofun, fun e _ => ?_⟩
      rw [hsend.deferred, Session.copyHeld, Option.or_none]
    · rw [defer_run] at h
      obtain ⟨rfl, rfl⟩ := Prod.mk.inj h
      refine ⟨hsend.incoming, fun _ => ⟨hsend.broken rfl, ?_⟩, nofun⟩
      rw [← hsend.deferred]
      rfl
  | some source =>
    have hchunks := OnlySends.sendChunks source.chunks c
    obtain ⟨s, receiver⟩ := c
    rw [Session.copyHeld, sendChunks_receiver source.chunks s .discard receiver]
    obtain ⟨e, hrun, rfl⟩ | ⟨⟨⟩, d, hrun, h⟩ := bind_cases h <;> rw [hrun] at hchunks ⊢
    -- A part of the data did not get through, and the source is not to blame.
    · refine ⟨hchunks.incoming, nofun, fun e _ => ?_⟩
      rw [hchunks.deferred]
      exact Option.or_none.symm
    · have hwaits (f : Frontend) : d.session.staged ++ [f] ≠ [] :=
        List.append_ne_nil_of_right_ne_nil _ (List.cons_ne_nil f [])
      -- The end goes out from a session that has all of the source's errors already.
      have finish (t : Session) {f : Frontend} {e : Option Error}
          (hincoming : t.stream.incoming = d.session.stream.incoming)
          (hbroken : t.broken = d.session.broken) (hheld : t.deferred = d.session.deferred.or e)
          (h : ((t.send (d.session.staged ++ [f])).1,
            (⟨(t.send (d.session.staged ++ [f])).2, d.receiver⟩ : Cycle)) = (r, c')) :
          c'.session.stream.incoming = s.stream.incoming ∧
            (r = .ok () → c'.session.broken = s.broken ∧ c'.session.deferred = s.deferred.or e) ∧
            ∀ e', r = .error e' → c'.session.deferred = s.deferred.or e := by
        obtain ⟨rfl, rfl⟩ := Prod.mk.inj h
        have hlast := Session.untouched_send (hwaits f) t
        have hdeferred := hlast.deferred.trans hheld
        rw [hchunks.deferred] at hdeferred
        refine ⟨(hlast.incoming.trans hincoming).trans hchunks.incoming, fun hr => ⟨?_, hdeferred⟩,
          fun _ _ => hdeferred⟩
        exact ((hlast.broken (by rw [hr]; rfl)).trans hbroken).trans (hchunks.broken rfl)
      dsimp only
      rw [copyRefusal]
      cases hfailure : source.failure with
      | none =>
        simp only [hfailure, run_bind, onSession_run, SessionM.stage_run, SessionM.flush_run,
          hwaits, if_false] at h
        exact finish _ rfl rfl Option.or_none.symm h
      | some reason =>
        simp only [hfailure, run_bind, onSession_run, SessionM.stage_run, SessionM.flush_run,
          hwaits, defer_run, if_false] at h
        exact finish { d.session with
          staged := d.session.staged ++ [.copyFail ("copy source failed: " ++ reason)]
          deferred := d.session.deferred.or (some (.copy (.source reason))) } rfl rfl rfl h

/-- A message that is handled reads nothing, leaves the session sound, and leaves its own error
behind. -/
theorem handle_ok {m : Backend} {c c' : Cycle} (h : (handle m).run c = (.ok (), c')) :
    c'.session.stream.incoming = c.session.stream.incoming ∧
      c'.session.broken = c.session.broken ∧
      c'.session.deferred = c.session.deferred.or (c.receiver.refusal c.session m) := by
  have quiet (unasked : ∀ request, m ≠ .authentication request)
      (uncopied : ∀ format columns, m ≠ .copyIn format columns) :
      c'.session.stream.incoming = c.session.stream.incoming ∧
        c'.session.broken = c.session.broken ∧
        c'.session.deferred = c.session.deferred.or (c.receiver.refusal c.session m) := by
    rw [handle_quiet unasked uncopied] at h
    obtain ⟨-, rfl⟩ := Prod.mk.inj h
    refine ⟨congrArg _ (Session.stream_noted _ _), Session.broken_noted _ _, ?_⟩
    show (c.session.noted m).deferred.or _ = _
    rw [Session.deferred_noted]
  cases m with
  | authentication request =>
    simp only [handle, run_bind, run_get] at h
    cases hreceiver : c.receiver with
    | startup handshake =>
      rw [hreceiver] at h
      have hsame := OnlySends.authenticate request handshake c
      rw [h] at hsame
      exact ⟨hsame.incoming, hsame.broken rfl, hsame.deferred.trans Option.or_none.symm⟩
    | _ =>
      rw [hreceiver] at h
      cases (Prod.mk.inj h).1
  | copyIn format columns =>
    simp only [handle, run_bind, run_get] at h
    obtain ⟨s, receiver⟩ := c
    cases receiver with
    | rows columns' outcome copy =>
      obtain ⟨hincoming, hok, -⟩ := copyIn_held h
      exact ⟨hincoming, hok rfl⟩
    | _ =>
      obtain ⟨hincoming, hok, -⟩ := copyIn_held h
      exact ⟨hincoming, hok rfl⟩
  | _ => exact quiet (by simp) (by simp)

/-- A message that cannot be handled leaves no error behind but the one of a source. -/
theorem handle_error {m : Backend} {c c' : Cycle} {e : Error}
    (h : (handle m).run c = (.error e, c')) :
    c'.session.deferred = c.session.deferred.or (c.session.heldBefore c.receiver m) := by
  have loud (unasked : ∀ request, m ≠ .authentication request)
      (uncopied : ∀ format columns, m ≠ .copyIn format columns) : False := by
    rw [handle_quiet unasked uncopied] at h
    cases (Prod.mk.inj h).1
  cases m with
  | authentication request =>
    simp only [handle, run_bind, run_get] at h
    cases hreceiver : c.receiver with
    | startup handshake =>
      rw [hreceiver] at h
      have hsame := OnlySends.authenticate request handshake c
      rw [h] at hsame
      exact hsame.deferred.trans Option.or_none.symm
    | _ =>
      rw [hreceiver] at h
      obtain ⟨-, rfl⟩ := Prod.mk.inj h
      exact Option.or_none.symm
  | copyIn format columns =>
    simp only [handle, run_bind, run_get] at h
    obtain ⟨s, receiver⟩ := c
    cases receiver with
    | rows columns' outcome copy => exact (copyIn_held h).2.2 e rfl
    | _ => exact (copyIn_held h).2.2 e rfl
  | _ => exact (loud (by simp) (by simp)).elim

end CycleM

/-! ## Runs of messages -/

namespace Cycle

/-- Some messages are read and handled one after the other. Those that leave an error behind
leave `errors`, in order. -/
inductive Passes : Cycle → List Backend → List Error → Cycle → Prop
  | nil (c : Cycle) : Passes c [] [] c
  | cons {c c₁ c₂ : Cycle} {m : Backend} {s : Session} {messages : List Backend}
    {errors : List Error} (read : SessionM.receive.run c.session = (.ok m, s))
    (handled : (CycleM.handle m).run ⟨s, c.receiver⟩ = (.ok (), c₁))
    (rest : Passes c₁ messages errors c₂) :
    Passes c (m :: messages) ((c.receiver.refusal s m).toList ++ errors) c₂

/-- The next message cannot be read, or it is read and cannot be handled. That gives an error,
before which another one may have been held back. -/
inductive Aborts (c : Cycle) : Option Error → Error → Prop
  | unread {e : Error} {s : Session} (failed : SessionM.receive.run c.session = (.error e, s)) :
    Aborts c none e
  | unhandled {m : Backend} {s : Session} {e : Error} {c' : Cycle}
    (read : SessionM.receive.run c.session = (.ok m, s))
    (failed : (CycleM.handle m).run ⟨s, c.receiver⟩ = (.error e, c')) :
    Aborts c (s.heldBefore c.receiver m) e

namespace Passes

variable {c c' : Cycle} {messages : List Backend} {errors : List Error}

/-- What is held back in the end is the first error of all. -/
theorem deferred (h : Passes c messages errors c') :
    c'.session.deferred = c.session.deferred.or errors.head? := by
  induction h with
  | nil c => exact Option.or_none.symm
  | @cons c c₁ c₂ m s messages errors read handled rest ih =>
    obtain ⟨m', frame, incoming, hm, -, -, rfl⟩ | ⟨e, -, hr, -⟩ := SessionM.receive_cases read
    · rw [ih, (CycleM.handle_ok handled).2.2, Option.or_assoc]
      cases c.receiver.refusal (c.session.heard m' incoming) m <;> rfl
    · cases hr

theorem broken (h : Passes c messages errors c') : c'.session.broken = c.session.broken := by
  induction h with
  | nil c => rfl
  | cons read handled rest ih =>
    obtain ⟨m', frame, incoming, hm, -, -, rfl⟩ | ⟨e, -, hr, -⟩ := SessionM.receive_cases read
    · exact ih.trans (CycleM.handle_ok handled).2.1
    · cases hr

/-- The frames of the messages are taken from the stream, and no byte more. -/
theorem frames (h : Passes c messages errors c') :
    ∃ frames, List.Forall₂ IsFrame frames messages ∧
      c.session.stream.incoming.unread =
        frames.flatten ++ c'.session.stream.incoming.unread := by
  induction h with
  | nil c => exact ⟨[], .nil, rfl⟩
  | cons read handled rest ih =>
    obtain ⟨m', frame, incoming, hm, hframe, hunread, rfl⟩ | ⟨e, -, hr, -⟩ :=
      SessionM.receive_cases read
    · obtain ⟨frames, hframes, hrest⟩ := ih
      obtain rfl := Except.ok.inj hm
      refine ⟨frame :: frames, .cons hframe hframes, ?_⟩
      rw [hunread, List.flatten_cons, List.append_assoc, ← hrest,
        (CycleM.handle_ok handled).1]
      rfl
    · cases hr

end Passes

end Cycle

/-- A message takes bytes from the stream. -/
theorem IsFrame.length_pos {frame : Bytes} {m : Backend} (h : IsFrame frame m) :
    0 < frame.length := by
  obtain ⟨tag, body, version, rfl, -, -⟩ := h
  exact Nat.succ_pos _

/-- After a message that was read and handled less is left to be read. -/
theorem Cycle.unread_lt {c c₁ : Cycle} {m : Backend} {s : Session}
    (read : SessionM.receive.run c.session = (.ok m, s))
    (handled : (CycleM.handle m).run ⟨s, c.receiver⟩ = (.ok (), c₁)) :
    c₁.session.stream.incoming.unread.length < c.session.stream.incoming.unread.length := by
  obtain ⟨m', frame, incoming, hm, hframe, hunread, rfl⟩ | ⟨e, -, hr, -⟩ :=
    SessionM.receive_cases read
  · have hpos := hframe.length_pos
    rw [(CycleM.handle_ok handled).1, hunread, List.length_append]
    show incoming.unread.length < _
    omega
  · cases hr

namespace CycleM

/-- One message more of a cycle that goes on. -/
theorem untilReady_next {bound : Nat} {c c₁ : Cycle} {m : Backend} {s : Session}
    (hready : m.isReady = false) (read : SessionM.receive.run c.session = (.ok m, s))
    (handled : (handle m).run ⟨s, c.receiver⟩ = (.ok (), c₁)) :
    (untilReady (bound + 1)).run c = (untilReady bound).run c₁ := by
  rw [untilReady, run_bind, onSession_run, read]
  dsimp only
  rw [run_bind, handled]
  cases m <;> first | rfl | cases hready

/-- Messages that pass take the cycle with them, and the bound on their number is not met. -/
theorem untilReady_passes {bound : Nat} {c c' : Cycle} {messages : List Backend}
    {errors : List Error} (h : Cycle.Passes c messages errors c')
    (hready : ∀ m ∈ messages, m.isReady = false)
    (hbound : c.session.stream.incoming.unread.length < bound) :
    ∃ bound', c'.session.stream.incoming.unread.length < bound' ∧
      (untilReady bound).run c = (untilReady bound').run c' := by
  induction h generalizing bound with
  | nil c => exact ⟨bound, hbound, rfl⟩
  | cons read handled rest ih =>
    obtain _ | bound := bound
    · cases hbound
    have hless := Cycle.unread_lt read handled
    obtain ⟨bound', hbound', hrun⟩ := ih (fun m hm => hready m (List.mem_cons_of_mem _ hm))
      (Nat.lt_of_lt_of_le hless (Nat.lt_succ_iff.1 hbound))
    exact ⟨bound', hbound',
      (untilReady_next (hready _ List.mem_cons_self) read handled).trans hrun⟩

/-- The first ReadyForQuery ends the cycle, with all that was held back still held. -/
theorem untilReady_ready {bound : Nat} {c : Cycle} {status : TransactionStatus} {s : Session}
    (read : SessionM.receive.run c.session = (.ok (.readyForQuery status), s)) :
    (untilReady (bound + 1)).run c = (.ok (), ⟨{ s with status }, c.receiver⟩) := by
  rw [untilReady, run_bind, onSession_run, read]
  rfl

/-- A message that is not read or not handled ends the cycle at once. -/
theorem untilReady_aborts (bound : Nat) {c : Cycle} {held : Option Error} {e : Error}
    (h : c.Aborts held e) :
    ∃ c', (untilReady (bound + 1)).run c = (.error e, c') ∧
      c'.session.deferred = c.session.deferred.or held := by
  cases h with
  | @unread e s failed =>
    refine ⟨⟨s, c.receiver⟩, ?_, ?_⟩
    · rw [untilReady, run_bind, onSession_run, failed]
    · obtain ⟨m, frame, incoming, hm, -⟩ | ⟨e', incoming, -, rfl⟩ :=
        SessionM.receive_cases failed
      · cases hm
      · exact Option.or_none.symm
  | @unhandled m s e c' read failed =>
    refine ⟨c', ?_, ?_⟩
    · rw [untilReady, run_bind, onSession_run, read]
      dsimp only
      rw [run_bind, failed]
    · obtain ⟨m', frame, incoming, -, -, -, rfl⟩ | ⟨e', incoming, hr, -⟩ :=
        SessionM.receive_cases read
      · exact handle_error failed
      · cases hr

end CycleM

/-! ## The end of a cycle -/

namespace Session

/-- The cycle gets to its end: some messages pass, none of which is a ReadyForQuery, and then
comes one. -/
def Ends (s : Session) (receiver : Receiver) (messages : List Backend)
    (status : TransactionStatus) (errors : List Error) : Prop :=
  (∀ m ∈ messages, m.isReady = false) ∧
    ∃ c t, Cycle.Passes ⟨{ s with deferred := none }, receiver⟩ messages errors c ∧
      SessionM.receive.run c.session = (.ok (.readyForQuery status), t)

/-- The cycle is cut off by an error: some messages pass, none of which is a ReadyForQuery, and
the next one does not. -/
def Fails (s : Session) (receiver : Receiver) (messages : List Backend) (errors : List Error)
    (held : Option Error) (e : Error) : Prop :=
  (∀ m ∈ messages, m.isReady = false) ∧
    ∃ c, Cycle.Passes ⟨{ s with deferred := none }, receiver⟩ messages errors c ∧
      c.Aborts held e

end Session

/-- The messages of a stream pass until a ReadyForQuery comes or one does not pass. -/
theorem Cycle.passes_or_aborts (c : Cycle) :
    ∃ messages errors d, (∀ m ∈ messages, m.isReady = false) ∧ Passes c messages errors d ∧
      ((∃ status t, SessionM.receive.run d.session = (.ok (.readyForQuery status), t)) ∨
        ∃ held e, d.Aborts held e) := by
  -- The induction is on what is left to be read.
  generalize hsize : c.session.stream.incoming.unread.length = size
  induction size using Nat.strongRecOn generalizing c with
  | ind size ih =>
    rcases hread : SessionM.receive.run c.session with ⟨e | m, s⟩
    · exact ⟨[], [], c, nofun, .nil c, .inr ⟨none, e, .unread hread⟩⟩
    · cases hready : m.isReady with
      | true =>
        obtain ⟨status, rfl⟩ := Backend.isReady_iff.1 hready
        exact ⟨[], [], c, nofun, .nil c, .inl ⟨status, s, hread⟩⟩
      | false =>
        rcases hhandle : (CycleM.handle m).run ⟨s, c.receiver⟩ with ⟨e | ⟨⟩, c₁⟩
        · exact ⟨[], [], c, nofun, .nil c, .inr ⟨_, e, .unhandled hread hhandle⟩⟩
        · obtain ⟨messages, errors, d, hmessages, hpasses, hend⟩ :=
            ih _ (hsize ▸ Cycle.unread_lt hread hhandle) c₁ rfl
          refine ⟨m :: messages, _, d, ?_, .cons hread hhandle hpasses, hend⟩
          exact List.forall_mem_cons.2 ⟨hready, hmessages⟩

namespace Session

variable {s : Session} {receiver : Receiver} {messages : List Backend}
  {status : TransactionStatus} {errors : List Error} {held : Option Error} {e : Error}

/-- A cycle that gets to its end takes the frames of its messages, and gives the first error that
they left behind. -/
theorem Ends.cycle (h : s.Ends receiver messages status errors) (sound : s.broken = false) :
    ∃ receiver' s', s.cycle receiver = (errors.head?.elim (.ok ()) .error, receiver', s') ∧
      s'.status = status ∧ s'.broken = false ∧
      ∃ frames, List.Forall₂ IsFrame frames (messages ++ [.readyForQuery status]) ∧
        s.stream.incoming.unread = frames.flatten ++ s'.stream.incoming.unread := by
  obtain ⟨hready, c, t, hpasses, hlast⟩ := h
  obtain ⟨bound, hbound, hrun⟩ := CycleM.untilReady_passes hpasses hready (Nat.lt_succ_self _)
  obtain _ | bound := bound
  · cases hbound
  rw [CycleM.untilReady_ready hlast] at hrun
  obtain ⟨m, frame, incoming, hm, hframe, hunread, rfl⟩ | ⟨e, -, hr, -⟩ :=
    SessionM.receive_cases hlast
  swap
  · cases hr
  obtain rfl := Except.ok.inj hm
  obtain ⟨frames, hframes, hbefore⟩ := hpasses.frames
  have hdeferred : c.session.deferred = errors.head? := hpasses.deferred.trans Option.none_or
  refine ⟨_, _, (cycle_run sound hrun).trans (congrArg (·, _, _) ?_), rfl,
    hpasses.broken.trans sound, frames ++ [frame], ?_, ?_⟩
  · exact congrArg (fun held : Option Error => held.elim (Except.ok ()) .error) hdeferred
  · exact List.rel_append hframes (.cons hframe .nil)
  · rw [List.flatten_append, List.flatten_singleton, List.append_assoc]
    exact hbefore.trans (congrArg (frames.flatten ++ ·) hunread)

/-- The end of the stream or a failure of it gives way to the first error that was left behind;
any other error that cuts a cycle off is given as it is. -/
theorem ofAborted_eq (errors : List Error) (held : Option Error) (e : Error) :
    Error.ofAborted (errors.head?.or held) e =
      if e.category = .connectionClosed ∨ e.category = .io then (errors ++ held.toList).headD e
      else e := by
  have first : errors.head?.or held = (errors ++ held.toList).head? := by
    rw [List.head?_append]
    cases held <;> rfl
  rw [first, List.headD_eq_head?_getD]
  cases (errors ++ held.toList).head? <;> cases e <;> rfl

/-- A cycle that is cut off breaks the session, and says what was wrong first. -/
theorem Fails.cycle (h : s.Fails receiver messages errors held e) (sound : s.broken = false) :
    ∃ receiver' s', s.cycle receiver =
        (.error (if e.category = .connectionClosed ∨ e.category = .io
          then (errors ++ held.toList).headD e else e), receiver', s') ∧
      s'.broken = true := by
  obtain ⟨hready, c, hpasses, haborts⟩ := h
  obtain ⟨bound, hbound, hrun⟩ := CycleM.untilReady_passes hpasses hready (Nat.lt_succ_self _)
  obtain _ | bound := bound
  · cases hbound
  obtain ⟨c', hlast, hheld⟩ := CycleM.untilReady_aborts bound haborts
  have hdeferred : c'.session.deferred = errors.head?.or held := by
    rw [hheld, hpasses.deferred]
    rfl
  refine ⟨_, _, (cycle_run sound (hrun.trans hlast)).trans (congrArg (·, _, _) ?_), rfl⟩
  exact congrArg Except.error ((congrArg (Error.ofAborted · e) hdeferred).trans
    (ofAborted_eq errors held e))

/-- Nothing is held back past a cycle, and what was held back before it is not seen in it. -/
theorem cycle_deferred (sound : s.broken = false) (receiver : Receiver) :
    (s.cycle receiver).2.2.deferred = none ∧
      ∀ earlier, { s with deferred := earlier }.cycle receiver = s.cycle receiver := by
  rcases hrun : (CycleM.untilReady (s.stream.incoming.unread.length + 1)).run
    ⟨{ s with deferred := none }, receiver⟩ with ⟨r, c⟩
  refine ⟨?_, fun earlier => ?_⟩
  · rw [cycle_run sound hrun]
    cases r <;> rfl
  · rw [cycle_run sound hrun, cycle_run (s := { s with deferred := earlier }) sound hrun]
    cases r <;> rfl

/-- Every cycle of a sound session gets to its end or is cut off. At its end its frames are
consumed, the status is the one that the server gave, the session is as sound as before, and the
result is the first error that a message has left behind. A cycle that is cut off breaks the
session; where the stream has ended or failed the first error that was held back is the result,
and otherwise the error that cut it off is. No error is held back past a cycle, and none from
before is seen in it. -/
theorem cycle_outcome (s : Session) (receiver : Receiver) (sound : s.broken = false) :
    ((∃ messages status errors, s.Ends receiver messages status errors) ∨
      ∃ messages errors held e, s.Fails receiver messages errors held e) ∧
    (∀ messages status errors, s.Ends receiver messages status errors →
      (s.cycle receiver).1 = errors.head?.elim (.ok ()) .error ∧
      (s.cycle receiver).2.2.status = status ∧ (s.cycle receiver).2.2.broken = false ∧
      ∃ frames, List.Forall₂ IsFrame frames (messages ++ [.readyForQuery status]) ∧
        s.stream.incoming.unread =
          frames.flatten ++ (s.cycle receiver).2.2.stream.incoming.unread) ∧
    (∀ messages errors held e, s.Fails receiver messages errors held e →
      (s.cycle receiver).1 =
        .error (if e.category = .connectionClosed ∨ e.category = .io
          then (errors ++ held.toList).headD e else e) ∧
      (s.cycle receiver).2.2.broken = true) ∧
    (s.cycle receiver).2.2.deferred = none ∧
    ∀ earlier, { s with deferred := earlier }.cycle receiver = s.cycle receiver := by
  have outcome : (∃ messages status errors, s.Ends receiver messages status errors) ∨
      ∃ messages errors held e, s.Fails receiver messages errors held e := by
    obtain ⟨messages, errors, c, hready, hpasses, ⟨status, t, hlast⟩ | ⟨held, e, haborts⟩⟩ :=
      Cycle.passes_or_aborts ⟨{ s with deferred := none }, receiver⟩
    · exact .inl ⟨messages, status, errors, hready, c, t, hpasses, hlast⟩
    · exact .inr ⟨messages, errors, held, e, hready, c, hpasses, haborts⟩
  refine ⟨outcome, ?_, ?_, cycle_deferred sound receiver⟩
  · intro messages status errors h
    obtain ⟨receiver', s', hcycle, hrest⟩ := h.cycle sound
    rw [hcycle]
    exact ⟨rfl, hrest⟩
  · intro messages errors held e h
    obtain ⟨receiver', s', hcycle, hbroken⟩ := h.cycle sound
    rw [hcycle]
    exact ⟨rfl, hbroken⟩

/-- A session whose server sends some bytes and then closes the stream. -/
def heading (bytes : Bytes) : Session where
  stream := { incoming := ⟨bytes, .closed⟩ }
  requestedVersion := 0

/-- An empty query and a copy without a sink: the first error is given once the server is ready,
and also where the server closes the stream instead. -/
theorem cycle_outcome_refused :
    let refused : Bytes := [0x49, 0, 0, 0, 4, 0x48, 0, 0, 0, 7, 0, 0, 0]
    let ended := heading (refused ++ [0x5A, 0, 0, 0, 5, 0x54])
    ended.broken = false ∧ (heading refused).broken = false ∧
      ended.Ends .discard [.emptyQuery, .copyOut .text []] .inTransaction
        [.emptyQuery, .copy .noSink] ∧
      (heading refused).Fails .discard [.emptyQuery, .copyOut .text []]
        [.emptyQuery, .copy .noSink] none .connectionClosed ∧
      (ended.cycle .discard).1 = .error .emptyQuery ∧
      (ended.cycle .discard).2.2.status = .inTransaction ∧
      ((heading refused).cycle .discard).1 = .error .emptyQuery ∧
      ((heading refused).cycle .discard).2.2.broken = true := by
  intro refused ended
  have unready : ∀ m ∈ [Backend.emptyQuery, .copyOut .text []], m.isReady = false := by decide
  have hends : ended.Ends .discard [.emptyQuery, .copyOut .text []] .inTransaction
      [.emptyQuery, .copy .noSink] :=
    ⟨unready, _, _, .cons rfl rfl (.cons rfl rfl (.nil _)), rfl⟩
  have hfails : (heading refused).Fails .discard [.emptyQuery, .copyOut .text []]
      [.emptyQuery, .copy .noSink] none .connectionClosed :=
    ⟨unready, _, .cons rfl rfl (.cons rfl rfl (.nil _)), .unread rfl⟩
  obtain ⟨hresult, hstatus, -⟩ := (cycle_outcome ended .discard rfl).2.1 _ _ _ hends
  obtain ⟨hresult', hbroken⟩ :=
    (cycle_outcome (heading refused) .discard rfl).2.2.1 _ _ _ _ hfails
  exact ⟨rfl, rfl, hends, hfails, hresult, hstatus, hresult', hbroken⟩

end Session

end PgClient
