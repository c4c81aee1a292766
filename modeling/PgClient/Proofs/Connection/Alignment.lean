/-
  PgClient.Proofs.Connection.Alignment

  The stream of an open connection stays in step. Every exchange writes one Sync
  and takes one ReadyForQuery, together with all that comes before it, or it
  breaks the session; and a broken session is left alone for ever.
-/
import PgClient.Connection.Lifetime
import PgClient.Proofs.Connection.Opening
import PgClient.Proofs.Connection.Runs

namespace PgClient

open ConnectionM Steps

/-! ## In step -/

namespace Session

/-- The stream is in step: one ReadyForQuery was taken for the startup and one for every Sync,
the one taken last came last, and what is unread starts right after it. -/
structure InStep (start : Bytes) (s : Session) : Prop where
  counts : s.received.countP Backend.isReady = s.written.count .sync + 1
  ready : ∃ status, s.received.getLast? = some (.readyForQuery status)
  frames : ∃ frames, List.Forall₂ IsFrame frames s.received ∧
    start = frames.flatten ++ s.stream.incoming.unread

/-- No answer asks for a ReadyForQuery. -/
theorem count_answers {events : List Event} (h : Answering events) :
    (writtenIn events).count .sync = 0 := by
  rw [List.count_eq_zero]
  intro hmem
  have := h _ hmem
  cases this

theorem countP_unready {events : List Event} (h : Unready events) :
    (receivedIn events).countP Backend.isReady = 0 := by
  rw [List.countP_eq_zero]
  intro m hm hready
  rw [h m hm] at hready
  cases hready

/-- An exchange that ends soundly has taken one ReadyForQuery, as its last message. -/
theorem Exchanged.ready {batch : List Frontend} {events : List Event} {s s' : Session}
    (h : Exchanged batch events s s') (hb : s'.broken = false) :
    s'.received.countP Backend.isReady = s.received.countP Backend.isReady + 1 ∧
      s'.written.count .sync = s.written.count .sync + batch.count .sync ∧
      (∃ status, s'.received.getLast? = some (.readyForQuery status)) ∧ s.Framed events s' := by
  have hevents := h.events_eq
  cases h.ended with
  | refused broken =>
    rw [hb] at broken
    cases broken
  | aborted answering unready broken =>
    rw [hb] at broken
    cases broken
  -- The batch, its answers and the ReadyForQuery are all that was added.
  | @ready body status answering unready _ framed =>
    rw [received_eq, received_eq, written_eq, written_eq, hevents, receivedIn_append,
      writtenIn_append, receivedIn_wrote, receivedIn_append, writtenIn_wrote, writtenIn_append]
    refine ⟨?_, ?_, ⟨status, ?_⟩, framed⟩
    · rw [List.countP_append, List.countP_append, countP_unready unready]
      rfl
    · rw [List.count_append, List.count_append, List.count_append, count_answers answering]
      rfl
    · rw [← List.append_assoc]
      exact List.getLast?_concat

theorem Framed.start {events : List Event} {s s' : Session} {start : Bytes}
    (h : s.Framed events s') (hevents : s'.events = s.events ++ events)
    (hstart : ∃ frames, List.Forall₂ IsFrame frames s.received ∧
      start = frames.flatten ++ s.stream.incoming.unread) :
    ∃ frames, List.Forall₂ IsFrame frames s'.received ∧
      start = frames.flatten ++ s'.stream.incoming.unread := by
  obtain ⟨frames, hframes, hunread⟩ := h
  obtain ⟨frames', hframes', rfl⟩ := hstart
  refine ⟨frames' ++ frames, ?_, ?_⟩
  · rw [received_eq, hevents, receivedIn_append]
    exact List.rel_append hframes' hframes
  · rw [hunread, List.flatten_append, List.append_assoc]

/-- An exchange for one Sync keeps the stream in step, unless it breaks the session. -/
theorem InStep.exchanged {start : Bytes} {batch : List Frontend} {events : List Event}
    {s s' : Session} (h : InStep start s) (hsyncs : batch.count .sync = 1)
    (hexchanged : Exchanged batch events s s') (hb : s'.broken = false) : InStep start s' := by
  obtain ⟨hreadies, hwritten, hlast, hframed⟩ := hexchanged.ready hb
  refine ⟨?_, hlast, hframed.start hexchanged.events_eq h.frames⟩
  rw [hreadies, hwritten, hsyncs, h.counts]

end Session

namespace Connection

variable {c d : Connection} {start : Bytes}

/-- Between two moves of a connection the stream is in step or the session is broken. -/
structure Aligned (start : Bytes) (c : Connection) : Prop where
  settled : c.session.Settled
  inStep : c.session.broken = false → c.session.InStep start

theorem Settings.aligned (h : Settings c d) (hc : Aligned start c) : Aligned start d := by
  cases h
  exact ⟨⟨hc.settled.staged, hc.settled.deferred⟩, fun hb =>
    ⟨(hc.inStep hb).counts, (hc.inStep hb).ready, (hc.inStep hb).frames⟩⟩

theorem Move.aligned {binding : Bool} (h : Move binding c d) (hc : Aligned start c) :
    Aligned start d := by
  refine ⟨h.settled hc.settled, fun hb => ?_⟩
  cases h with
  | beside cache capacity sequence stale =>
    have hstep := hc.inStep hb
    exact ⟨hstep.counts, hstep.ready, hstep.frames⟩
  | exchange sound syncs binds exchanged => exact (hc.inStep sound).exchanged syncs exchanged hb

theorem Moves.aligned {binding : Bool} (h : Moves binding c d) (hc : Aligned start c) :
    Aligned start d := by
  induction h with
  | refl => exact hc
  | tail _ last ih => exact last.aligned ih

/-- A connection starts in step: the startup packet asks for a ReadyForQuery without a Sync. -/
theorem aligned_of_connect {stream : Stream} {config : Config} {options : ConnectOptions}
    (h : connect stream config options = (.ok (), c)) :
    Aligned stream.incoming.unread c ∧ c.session.broken = false := by
  obtain ⟨events, s, rfl, hsound, hexchanged⟩ := opened_of_connect h
  refine ⟨⟨hexchanged.settled, fun _ => ?_⟩, hsound⟩
  obtain ⟨hreadies, hwritten, hlast, hframed⟩ := hexchanged.ready hsound
  refine ⟨?_, hlast, hframed.start hexchanged.events_eq ⟨[], .nil, rfl⟩⟩
  rw [hreadies, hwritten]
  rfl

/-- What becomes of a connection whose session is broken: whatever its user does with it, nothing
is read or written any more, and every call that would need the server fails. Closing it, as
letting go of it does, sends nothing either. -/
structure OutOfService (c : Connection) : Prop where
  broken (ops : List Operation) : (c.runs ops).session.broken = true
  stream (ops : List Operation) : (c.runs ops).session.stream = c.session.stream
  history (ops : List Operation) : (c.runs ops).session.history = c.session.history
  query (ops : List Operation) (sql : String) (args : Placeholder.Arguments) :
    (query sql args (c.runs ops)).1 = .error .connectionClosed
  commit (ops : List Operation) : (commit (c.runs ops)).1 = .error .connectionClosed
  rollback (ops : List Operation) : (rollback (c.runs ops)).1 = .error .connectionClosed
  execute (ops : List Operation) (cursor : Cursor) (sql : String)
    (args : Placeholder.Arguments) (opened : cursor.closed = false) :
    (cursor.execute sql args (c.runs ops)).1.1 = .error .connectionClosed
  close (ops : List Operation) : (c.runs ops).close.2.session = (c.runs ops).session

/-- A statement on a broken session fails before anything is done for it. -/
theorem execute_broken (sql : String) (args : Placeholder.Arguments) (copy : CopyStreams)
    (implicitBegin : Bool) (hb : c.session.broken = true) :
    execute sql args copy implicitBegin c = ((.error .connectionClosed, copy), c) := by
  rw [execute_run, call_closed sql args (by rw [hb, Bool.true_or])]

theorem run_broken (sql : String) (args : Placeholder.Arguments) (copy : CopyStreams)
    (hb : c.session.broken = true) :
    run sql args copy c = ((.error .connectionClosed, copy), c) :=
  execute_broken sql args copy _ hb

/-- On a broken session there is nothing to execute. -/
theorem Performs.settings_of_broken {xs : List Execution} (h : Performs c xs d)
    (hb : c.session.broken = true) : Settings c d := by
  cases h with
  | nil settings => exact settings
  | cons settings usable rest =>
    have hsound := usable.sound
    rw [settings.broken, hb] at hsound
    cases hsound

/-- Closing a broken session sends nothing. -/
theorem close_broken (hb : c.session.broken = true) : c.close.2.session = c.session := by
  rw [close, terminate, run_bind, run_get]
  dsimp only
  cases c.terminated with
  | true => rfl
  | false =>
    rw [if_neg Bool.false_ne_true, run_bind, run_set]
    dsimp only
    rw [if_pos hb]
    rfl

theorem outOfService (hs : c.session.Settled) (hb : c.session.broken = true) :
    c.OutOfService := by
  have hsettings (ops : List Operation) : Settings c (c.runs ops) :=
    (runs_performs ops hs).settings_of_broken hb
  have hbroken (ops : List Operation) : (c.runs ops).session.broken = true :=
    (hsettings ops).broken.trans hb
  refine ⟨hbroken, fun ops => (hsettings ops).stream, fun ops => (hsettings ops).history,
    ?_, ?_, ?_, ?_, fun ops => close_broken (hbroken ops)⟩
  · intro ops sql args
    rw [query, state_bind, run_broken sql args {} (hbroken ops)]
    rfl
  · intro ops
    rw [commit, command, state_bind, execute_broken "COMMIT" .none {} false (hbroken ops)]
    rfl
  · intro ops
    rw [rollback, command, state_bind, execute_broken "ROLLBACK" .none {} false (hbroken ops)]
    rfl
  · intro ops cursor sql args opened
    rw [Cursor.execute, if_neg (Bool.eq_false_iff.1 opened), state_bind,
      run_broken sql args cursor.copyStreams (hbroken ops)]
    rfl

/-! ## Every boundary -/

/-- At every boundary between two operations nothing is staged and no error is held back, and the
stream is in step with the server or the connection is out of service for good. -/
theorem stream_aligned {stream : Stream} {config : Config} {options : ConnectOptions}
    (h : connect stream config options = (.ok (), c)) (ops : List Operation) :
    (c.runs ops).session.staged = [] ∧ (c.runs ops).session.deferred = none ∧
      ((c.runs ops).session.broken = false ∧
          (c.runs ops).session.InStep stream.incoming.unread ∨
        (c.runs ops).session.broken = true ∧ (c.runs ops).OutOfService) := by
  have hstart := (aligned_of_connect h).1
  have hruns := runs_performs ops hstart.settled
  have haligned : Aligned stream.incoming.unread (c.runs ops) :=
    hruns.invariant (fun hsettings hc => hsettings.aligned hc)
      (fun x husable hx => (x.moves husable).aligned hx) hstart
  refine ⟨haligned.settled.staged, haligned.settled.deferred, ?_⟩
  cases hb : (c.runs ops).session.broken with
  | false => exact .inl ⟨rfl, haligned.inStep hb⟩
  | true => exact .inr ⟨rfl, outOfService haligned.settled hb⟩

/-- The case of a COMMIT to a server that hangs up after its greeting. -/
theorem stream_aligned_greeted :
    (greeted []).1 = .ok () ∧
      ((greeted []).2.runs [.commit]).session.staged = [] ∧
      ((greeted []).2.runs [.commit]).session.deferred = none ∧
      (((greeted []).2.runs [.commit]).session.broken = false ∧
          ((greeted []).2.runs [.commit]).session.InStep greeting ∨
        ((greeted []).2.runs [.commit]).session.broken = true ∧
          ((greeted []).2.runs [.commit]).OutOfService) :=
  ⟨greeted_nil, stream_aligned (Prod.ext greeted_nil rfl) [.commit]⟩

end Connection

end PgClient
