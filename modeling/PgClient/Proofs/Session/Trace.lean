/-
  PgClient.Proofs.Session.Trace

  The events of a session. All that a session knows of its server follows from
  the messages it has received: `replay` gives it from the events alone. Only
  what belongs to input and output (the stream, what is staged, the error held
  back, and whether the session is broken) is moved by the steps between them.
-/
import PgClient.Session.Dispatch

namespace PgClient

/-! ## Events -/

namespace Event

/-- What an event wrote. -/
def written : Event → List Frontend
  | .wrote batch => batch
  | .received _ => []

/-- What an event received. -/
def received? : Event → Option Backend
  | .wrote _ => none
  | .received m => some m

end Event

/-- What was written in some events, in order. -/
def writtenIn (events : List Event) : List Frontend := events.flatMap Event.written

/-- What was received in some events, in order. -/
def receivedIn (events : List Event) : List Backend := events.filterMap Event.received?

@[simp] theorem writtenIn_nil : writtenIn [] = [] := rfl

@[simp] theorem writtenIn_wrote (batch : List Frontend) (events : List Event) :
    writtenIn (.wrote batch :: events) = batch ++ writtenIn events := rfl

@[simp] theorem writtenIn_received (m : Backend) (events : List Event) :
    writtenIn (.received m :: events) = writtenIn events := rfl

@[simp] theorem writtenIn_append (events events' : List Event) :
    writtenIn (events ++ events') = writtenIn events ++ writtenIn events' :=
  List.flatMap_append

@[simp] theorem receivedIn_nil : receivedIn [] = [] := rfl

@[simp] theorem receivedIn_wrote (batch : List Frontend) (events : List Event) :
    receivedIn (.wrote batch :: events) = receivedIn events := rfl

@[simp] theorem receivedIn_received (m : Backend) (events : List Event) :
    receivedIn (.received m :: events) = m :: receivedIn events := rfl

@[simp] theorem receivedIn_append (events events' : List Event) :
    receivedIn (events ++ events') = receivedIn events ++ receivedIn events' :=
  List.filterMap_append

/-- A row of writes receives nothing and writes all of its batches. -/
@[simp] theorem writtenIn_wrotes (batches : List (List Frontend)) :
    writtenIn (batches.map .wrote) = batches.flatten := by
  induction batches with
  | nil => rfl
  | cons batch batches ih => rw [List.map_cons, writtenIn_wrote, ih, List.flatten_cons]

@[simp] theorem receivedIn_wrotes (batches : List (List Frontend)) :
    receivedIn (batches.map .wrote) = [] := by
  induction batches with
  | nil => rfl
  | cons batch batches ih => rw [List.map_cons, receivedIn_wrote, ih]

namespace Session

/-- All that happened, in order. -/
def events (s : Session) : List Event := s.history.reverse

theorem written_eq (s : Session) : s.written = writtenIn s.events := rfl

theorem received_eq (s : Session) : s.received = receivedIn s.events := rfl

/-! ## What a session learns -/

/-- The session that has taken note of a message. -/
def noted (s : Session) : Backend → Session
  | .notice fields => { s with notices := keep s.notices ⟨fields⟩ }
  | .parameterStatus name value => s.setParameter name value
  | .backendKeyData processId secretKey => { s with processId, secretKey }
  | .readyForQuery status => { s with status }
  | .commandComplete tag => if CommandTag.invalidates tag then { s with stale := true } else s
  | .notification processId channel payload =>
    { s with notifications := keep s.notifications ⟨processId, channel, payload⟩ }
  | _ => s

/-- The session after one more event. -/
def observe (s : Session) : Event → Session
  | .wrote batch => { s with history := .wrote batch :: s.history }
  | .received m => { s.noted m with history := .received m :: s.history }

/-- The session after some more events. -/
def replay (s : Session) (events : List Event) : Session := events.foldl observe s

/-- A session with the input and output of another. -/
def withIO (s t : Session) : Session :=
  { s with stream := t.stream, staged := t.staged, deferred := t.deferred, broken := t.broken }

@[simp] theorem replay_nil (s : Session) : s.replay [] = s := rfl

@[simp] theorem replay_cons (s : Session) (e : Event) (events : List Event) :
    s.replay (e :: events) = (s.observe e).replay events := rfl

theorem replay_append (s : Session) (events events' : List Event) :
    s.replay (events ++ events') = (s.replay events).replay events' :=
  List.foldl_append

@[simp] theorem withIO_self (s : Session) : s.withIO s = s := rfl

@[simp] theorem withIO_withIO (s t u : Session) : (s.withIO t).withIO u = s.withIO u := rfl

/-- What is learnt from a parameter does not depend on input and output. -/
theorem setParameter_withIO (s t : Session) (name value : String) :
    (s.withIO t).setParameter name value = (s.setParameter name value).withIO t := by
  unfold setParameter applyParameter
  split
  · simp only [withIO]
    split <;> rfl
  · rfl
  · rfl
  · simp only [withIO]
    split <;> rfl
  · rfl

/-- Taking note does not depend on input and output. -/
theorem noted_withIO (s t : Session) (m : Backend) :
    (s.withIO t).noted m = (s.noted m).withIO t := by
  cases m with
  | parameterStatus name value => exact setParameter_withIO s t name value
  | commandComplete tag =>
    simp only [noted]
    split <;> rfl
  | _ => rfl

theorem noted_eq_withIO (s : Session) (m : Backend) : s.noted m = (s.noted m).withIO s := by
  rw [← noted_withIO, withIO_self]

@[simp] theorem stream_noted (s : Session) (m : Backend) : (s.noted m).stream = s.stream :=
  (congrArg stream (noted_eq_withIO s m)).trans rfl

@[simp] theorem staged_noted (s : Session) (m : Backend) : (s.noted m).staged = s.staged :=
  (congrArg staged (noted_eq_withIO s m)).trans rfl

@[simp] theorem deferred_noted (s : Session) (m : Backend) :
    (s.noted m).deferred = s.deferred :=
  (congrArg deferred (noted_eq_withIO s m)).trans rfl

@[simp] theorem broken_noted (s : Session) (m : Backend) : (s.noted m).broken = s.broken :=
  (congrArg broken (noted_eq_withIO s m)).trans rfl

theorem observe_withIO (s t : Session) (e : Event) :
    (s.withIO t).observe e = (s.observe e).withIO t := by
  cases e with
  | wrote batch => rfl
  | received m =>
    simp only [observe, noted_withIO]
    rfl

theorem replay_withIO (s t : Session) (events : List Event) :
    (s.withIO t).replay events = (s.replay events).withIO t := by
  induction events generalizing s with
  | nil => rfl
  | cons e events ih => rw [replay_cons, observe_withIO, ih, replay_cons]

/-- What is known does not depend on the input and output that it starts from. -/
theorem known_of_withIO {events : List Event} {s s' t : Session}
    (h : s' = ((s.withIO t).replay events).withIO s') : s' = (s.replay events).withIO s' := by
  rw [replay_withIO, withIO_withIO] at h
  exact h

/-- What is known after some events and then some more. -/
theorem known_trans {events events' : List Event} {s t u : Session}
    (h : t = (s.replay events).withIO t) (h' : u = (t.replay events').withIO u) :
    u = (s.replay (events ++ events')).withIO u := by
  rw [h] at h'
  rw [replay_append]
  exact known_of_withIO h'

/-! ## The context for values -/

end Session

/-- The context for values after a message, which only a parameter can change. -/
def CodecContext.noted (ctx : CodecContext) : Backend → CodecContext
  | .parameterStatus name value =>
    if name = "client_encoding" then
      match ClientEncoding.ofServerName? value with
      | some encoding => { ctx with encoding }
      | none => ctx
    else if name = "integer_datetimes" then
      { ctx with integerDatetimes := value.toList.map Char.toLower = ['o', 'n'] }
    else ctx
  | _ => ctx

/-- The context for values after all that the server has said. -/
def contextAfter (messages : List Backend) : CodecContext :=
  messages.foldl CodecContext.noted {}

namespace Session

theorem context_noted (s : Session) (m : Backend) :
    (s.noted m).context = s.context.noted m := by
  cases m with
  | parameterStatus name value =>
    simp only [noted, setParameter, applyParameter, CodecContext.noted]
    split
    · rw [if_pos rfl]
      cases ClientEncoding.ofServerName? value <;> rfl
    · rw [if_neg (by decide), if_pos rfl]
    · rw [if_neg (by decide), if_neg (by decide)]
    · rw [if_neg (by decide), if_neg (by decide)]
      cases Integer.readInt32 (Text.trim value.toList) <;> rfl
    · rename_i hencoding hdatetimes _ _
      rw [if_neg hencoding, if_neg hdatetimes]
  | commandComplete tag =>
    simp only [noted]
    split <;> rfl
  | _ => rfl

theorem context_replay (s : Session) (events : List Event) :
    (s.replay events).context = (receivedIn events).foldl CodecContext.noted s.context := by
  induction events generalizing s with
  | nil => rfl
  | cons e events ih =>
    rw [replay_cons, ih]
    cases e with
    | wrote batch => rfl
    | received m =>
      rw [receivedIn_received, List.foldl_cons, ← context_noted]
      rfl

/-! ## The history -/

@[simp] theorem history_replay (s : Session) (events : List Event) :
    (s.replay events).history = events.reverse ++ s.history := by
  induction events generalizing s with
  | nil => rfl
  | cons e events ih =>
    rw [replay_cons, ih, List.reverse_cons, List.append_assoc]
    cases e <;> rfl

/-- What is known of a session holds all that has happened. -/
theorem events_of_known {events : List Event} {s s' : Session}
    (h : s' = (s.replay events).withIO s') : s'.events = s.events ++ events := by
  have hhistory : s'.history = events.reverse ++ s.history :=
    (congrArg history h).trans (history_replay s events)
  rw [Session.events, hhistory, List.reverse_append, List.reverse_reverse]
  rfl

end Session

end PgClient
