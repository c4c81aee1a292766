/-
  PgClient.Proofs.Session.Exchange

  An exchange is one write and the cycle that it calls for. All that a
  connection does with its server is a row of exchanges, so what an exchange
  keeps is kept for as long as the connection lives.
-/
import Mathlib.Data.List.Forall2
import PgClient.Proofs.Session.Cycle

namespace PgClient

/-! ## Frames taken -/

/-- The messages of some events took their frames, and nothing else, from the stream. -/
def Session.Framed (events : List Event) (s s' : Session) : Prop :=
  ∃ frames, List.Forall₂ IsFrame frames (receivedIn events) ∧
    s.stream.incoming.unread = frames.flatten ++ s'.stream.incoming.unread

namespace Session

/-- Nothing waits to be sent, and no error waits for the end of a cycle. -/
structure Settled (s : Session) : Prop where
  staged : s.staged = []
  deferred : s.deferred = none

theorem Completed.answering {s t : Session} {receiver receiver' : Receiver}
    {events : List Event} {held : Option Error} (hs : s.staged = [])
    (h : Completed receiver receiver' events held s t) :
    Answering events ∧ t.events = s.events ++ events := by
  have hran := h.runs.ran (by exact hs)
  have hevents := events_of_known hran.known
  exact ⟨hran.answering, hevents⟩

/-- A cycle writes nothing but answers, and settles the session. -/
theorem cycle_events {s t : Session} {receiver receiver' : Receiver} {r : Except Error Unit}
    (hs : s.staged = []) (hb : s.broken = false)
    (h : s.cycle receiver = (r, receiver', t)) :
    t.Settled ∧ ∃ events, Answering events ∧ t.events = s.events ++ events := by
  obtain ⟨held, events, -, hcompleted⟩ | ⟨e, events, -, haborted⟩ := cycle_cases hs hb h
  · have hran := hcompleted.runs.ran (by exact hs)
    exact ⟨⟨hran.staged, hcompleted.deferred⟩, events, hcompleted.answering hs⟩
  · have hran := haborted.ran
    exact ⟨⟨hran.staged, haborted.deferred⟩, events, hran.answering, events_of_known hran.known⟩

/-! ## One exchange -/

/-- One write of a batch and, if it is taken, the cycle that it calls for. -/
def exchange (batch : List Frontend) (receiver : Receiver) (s : Session) :
    Except Error Unit × Receiver × Session :=
  match s.send batch with
  | (.ok (), t) => t.cycle receiver
  | (.error e, t) => (.error e, receiver, t)

/-- How an exchange ends: the session is broken, by the write or by the cycle, or the server is
ready again. -/
inductive Ended (batch : List Frontend) (s s' : Session) : List Event → Prop
  | refused (broken : s'.broken = true) : Ended batch s s' []
  | aborted {body : List Event} (answering : Answering body) (unready : Unready body)
    (broken : s'.broken = true) : Ended batch s s' (.wrote batch :: body)
  | ready {body : List Event} {status : TransactionStatus} (answering : Answering body)
    (unready : Unready body) (broken : s'.broken = false)
    (framed : s.Framed (body ++ [.received (.readyForQuery status)]) s') :
    Ended batch s s' (.wrote batch :: (body ++ [.received (.readyForQuery status)]))

/-- What an exchange has made of a session. -/
structure Exchanged (batch : List Frontend) (events : List Event) (s s' : Session) : Prop where
  known : s' = (s.replay events).withIO s'
  carried : s'.broken = false → s.stream.Carried events none s'.stream
  staged : s'.staged = []
  deferred : s'.deferred = none
  ended : Ended batch s s' events

theorem Exchanged.settled {batch : List Frontend} {events : List Event} {s s' : Session}
    (h : Exchanged batch events s s') : s'.Settled :=
  ⟨h.staged, h.deferred⟩

theorem Exchanged.events_eq {batch : List Frontend} {events : List Event} {s s' : Session}
    (h : Exchanged batch events s s') : s'.events = s.events ++ events :=
  events_of_known h.known

/-- Values are decoded as all that was received asks for. -/
theorem Exchanged.context {batch : List Frontend} {events : List Event} {s s' : Session}
    (h : Exchanged batch events s s') (hs : s.context = contextAfter s.received) :
    s'.context = contextAfter s'.received := by
  have hreceived : s'.received = s.received ++ receivedIn events := by
    rw [received_eq, h.events_eq, receivedIn_append]
    rfl
  rw [congrArg Session.context h.known]
  show (s.replay events).context = _
  rw [context_replay, hs, hreceived, contextAfter, contextAfter, List.foldl_append]

/-- An exchange that leaves the session sound has written its batch and come to its end. -/
theorem Exchanged.body {batch : List Frontend} {events : List Event} {s s' : Session}
    (h : Exchanged batch events s s') (hb : s'.broken = false) :
    ∃ body status, events = .wrote batch :: (body ++ [.received (.readyForQuery status)]) ∧
      Answering body ∧ Unready body := by
  cases h.ended with
  | refused broken =>
    rw [hb] at broken
    cases broken
  | aborted answering unready broken =>
    rw [hb] at broken
    cases broken
  | ready answering unready broken framed => exact ⟨_, _, rfl, answering, unready⟩

/-- A cycle that came to its end after a write that was taken. -/
theorem Completed.exchanged {batch : List Frontend} {receiver receiver' : Receiver}
    {events : List Event} {held : Option Error} {s t s' : Session}
    (hsent : s.Sent [batch] none none t) (hs : t.staged = [])
    (h : Completed receiver receiver' events held t s') :
    Exchanged batch (.wrote batch :: events) s s' := by
  have hran := h.runs.ran (by exact hs)
  obtain ⟨frames, hframes, hunread⟩ := h.runs.frames
  obtain ⟨body, status, rfl, hbody⟩ := h.ready
  refine ⟨?_, fun _ => hsent.carried.trans h.runs.carried, hran.staged, h.deferred,
    .ready hran.answering.left hbody h.broken ⟨frames, hframes, ?_⟩⟩
  · -- The cycle ran between sessions that differ from these in the error held back.
    have hknown : s' = ((t.withIO { t with deferred := none }).replay _).withIO s' :=
      congrArg (fun u : Session => { u with deferred := s'.deferred }) hran.known
    have hall := known_trans hsent.known (known_of_withIO hknown)
    exact hall
  · rw [← hsent.incoming]
    exact hunread

/-- An exchange of a sound session either comes to the end of its cycle, with the error that was
held back if there is one, or it breaks the session. -/
theorem exchange_cases {batch : List Frontend} {receiver receiver' : Receiver} {s s' : Session}
    {r : Except Error Unit} (hbatch : batch ≠ []) (hb : s.broken = false)
    (hd : s.deferred = none) (h : s.exchange batch receiver = (r, receiver', s')) :
    (∃ held events t, r = held.elim (.ok ()) .error ∧ s.Sent [batch] none none t ∧
        Completed receiver receiver' events held t s' ∧
        Exchanged batch (.wrote batch :: events) s s') ∨
      ∃ e events, r = .error e ∧ s'.broken = true ∧ Exchanged batch events s s' := by
  unfold exchange at h
  obtain ⟨t, ht, hsent, hs, hsame⟩ | ⟨f, t, ht, hsent, hs, hbroken⟩ :=
    send_cases hbatch s
  · rw [ht] at h
    obtain ⟨held, events, hr, hcompleted⟩ | ⟨e, events, hr, haborted⟩ :=
      cycle_cases hs (hsame.trans hb) h
    · exact .inl ⟨held, events, t, hr, hsent, hcompleted, hcompleted.exchanged hsent hs⟩
    · refine .inr ⟨e, .wrote batch :: events, hr, haborted.broken, ?_, fun hsound => ?_,
        haborted.ran.staged, haborted.deferred,
        .aborted haborted.ran.answering haborted.unready haborted.broken⟩
      · exact known_trans hsent.known haborted.ran.known
      · rw [haborted.broken] at hsound
        cases hsound
  -- The write is refused, and the cycle is not run.
  · rw [ht] at h
    simp only [Prod.mk.injEq] at h
    obtain ⟨rfl, -, rfl⟩ := h
    refine .inr ⟨_, [], rfl, hbroken, hsent.known, fun hsound => ?_, hs, ?_, .refused hbroken⟩
    · rw [hbroken] at hsound
      cases hsound
    · rw [hsent.deferred, hd]
      rfl

/-- Whatever comes of an exchange, it has one of the two outcomes. -/
theorem exchange_exchanged {batch : List Frontend} (receiver : Receiver) {s : Session}
    (hbatch : batch ≠ []) (hb : s.broken = false) (hd : s.deferred = none) :
    ∃ events, Exchanged batch events s (s.exchange batch receiver).2.2 := by
  obtain ⟨held, events, t, -, -, -, h⟩ | ⟨e, events, -, -, h⟩ := exchange_cases hbatch hb hd rfl
  · exact ⟨_, h⟩
  · exact ⟨_, h⟩

/-- An exchange that went without an error came to its end, and no message of it was refused.
While a passive receiver takes its messages nothing is written. -/
theorem exchange_ok {batch : List Frontend} {receiver receiver' : Receiver} {s s' : Session}
    (hbatch : batch ≠ []) (hb : s.broken = false) (hd : s.deferred = none)
    (h : s.exchange batch receiver = (.ok (), receiver', s')) :
    ∃ body status, s'.broken = false ∧
      Exchanged batch (.wrote batch :: (body ++ [.received (.readyForQuery status)])) s s' ∧
      Unready body ∧ (∀ m ∈ receivedIn body, receiver.refuses m = false) ∧
      (receiver.isPassive = true → body = (receivedIn body).map .received) := by
  obtain ⟨held, events, t, hr, hsent, hcompleted, hexchanged⟩ | ⟨e, events, hr, -⟩ :=
    exchange_cases hbatch hb hd h
  · cases held with
    | some e => cases hr
    | none =>
      obtain ⟨body, status, rfl, hbody⟩ := hcompleted.ready
      refine ⟨body, status, hcompleted.broken, hexchanged, hbody, ?_, fun hpassive => ?_⟩
      · intro m hm
        refine hcompleted.runs.accepted rfl m ?_
        rw [receivedIn_append]
        exact List.mem_append_left _ hm
      · have hsilent := hcompleted.runs.silent hpassive rfl
        rw [receivedIn_append, List.map_append] at hsilent
        exact List.append_cancel_right hsilent
  · cases hr

end Session

end PgClient
