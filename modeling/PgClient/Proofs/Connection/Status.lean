/-
  PgClient.Proofs.Connection.Status

  What a connection knows of its server between two calls. Its transaction status
  is the one that the server reported last, and as long as it is sound the last
  thing that happened was this report.
-/
import PgClient.Proofs.Connection.Opening
import PgClient.Proofs.Connection.Runs

namespace PgClient

open ConnectionM Steps

/-! ## Reports -/

/-- The transaction status that a message reports. -/
def Backend.status? : Backend → Option TransactionStatus
  | .readyForQuery status => some status
  | _ => none

/-- The transaction status that some messages reported last. -/
def reported (messages : List Backend) : Option TransactionStatus :=
  (messages.filterMap Backend.status?).getLast?

@[simp] theorem reported_append (messages messages' : List Backend) :
    reported (messages ++ messages') = (reported messages').or (reported messages) := by
  rw [reported, List.filterMap_append, List.getLast?_append]
  rfl

theorem reported_ready (messages : List Backend) (status : TransactionStatus) :
    reported (messages ++ [.readyForQuery status]) = some status := by
  rw [reported_append]
  rfl

/-- Nothing is reported before the server is ready. -/
theorem Unready.reported {events : List Event} (h : Unready events) :
    reported (receivedIn events) = none := by
  have hnone : (receivedIn events).filterMap Backend.status? = [] := by
    refine List.filterMap_eq_nil_iff.2 fun m hm => ?_
    have hready := h m hm
    cases m <;> first | rfl | cases hready
  rw [PgClient.reported, hnone]
  rfl

namespace Session

theorem status_noted (s : Session) (m : Backend) :
    (s.noted m).status = m.status?.getD s.status := by
  cases m with
  | parameterStatus name value =>
    simp only [noted, setParameter, applyParameter]
    split <;> (try split) <;> rfl
  | commandComplete tag =>
    simp only [noted]
    split <;> rfl
  | _ => rfl

/-- The status after some events is the last one that they report. -/
theorem status_replay (s : Session) (events : List Event) :
    (s.replay events).status = (reported (receivedIn events)).getD s.status := by
  induction events generalizing s with
  | nil => rfl
  | cons e events ih =>
    rw [replay_cons, ih]
    cases e with
    | wrote batch => rfl
    | received m =>
      show (reported (receivedIn events)).getD (s.noted m).status = _
      rw [status_noted, receivedIn_received, ← List.singleton_append, reported_append]
      cases reported (receivedIn events) with
      | some status => rfl
      | none => cases m <;> rfl

theorem Exchanged.status {batch : List Frontend} {events : List Event} {s s' : Session}
    (h : Exchanged batch events s s') :
    s'.status = (reported (receivedIn events)).getD s.status := by
  rw [congrArg Session.status h.known]
  exact status_replay s events

end Session

/-! ## Between two calls -/

namespace Connection

/-- The status of a connection is the last one that was reported, and while it is sound nothing
has happened since. -/
structure Rested (c : Connection) : Prop where
  status : reported c.session.received = some c.session.status
  ready (sound : c.session.broken = false) :
    ∃ past status, c.session.events = past ++ [.received (.readyForQuery status)]

namespace Rested

variable {c d : Connection}

theorem settings (h : Rested c) (hd : Settings c d) : Rested d := by
  cases hd
  exact ⟨h.status, h.ready⟩

theorem exchanged {batch : List Frontend} {events : List Event} {s : Session} (h : Rested c)
    (hexchanged : c.session.Exchanged batch events s) : Rested { c with session := s } where
  status := by
    show reported s.received = some s.status
    rw [Session.received_eq, hexchanged.events_eq, receivedIn_append, reported_append,
      ← Session.received_eq, h.status, hexchanged.status]
    cases reported (receivedIn events) <;> rfl
  ready sound := by
    obtain ⟨body, status, rfl, -, -⟩ := hexchanged.body sound
    refine ⟨c.session.events ++ .wrote batch :: body, status, ?_⟩
    show s.events = _
    rw [hexchanged.events_eq, List.append_assoc]
    rfl

theorem moves {binding : Bool} (h : Rested c) (hd : Moves binding c d) : Rested d := by
  induction hd with
  | refl => exact h
  | tail _ last ih =>
    cases last with
    | beside cache capacity sequence stale => exact ⟨ih.status, ih.ready⟩
    | exchange sound syncs binds exchanged => exact ih.exchanged exchanged

theorem performs {xs : List Execution} (h : Rested c) (hd : Performs c xs d) : Rested d :=
  hd.invariant (fun hsettings hc => hc.settings hsettings)
    (fun x husable hx => hx.moves (x.moves husable)) h

/-- An opened connection was told its status at the end of the startup. -/
theorem of_connect {stream : Stream} {config : Config} {options : ConnectOptions}
    (h : connect stream config options = (.ok (), c)) : Rested c := by
  obtain ⟨events, s, rfl, hsound, hexchanged⟩ := opened_of_connect h
  obtain ⟨body, status, rfl, -, hbody⟩ := hexchanged.body hsound
  refine ⟨?_, fun _ => ⟨.wrote (startupBatch config) :: body, status, hexchanged.events_eq⟩⟩
  have hreported : reported (receivedIn
      (.wrote (startupBatch config) :: (body ++ [.received (.readyForQuery status)]))) =
        some status := by
    rw [receivedIn_wrote, receivedIn_append]
    exact reported_ready (receivedIn body) status
  show reported s.received = some s.status
  rw [Session.received_eq, hexchanged.events_eq, hexchanged.status, hreported]
  exact hreported

/-- No cycle is under way on a sound connection. -/
theorem notUnready {before tail : List Event} {batch : List Frontend} (h : Rested c)
    (hsound : c.session.broken = false)
    (hevents : c.session.events = before ++ .wrote batch :: tail) : ¬ Unready tail := by
  obtain ⟨past, status, hready⟩ := h.ready hsound
  intro htail
  have hlast := congrArg List.getLast? (hevents.symm.trans hready)
  rw [List.getLast?_append, List.getLast?_append] at hlast
  cases tail using List.reverseRecOn with
  | nil => cases hlast
  | append_singleton tail e =>
    rw [← List.cons_append, List.getLast?_append] at hlast
    obtain rfl : e = .received (.readyForQuery status) := Option.some.inj hlast
    have hmem : .readyForQuery status ∈
        receivedIn (tail ++ [Event.received (.readyForQuery status)]) := by
      rw [receivedIn_append]
      exact List.mem_append_right _ List.mem_cons_self
    cases htail _ hmem

end Rested

end Connection

end PgClient
