/-
  PgClient.Proofs.Connection.Copies

  Copies from the server in a call. The call's sink is lent to the cycle of its
  statement and to no other: a copy that the server announces in any other cycle
  fails the call. A connection is the same after the call, whatever the sink made
  of its data.
-/
import PgClient.Proofs.Connection.Executed
import PgClient.Proofs.Session.Sinks

namespace PgClient

open ConnectionM Steps

/-! ## Whatever the sink -/

/-- Whether a message announces a copy to the client. -/
def Backend.isCopyOut : Backend → Bool
  | .copyOut .. => true
  | _ => false

/-- No copy to the client was announced from one session to the other. -/
def Session.Unannounced (s s' : Session) : Prop :=
  ∃ added, s'.events = s.events ++ added ∧ ∀ m ∈ receivedIn added, m.isCopyOut = false

namespace Session.Unannounced

variable {s t u : Session}

theorem of_events_eq (h : t.events = s.events) : s.Unannounced t :=
  ⟨[], by rw [h, List.append_nil], fun _ => nofun⟩

theorem trans (h : s.Unannounced t) (h' : t.Unannounced u) : s.Unannounced u := by
  obtain ⟨added, ht, hadded⟩ := h
  obtain ⟨added', hu, hadded'⟩ := h'
  refine ⟨added ++ added', by rw [hu, ht, List.append_assoc], fun m hm => ?_⟩
  rw [receivedIn_append] at hm
  exact (List.mem_append.1 hm).elim (hadded m) (hadded' m)

end Session.Unannounced

namespace Receiver.Handles

variable {s : Session} {r r' : Receiver} {m : Backend} {answer : List Frontend}
  {held : Option Error}

/-- A receiver without a sink does not come to have one. -/
theorem sinkless (h : r.Handles s m answer held r') (hsink : r.copy.sink = none) :
    r'.copy.sink = none := by
  cases h with
  | challenge startup replied => rfl
  | message unasked =>
    unfold next
    split <;> (try split) <;> first | rfl | exact hsink | cases hsink

/-- A receiver without a sink refuses an announced copy. -/
theorem unannounced (h : r.Handles s m answer held r') (hsink : r.copy.sink = none)
    (hnone : held = none) : m.isCopyOut = false := by
  cases h with
  | challenge startup replied => rfl
  | message unasked =>
    cases m with
    | copyOut format formats =>
      rw [Receiver.refusal, hsink] at hnone
      cases hnone
    | _ => rfl

end Receiver.Handles

/-- Without a sink a copy is announced only in a cycle that fails. -/
theorem Cycle.Runs.unannounced {c c' : Cycle} {events : List Event} (h : Runs c events c')
    (hnone : c'.session.deferred = none) (hsink : c.receiver.copy.sink = none) :
    ∀ m ∈ receivedIn events, m.isCopyOut = false := by
  induction h with
  | refl c => exact fun _ => nofun
  | @step c c₁ c₂ m batches events first rest ih =>
    have hhandles := first_accepted first rest hnone
    intro m' hm
    rw [receivedIn_append, receivedIn_handled] at hm
    obtain rfl | hm := List.mem_cons.1 hm
    · exact hhandles.unannounced hsink rfl
    · exact ih hnone (hhandles.sinkless hsink) m' hm

theorem Session.exchange_unannounced {batch : List Frontend} {receiver receiver' : Receiver}
    {s s' : Session} (hbatch : batch ≠ []) (hb : s.broken = false) (hd : s.deferred = none)
    (hsink : receiver.copy.sink = none)
    (h : s.exchange batch receiver = (.ok (), receiver', s')) : s.Unannounced s' := by
  obtain ⟨held, events, t, hr, hsent, hcompleted, hexchanged⟩ | ⟨e, events, hr, -⟩ :=
    exchange_cases hbatch hb hd h
  · cases held with
    | some e => cases hr
    | none =>
      exact ⟨_, hexchanged.events_eq, hcompleted.runs.unannounced rfl hsink⟩
  · cases hr

namespace ConnectionM

variable {c c' d : Connection} {statement : Statement}

theorem Obtained.unannounced {key : StatementKey} {encoders : List ParamEncoder}
    (h : Obtained key encoders c statement d) : c.session.Unannounced d.session := by
  have preparing {named : Bool} {statement : Statement} {d : Connection}
      (h : Prepared named key.sql encoders c statement d) : c.session.Unannounced d.session := by
    obtain @⟨query, messages, status, s, types, fields, encoded, exchanged, accepted, broken⟩ := h
    refine ⟨_, exchanged.events_eq, fun m hm => ?_⟩
    rw [receivedIn_wrote, receivedIn_append] at hm
    obtain hm | hm := List.mem_append.1 hm
    · obtain ⟨e, he, hreceived⟩ := List.mem_filterMap.1 hm
      obtain ⟨m', hm', rfl⟩ := List.mem_map.1 he
      obtain rfl : m' = m := Option.some.inj hreceived
      -- A cycle that prepares has no streams, and refuses a copy.
      have hrefuses := (accepted m' hm').2
      cases m' <;> first | rfl | cases hrefuses
    · rw [List.mem_singleton.1 hm]
      rfl
  cases h with
  | hit enabled found => exact .of_events_eq rfl
  | miss enabled missing prepared => exact (preparing prepared).trans (.of_events_eq rfl)
  | unkept disabled prepared => exact preparing prepared

theorem release_unannounced (hs : c.session.Settled) (hb : c.session.broken = false)
    (h : (release statement).run c = (.ok (), c')) : c.session.Unannounced c'.session := by
  unfold release at h
  by_cases hunnamed : statement.isUnnamed = true
  · rw [if_pos hunnamed, releaseUnnamed_run hs.staged, if_neg (Bool.eq_false_iff.1 hb)] at h
    obtain ⟨hr, rfl⟩ := Prod.mk.inj h
    exact Session.exchange_unannounced (closeBatch_ne_nil [""]) hb hs.deferred rfl
      (Prod.ext hr rfl)
  · rw [if_neg hunnamed] at h
    obtain ⟨-, rfl⟩ := Prod.mk.inj h
    exact .of_events_eq rfl

theorem invalidateStale_unannounced (hs : c.session.Settled) (hb : c.session.broken = false)
    (h : invalidateStale.run c = (.ok (), c')) : c.session.Unannounced c'.session := by
  have invalidating {c : Connection} (hs : c.session.Settled) (hb : c.session.broken = false)
      (h : invalidate.run c = (.ok (), c')) : c.session.Unannounced c'.session := by
    rw [invalidate_run hs.staged] at h
    by_cases skip : cachedNames c.cache = [] ∨ c.session.broken = true
    · rw [if_pos skip] at h
      obtain ⟨-, rfl⟩ := Prod.mk.inj h
      exact .of_events_eq rfl
    · rw [if_neg skip] at h
      obtain ⟨hr, rfl⟩ := Prod.mk.inj h
      exact Session.exchange_unannounced (closeBatch_ne_nil (cachedNames c.cache)) hb hs.deferred
        rfl (Prod.ext hr rfl)
  rw [invalidateStale_run] at h
  cases hstale : c.session.stale with
  | true =>
    rw [if_pos hstale] at h
    have hinvalidated := invalidating
      (c := { c with session := { c.session with stale := false } })
      ⟨hs.staged, hs.deferred⟩ hb h
    exact hinvalidated
  | false =>
    rw [if_neg (Bool.eq_false_iff.1 hstale)] at h
    obtain ⟨-, rfl⟩ := Prod.mk.inj h
    exact .of_events_eq rfl

end ConnectionM

/-- In an execution that succeeds without a sink no copy to the client is announced. -/
theorem Execution.unannounced {x : Execution} {value : Statement × Outcome}
    (hx : x.before.Usable) (hsink : x.copy.sink = none) (h : x.result = .ok value) :
    x.before.session.Unannounced x.after.session := by
  have hperformed := x.performed hx
  generalize hout : (perform x.call x.copy x.before).1 = out at hperformed
  generalize hafter : x.after = c at hperformed
  have hresult : out.1 = .ok value := (congrArg Prod.fst hout).symm.trans h
  cases hperformed with
  | rejected rejected => cases hresult
  | refused readied sent => cases hresult
  | @executed encoders params statement d c₁ c₂ r r₁ r₂ receiver s t readied sent cycled released
      invalidated =>
    obtain ⟨rfl, rfl, rfl, -⟩ := inOrder_ok hresult
    have hobtained := readied.obtained
    have hd := (hobtained.moves hx.settled hx.sound).settled hx.settled
    have hexchange : d.session.exchange (executeBatch statement params d)
        (.rows statement.columns {} x.copy) = (.ok (), receiver, t) := by
      rw [Session.exchange, sent]
      exact cycled
    obtain ⟨body, status, hbroken, hexchanged, -⟩ := Session.exchange_ok
      (executeBatch_ne_nil statement params d) (hobtained.broken hx.sound) hd.deferred hexchange
    have hsettled := Connection.Moves.settled (release_moves hexchanged.settled released)
      hexchanged.settled
    have hreleased := release_sound hexchanged.settled hbroken released
    have hcycle : d.session.Unannounced t := Session.exchange_unannounced
      (executeBatch_ne_nil statement params d) (hobtained.broken hx.sound) hd.deferred
      (by exact hsink) hexchange
    exact ((hobtained.unannounced.trans hcycle).trans
      (release_unannounced hexchanged.settled hbroken released)).trans
        (invalidateStale_unannounced hsettled hreleased invalidated)

namespace Connection

variable {c c' : Connection}

/-- Nor is one in some executions of which each succeeds without any streams. -/
theorem Performs.unannounced {xs : List Execution} (h : Performs c xs c')
    (hxs : ∀ x ∈ xs, x.copy = {} ∧ ∃ value, x.result = .ok value) :
    c.session.Unannounced c'.session := by
  have unchanged {c d : Connection} (h : Settings c d) : c.session.Unannounced d.session :=
    .of_events_eq (congrArg List.reverse h.history)
  induction h with
  | nil settings => exact unchanged settings
  | cons settings usable rest ih =>
    obtain ⟨⟨hcopy, value, hresult⟩, hrest⟩ := List.forall_mem_cons.1 hxs
    exact ((unchanged settings).trans
      (Execution.unannounced usable (by rw [hcopy]) hresult)).trans (ih hrest)

end Connection

end PgClient
