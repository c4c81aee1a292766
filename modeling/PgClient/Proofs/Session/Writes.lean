/-
  PgClient.Proofs.Session.Writes

  Writes of a session inside a cycle. A write that is taken is put on record as
  one batch; a write that is refused breaks the session, and what was staged is
  lost. The wire carries the batches on record and nothing else, but for the
  bytes of a refused batch that got out.
-/
import PgClient.Proofs.Session.Trace
import PgClient.Proofs.Steps

namespace PgClient

open Steps

/-! ## Writes -/

namespace Stream

/-- A write reads nothing. -/
theorem incoming_write (s : Stream) (bytes : Bytes) :
    (s.write bytes).2.incoming = s.incoming := by
  unfold write
  split <;> rfl

/-- What some events have put on the wire: all that they wrote and, if the write of one batch more
was refused after them, as many bytes of it as escape. -/
structure Carried (events : List Event) (torn : Option (List Frontend)) (s s' : Stream) :
    Prop where
  escapes : s'.escapes = s.escapes
  outgoing : s'.outgoing = s.outgoing ++ Frontend.encodeAll (writtenIn events) ++
    (Frontend.encodeAll (torn.getD [])).take s.escapes

namespace Carried

variable {events events' : List Event} {torn : Option (List Frontend)} {s t u : Stream}

/-- Where nothing was written the wire is as it was. -/
theorem silent (hnone : writtenIn events = []) (hescapes : t.escapes = s.escapes)
    (houtgoing : t.outgoing = s.outgoing) : s.Carried events none t :=
  ⟨hescapes, by rw [houtgoing, hnone]; simp⟩

theorem refl (s : Stream) : s.Carried [] none s := silent rfl rfl rfl

theorem trans (h : s.Carried events none t) (h' : t.Carried events' torn u) :
    s.Carried (events ++ events') torn u where
  escapes := h'.escapes.trans h.escapes
  outgoing := by
    rw [h'.outgoing, h.outgoing, h.escapes, writtenIn_append, Frontend.encodeAll_append]
    simp

end Carried

/-- A write of a batch puts all of it on the wire, or what escapes of it. -/
theorem write_cases (s : Stream) (batch : List Frontend) :
    (∃ s', s.write (Frontend.encodeAll batch) = (.ok (), s') ∧
        s.Carried [.wrote batch] none s') ∨
      ∃ f s', s.write (Frontend.encodeAll batch) = (.error f, s') ∧
        s.Carried [] (some batch) s' := by
  unfold write
  split
  · exact .inl ⟨_, rfl, rfl, by simp⟩
  · exact .inr ⟨_, _, rfl, rfl, by simp⟩
  · exact .inl ⟨_, rfl, rfl, by simp⟩

end Stream

namespace Session

/-- One write of a batch, with which nothing is staged any more: the batch is in the history, or
it is lost and the session is broken. -/
def send (batch : List Frontend) (s : Session) : Except Error Unit × Session :=
  match s.stream.write (Frontend.encodeAll batch) with
  | (.ok (), stream) =>
    (.ok (), { s with stream, staged := [], history := .wrote batch :: s.history })
  | (.error f, stream) => (.error (.io f), { s with stream, staged := [], broken := true })

/-- What is sent is the batch, whatever is staged beside it. -/
theorem send_staged (s : Session) (staged batch : List Frontend) :
    { s with staged }.send batch = s.send batch := rfl

/-- A write leaves alone what the server has told. -/
theorem send_rest {batch : List Frontend} {s t : Session} {r : Except Error Unit}
    (h : s.send batch = (r, t)) :
    t = { s with
      stream := t.stream, staged := t.staged, history := t.history, broken := t.broken } := by
  unfold send at h
  split at h <;> obtain ⟨-, rfl⟩ := Prod.mk.inj h <;> rfl

theorem unstaged {s : Session} (h : s.staged = []) : { s with staged := [] } = s := by
  rw [← h]

/-- What some writes have made of a session: those that were taken and then one that was refused,
if there was one, none of them empty. An error may have been held back meanwhile. -/
structure Sent (batches : List (List Frontend)) (torn : Option (List Frontend))
    (held : Option Error) (s s' : Session) : Prop where
  nonempty : [] ∉ batches ++ torn.toList
  known : s' = (s.replay (batches.map .wrote)).withIO s'
  incoming : s'.stream.incoming = s.stream.incoming
  carried : s.stream.Carried (batches.map .wrote) torn s'.stream
  deferred : s'.deferred = s.deferred.or held

namespace Sent

variable {batches batches' : List (List Frontend)} {torn : Option (List Frontend)}
  {held held' : Option Error} {s t u : Session}

theorem refl (s : Session) : s.Sent [] none none s :=
  ⟨List.not_mem_nil, rfl, rfl, .refl _, Option.or_none.symm⟩

theorem trans (h : s.Sent batches none held t) (h' : t.Sent batches' torn held' u) :
    s.Sent (batches ++ batches') torn (held.or held') u where
  nonempty hmem := by
    rw [List.append_assoc] at hmem
    exact (List.mem_append.1 hmem).elim (fun h₁ => h.nonempty (List.mem_append_left _ h₁))
      h'.nonempty
  known := by
    rw [List.map_append]
    exact known_trans h.known h'.known
  incoming := h'.incoming.trans h.incoming
  carried := by
    rw [List.map_append]
    exact h.carried.trans h'.carried
  deferred := by rw [h'.deferred, h.deferred, Option.or_assoc]

/-- Staging writes nothing. -/
theorem stage (h : s.Sent batches torn held t) (staged : List Frontend) :
    s.Sent batches torn held { t with staged } :=
  ⟨h.nonempty, congrArg (fun t' : Session => { t' with staged }) h.known, h.incoming,
    h.carried, h.deferred⟩

/-- One more error is held back. -/
theorem defer (h : s.Sent batches torn held t) (e : Option Error) :
    s.Sent batches torn (held.or e) { t with deferred := t.deferred.or e } where
  nonempty := h.nonempty
  known := congrArg (fun t' : Session => { t' with deferred := t'.deferred.or e }) h.known
  incoming := h.incoming
  carried := h.carried
  deferred := by
    show t.deferred.or e = _
    rw [h.deferred, Option.or_assoc]

end Sent

/-- A write either sends its batch and leaves the session as sound as it was, or it breaks the
session, and of its batch no more is sent than escapes. -/
theorem send_cases {batch : List Frontend} (hbatch : batch ≠ []) (s : Session) :
    (∃ t, s.send batch = (.ok (), t) ∧ s.Sent [batch] none none t ∧ t.staged = [] ∧
        t.broken = s.broken) ∨
      ∃ f t, s.send batch = (.error (.io f), t) ∧ s.Sent [] (some batch) none t ∧
        t.staged = [] ∧ t.broken = true := by
  have hnonempty : [] ∉ [batch] := fun h => hbatch (List.mem_singleton.1 h).symm
  have hin := s.stream.incoming_write (Frontend.encodeAll batch)
  unfold send
  obtain ⟨stream, hw, hcarried⟩ | ⟨f, stream, hw, hcarried⟩ := s.stream.write_cases batch
  · rw [hw] at hin ⊢
    exact .inl ⟨_, rfl, ⟨hnonempty, rfl, hin, hcarried, Option.or_none.symm⟩, rfl, rfl⟩
  · rw [hw] at hin ⊢
    exact .inr ⟨f, _, rfl, ⟨hnonempty, rfl, hin, hcarried, Option.or_none.symm⟩, rfl, rfl⟩

/-- A write that is taken is one event. -/
theorem send_ok {batch : List Frontend} {s t : Session} (hbatch : batch ≠ [])
    (h : s.send batch = (.ok (), t)) :
    t.events = s.events ++ [.wrote batch] ∧ t.staged = [] ∧ t.broken = s.broken := by
  obtain ⟨u, hu, hsent, hnone, hsame⟩ | ⟨f, u, hu, -⟩ := send_cases hbatch s
  · obtain rfl := (Prod.mk.inj (hu.symm.trans h)).2
    exact ⟨events_of_known hsent.known, hnone, hsame⟩
  · cases (Prod.mk.inj (hu.symm.trans h)).1

/-- A write that is refused leaves no event. -/
theorem send_error {batch : List Frontend} {s t : Session} {e : Error} (hbatch : batch ≠ [])
    (h : s.send batch = (.error e, t)) : t.events = s.events := by
  obtain ⟨u, hu, -⟩ | ⟨f, u, hu, hsent, -, hbroken⟩ := send_cases hbatch s
  · cases (Prod.mk.inj (hu.symm.trans h)).1
  · obtain rfl := (Prod.mk.inj (hu.symm.trans h)).2
    rw [events_of_known hsent.known, List.map_nil, List.append_nil]

end Session

/-- A flush is one write of all that is staged, if anything is. -/
theorem SessionM.flush_run (s : Session) :
    SessionM.flush.run s = if s.staged = [] then (.ok (), s) else s.send s.staged := by
  simp only [SessionM.flush, run_bind, run_get, Session.send]
  split
  · rfl
  · split <;> simp_all [run_bind]

@[simp] theorem SessionM.stage_run (m : Frontend) (s : Session) :
    (SessionM.stage m).run s = (.ok (), { s with staged := s.staged ++ [m] }) := rfl

namespace CycleM

@[simp] theorem onSession_run {α : Type} (step : SessionM α) (c : Cycle) :
    (onSession step).run c =
      ((step.run c.session).1, { c with session := (step.run c.session).2 }) := by
  simp only [onSession, run_bind, run_get]
  rcases step.run c.session with ⟨_ | a, s⟩ <;> rfl

@[simp] theorem modifySession_run (f : Session → Session) (c : Cycle) :
    (modifySession f).run c = (.ok (), { c with session := f c.session }) := rfl

@[simp] theorem setReceiver_run (r : Receiver) (c : Cycle) :
    (setReceiver r).run c = (.ok (), { c with receiver := r }) := rfl

@[simp] theorem defer_run (e : Error) (c : Cycle) :
    (defer e).run c =
      (.ok (), { c with session :=
        { c.session with deferred := c.session.deferred.or (some e) } }) := rfl

/-- Sending one message with nothing staged is one write of it. -/
theorem send_run {c : Cycle} (m : Frontend) (h : c.session.staged = []) :
    (send m).run c =
      ((c.session.send [m]).1, { c with session := (c.session.send [m]).2 }) := by
  simp only [send, onSession_run, run_bind, SessionM.stage_run, SessionM.flush_run, h,
    List.nil_append, List.cons_ne_nil, if_false]
  rfl

/-! ## Copying -/

/-- One part of a source: it is staged, and sent with all that waits if that is enough. -/
theorem stageChunk_run (m : Frontend) (c : Cycle) :
    (onSession (do
      SessionM.stage m
      if copyFlushSize ≤ (← get).stagedSize then SessionM.flush)).run c =
      let s := { c.session with staged := c.session.staged ++ [m] }
      let sent := if copyFlushSize ≤ s.stagedSize then s.send s.staged else (.ok (), s)
      (sent.1, { c with session := sent.2 }) := by
  simp only [onSession_run, run_bind, SessionM.stage_run, run_get]
  split
  · simp only [SessionM.flush_run, List.append_ne_nil_of_right_ne_nil _ (List.cons_ne_nil m []),
      if_false]
  · rfl

/-- The parts of a source are sent in order; what is not sent yet is staged, unless a write was
refused. That write goes on where the others have ended. -/
theorem sendChunks_cases {chunks : List Bytes} {c c' : Cycle} {r : Except Error Unit}
    (h : (sendChunks chunks).run c = (r, c')) :
    c'.receiver = c.receiver ∧ ∃ batches torn, c.session.Sent batches torn none c'.session ∧
      ((r = .ok () ∧ torn = none ∧ c'.session.broken = c.session.broken ∧
          batches.flatten ++ c'.session.staged =
            c.session.staged ++ chunks.map Frontend.copyData) ∨
        (∃ e, r = .error e) ∧ c'.session.staged = [] ∧
          (batches ++ torn.toList).flatten <+:
            c.session.staged ++ chunks.map Frontend.copyData) := by
  induction chunks generalizing c with
  | nil =>
    obtain ⟨rfl, rfl⟩ := Prod.mk.inj h
    exact ⟨rfl, [], none, .refl _, .inl ⟨rfl, rfl, rfl, by simp⟩⟩
  | cons chunk chunks ih =>
    -- `t` is the session with the first part staged.
    obtain ⟨t, ht⟩ : ∃ t, t = { c.session with
      staged := c.session.staged ++ [Frontend.copyData chunk] } := ⟨_, rfl⟩
    have hstage : c.session.Sent [] none none t := ht ▸ (Session.Sent.refl _).stage _
    have hstaged : t.staged = c.session.staged ++ [Frontend.copyData chunk] := ht ▸ rfl
    have hbroken : t.broken = c.session.broken := ht ▸ rfl
    rw [sendChunks, run_bind, stageChunk_run, ← ht] at h
    dsimp only at h
    by_cases enough : copyFlushSize ≤ t.stagedSize
    · rw [if_pos enough] at h
      obtain ⟨u, hu, hsent, hnone, hsame⟩ | ⟨f, u, hu, hsent, hnone, -⟩ :=
        Session.send_cases
          (hstaged ▸ List.append_ne_nil_of_right_ne_nil _ (List.cons_ne_nil _ [])) t
      -- The write takes all that waits, so that the rest starts with nothing staged.
      · rw [hu] at h
        obtain ⟨hreceiver, batches, torn, hrest, hcase⟩ := ih h
        refine ⟨hreceiver, [] ++ [t.staged] ++ batches, torn, (hstage.trans hsent).trans hrest, ?_⟩
        simp only [List.nil_append, List.cons_append, List.flatten_cons, List.append_assoc,
          List.map_cons, hnone, hstaged, hsame, hbroken] at hcase ⊢
        obtain ⟨hr, hwhole, hb, hall⟩ | ⟨hr, hs, hpre⟩ := hcase
        · exact .inl ⟨hr, hwhole, hb, by rw [hall]⟩
        · refine .inr ⟨hr, hs, ?_⟩
          exact (List.prefix_append_right_inj _).2 ((List.prefix_append_right_inj [_]).2 hpre)
      · rw [hu] at h
        obtain ⟨rfl, rfl⟩ := Prod.mk.inj h
        refine ⟨rfl, [] ++ [], some t.staged, hstage.trans hsent, .inr ⟨⟨_, rfl⟩, hnone, ?_⟩⟩
        exact ⟨chunks.map Frontend.copyData, by simp [hstaged]⟩
    -- The first part waits for the others.
    · rw [if_neg enough] at h
      obtain ⟨hreceiver, batches, torn, hrest, hcase⟩ := ih h
      refine ⟨hreceiver, [] ++ batches, torn, hstage.trans hrest, ?_⟩
      simpa only [List.nil_append, List.append_assoc, List.map_cons, List.cons_append, hstaged,
        hbroken] using hcase

end CycleM

end PgClient
