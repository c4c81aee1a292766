/-
  PgClient.Proofs.Session.Sinks

  Copies from the server. The sink of an execution is given the data of its
  cycle part by part. What becomes of it there changes nothing but the error that
  is held back: a session goes through the cycle as it would with any other sink
  or with none.
-/
import PgClient.Proofs.Session.Collected

namespace PgClient

open Steps

/-! ## What a sink is given -/

/-- The data that a message brings for the sink. -/
def Backend.copied? : Backend → Option Bytes
  | .copyData data => some data
  | _ => none

/-- The parts of a copy among some messages, in order. -/
def copiedParts (messages : List Backend) : List Bytes := messages.filterMap Backend.copied?

theorem copiedParts_concat (messages : List Backend) (m : Backend) :
    copiedParts (messages ++ [m]) = copiedParts messages ++ m.copied?.toList := by
  rw [copiedParts, List.filterMap_append]
  cases hdata : m.copied? with
  | none => rw [List.filterMap_cons_none hdata]; rfl
  | some data => rw [List.filterMap_cons_some hdata]; rfl

namespace CopySink

/-- Some writes, one after the other, up to the first that is refused. -/
def writeAll (sink : CopySink) (parts : List Bytes) : Except String CopySink :=
  parts.foldlM write sink

theorem writeAll_concat (sink : CopySink) (parts : List Bytes) (data : Bytes) :
    sink.writeAll (parts ++ [data]) = (sink.writeAll parts).bind (write · data) := by
  rw [writeAll, List.foldlM_append]
  exact congrArg _ (funext fun sink' => bind_pure _)

theorem write_ok {sink sink' : CopySink} {data : Bytes} (h : sink.write data = .ok sink') :
    sink' = { sink with received := sink.received ++ data } := by
  unfold write at h
  split at h
  · rename_i hempty
    rw [hempty, List.append_nil]
    exact (Except.ok.inj h).symm
  · split at h
    · exact (Except.ok.inj h).symm
    · cases h

/-- A sink that has taken all writes has received all of their data. -/
theorem writeAll_ok {sink sink' : CopySink} {parts : List Bytes}
    (h : sink.writeAll parts = .ok sink') :
    sink' = { sink with received := sink.received ++ parts.flatten } := by
  induction parts generalizing sink with
  | nil =>
    rw [List.flatten_nil, List.append_nil]
    exact (Except.ok.inj h).symm
  | cons data parts ih =>
    rw [writeAll, List.foldlM_cons, Steps.bind_eq_ok_iff] at h
    obtain ⟨next, hwrite, hrest⟩ := h
    rw [ih hrest, write_ok hwrite, List.flatten_cons, List.append_assoc]

end CopySink

/-- What an execution without an error has given to its sink: all data of its messages. A copy that
they announce has a sink. -/
structure Delivered (sink : Option CopySink) (messages : List Backend)
    (sink' : Option CopySink) : Prop where
  announced {format : Format} {formats : List Format}
    (among : .copyOut format formats ∈ messages) : sink.isSome = true
  written : sink.map (·.writeAll (copiedParts messages)) = sink'.map .ok

namespace Delivered

variable {sink sink' sink'' : Option CopySink} {messages : List Backend} {m : Backend}

theorem concat (h : Delivered sink messages sink')
    (hannounced : (∃ format formats, m = .copyOut format formats) → sink.isSome = true)
    (hwritten : sink'.map (fun s => m.copied?.elim (.ok s) s.write) = sink''.map .ok) :
    Delivered sink (messages ++ [m]) sink'' where
  announced {format formats} among := by
    obtain among | among := List.mem_append.1 among
    · exact h.announced among
    · exact hannounced ⟨format, formats, (List.mem_singleton.1 among).symm⟩
  written := by
    have hbefore := h.written
    rw [← hwritten, copiedParts_concat]
    cases sink with
    | none =>
      cases sink' with
      | none => rfl
      | some s => cases hbefore
    | some s =>
      cases sink' with
      | none => cases hbefore
      | some s' =>
        have htaken : s.writeAll (copiedParts messages) = .ok s' := Option.some.inj hbefore
        cases m.copied? with
        | none =>
          rw [Option.toList_none, List.append_nil]
          exact hbefore
        | some data =>
          show some (s.writeAll (_ ++ [data])) = some (s'.write data)
          rw [CopySink.writeAll_concat, htaken]
          rfl

/-- The sink has taken every write. -/
theorem taken {s : CopySink} (h : Delivered sink messages sink') (hsink : sink = some s) :
    ∃ s', s.writeAll (copiedParts messages) = .ok s' ∧ sink' = some s' := by
  have hwritten := h.written
  rw [hsink] at hwritten
  obtain ⟨s', hsink', htaken⟩ := Option.map_eq_some_iff.1 hwritten.symm
  exact ⟨s', htaken.symm, hsink'⟩

/-- It has received the data of all messages, one after the other. -/
theorem received {s : CopySink} (h : Delivered sink messages sink') (hsink : sink = some s) :
    sink' = some { s with received := s.received ++ (copiedParts messages).flatten } := by
  obtain ⟨s', htaken, hsink'⟩ := h.taken hsink
  rw [hsink', CopySink.writeAll_ok htaken]

end Delivered

/-- Two cycles of one execution that differ at most in the sink and in the error held back. -/
inductive Cycle.Alike : Cycle → Cycle → Prop
  | intro (s : Session) (deferred : Option Error) (columns : List Column) (outcome : Outcome)
    (source : Option CopySource) (sink sink' : Option CopySink) :
    Alike ⟨s, .rows columns outcome ⟨source, sink⟩⟩
      ⟨{ s with deferred }, .rows columns outcome ⟨source, sink'⟩⟩

/-- Cycles of which each holds an error of its own back. -/
theorem Cycle.Alike.held (s : Session) (deferred deferred' : Option Error) (columns : List Column)
    (outcome : Outcome) (source : Option CopySource) (sink sink' : Option CopySink) :
    Alike ⟨{ s with deferred }, .rows columns outcome ⟨source, sink⟩⟩
      ⟨{ s with deferred := deferred' }, .rows columns outcome ⟨source, sink'⟩⟩ :=
  .intro { s with deferred } ..

namespace Session

/-- A write does not look at the error held back. -/
theorem send_deferred (batch : List Frontend) (s : Session) (deferred : Option Error) :
    { s with deferred }.send batch =
      ((s.send batch).1, { (s.send batch).2 with deferred }) := by
  unfold send
  dsimp only
  rcases s.stream.write (Frontend.encodeAll batch) with ⟨e | ⟨⟨⟩⟩, stream⟩ <;> rfl

theorem flush_deferred (s : Session) (deferred : Option Error) :
    SessionM.flush.run { s with deferred } =
      ((SessionM.flush.run s).1, { (SessionM.flush.run s).2 with deferred }) := by
  rw [SessionM.flush_run, SessionM.flush_run]
  by_cases hs : s.staged = []
  · rw [if_pos hs, if_pos hs]
  · rw [if_neg hs, if_neg hs]
    exact send_deferred s.staged s deferred

theorem receive_deferred (s : Session) (deferred : Option Error) :
    SessionM.receive.run { s with deferred } =
      ((SessionM.receive.run s).1, { (SessionM.receive.run s).2 with deferred }) := by
  simp only [SessionM.receive, run_bind, run_get]
  rcases (Receive.message s.version).run s.stream.incoming with ⟨e | m, incoming⟩ <;> rfl

theorem noted_deferred (s : Session) (deferred : Option Error) (m : Backend) :
    { s with deferred }.noted m = { s.noted m with deferred } := by
  rw [noted_eq_withIO s m]
  exact noted_withIO s { s with deferred } m

end Session

/-- Only the sink is changed by the data for it, and nothing else depends on it. -/
theorem Receiver.next_sinks (s : Session) (deferred : Option Error) (columns : List Column)
    (outcome : Outcome) (source : Option CopySource) (sink sink' : Option CopySink)
    (m : Backend) :
    ∃ outcome' source' next next',
      (Receiver.rows columns outcome ⟨source, sink⟩).next s m =
          .rows columns outcome' ⟨source', next⟩ ∧
        (Receiver.rows columns outcome ⟨source, sink'⟩).next { s with deferred } m =
          .rows columns outcome' ⟨source', next'⟩ := by
  -- Only here the two may come apart: one sink may refuse what the other takes.
  have kept (sink : Option CopySink) (s : Session) (data : Bytes) : ∃ next,
      (Receiver.rows columns outcome ⟨source, sink⟩).next s (.copyData data) =
        .rows columns outcome ⟨source, next⟩ := by
    cases sink with
    | none => exact ⟨none, rfl⟩
    | some sink =>
      unfold Receiver.next
      dsimp only
      split <;> exact ⟨_, rfl⟩
  cases m with
  | dataRow values =>
    unfold Receiver.next
    dsimp only
    split <;> exact ⟨_, _, _, _, rfl, rfl⟩
  | copyData data =>
    obtain ⟨next, hnext⟩ := kept sink s data
    obtain ⟨next', hnext'⟩ := kept sink' { s with deferred } data
    exact ⟨outcome, source, next, next', hnext, hnext'⟩
  | _ => exact ⟨_, _, _, _, rfl, rfl⟩

namespace CycleM

/-- A step comes out the same, whatever the sink is and whichever error is held back. -/
def Oblivious {α : Type} (x : CycleM α) : Prop :=
  ∀ c c' : Cycle, c.Alike c' → (x.run c').1 = (x.run c).1 ∧ (x.run c).2.Alike (x.run c').2

namespace Oblivious

variable {α β : Type}

theorem bind {x : CycleM α} {f : α → CycleM β} (hx : Oblivious x) (hf : ∀ a, Oblivious (f a)) :
    Oblivious (x >>= f) := by
  intro c c' h
  obtain ⟨hresult, halike⟩ := hx c c' h
  rw [run_bind, run_bind]
  rcases hrun : x.run c with ⟨r, d⟩
  rcases hrun' : x.run c' with ⟨r', d'⟩
  rw [hrun, hrun'] at hresult halike
  obtain rfl : r' = r := hresult
  cases r' with
  | error e => exact ⟨rfl, halike⟩
  | ok a => exact hf a d d' halike

theorem pure (a : α) : Oblivious (Pure.pure a : CycleM α) := fun _ _ h => ⟨rfl, h⟩

theorem throw (e : Error) : Oblivious (MonadExcept.throw e : CycleM α) := fun _ _ h => ⟨rfl, h⟩

theorem defer (e : Error) : Oblivious (CycleM.defer e) := by
  rintro _ _ ⟨s, deferred, columns, outcome, source, sink, sink'⟩
  exact ⟨rfl, .held s ..⟩

/-- A step of the session that does not look at the error held back. -/
theorem onSession {step : SessionM α}
    (h : ∀ s : Session, ∀ deferred,
      step.run { s with deferred } = ((step.run s).1, { (step.run s).2 with deferred })) :
    Oblivious (CycleM.onSession step) := by
  rintro _ _ ⟨s, deferred, columns, outcome, source, sink, sink'⟩
  rw [onSession_run, onSession_run, h s deferred]
  exact ⟨rfl, .intro ..⟩

theorem sendChunks (chunks : List Bytes) : Oblivious (CycleM.sendChunks chunks) := by
  induction chunks with
  | nil => exact pure _
  | cons chunk chunks ih =>
    refine bind ?_ fun _ => ih
    rintro _ _ ⟨s, deferred, columns, outcome, source, sink, sink'⟩
    rw [stageChunk_run, stageChunk_run]
    dsimp only
    -- Both wait, or both send all that waits.
    by_cases enough : copyFlushSize ≤
        Session.stagedSize { s with staged := s.staged ++ [.copyData chunk] }
    · rw [if_pos enough, if_pos (by exact enough)]
      have hsend := Session.send_deferred (s.staged ++ [.copyData chunk])
        { s with staged := s.staged ++ [.copyData chunk] } deferred
      rw [show ({ s with staged := _, deferred := deferred } : Session).send _ = _ from hsend]
      exact ⟨rfl, .intro ..⟩
    · rw [if_neg enough, if_neg (by exact enough)]
      exact ⟨rfl, .intro { s with staged := _ } ..⟩

theorem stage (f : Frontend) : Oblivious (CycleM.onSession (SessionM.stage f)) :=
  onSession fun _ _ => rfl

theorem flush : Oblivious (CycleM.onSession SessionM.flush) :=
  onSession Session.flush_deferred

theorem copyIn (source : Option CopySource) : Oblivious (CycleM.copyIn source) := by
  cases source with
  | none =>
    refine bind (onSession fun s deferred => ?_) fun _ => defer _
    rw [run_bind, run_bind, SessionM.stage_run, SessionM.stage_run]
    exact Session.flush_deferred { s with staged := _ } deferred
  | some source =>
    refine (sendChunks source.chunks).bind fun _ => ?_
    dsimp only
    cases source.failure with
    | none => exact (stage _).bind fun _ => flush
    | some reason => exact (stage _).bind fun _ => (defer _).bind fun _ => flush

/-- Every message is handled so. -/
theorem handle (m : Backend) : Oblivious (CycleM.handle m) := by
  rintro _ _ ⟨s, deferred, columns, outcome, source, sink, sink'⟩
  have quiet (unasked : ∀ request, m ≠ .authentication request)
      (uncopied : ∀ format columns, m ≠ .copyIn format columns) :
      ((CycleM.handle m).run ⟨{ s with deferred }, .rows columns outcome ⟨source, sink'⟩⟩).1 =
          ((CycleM.handle m).run ⟨s, .rows columns outcome ⟨source, sink⟩⟩).1 ∧
        ((CycleM.handle m).run ⟨s, .rows columns outcome ⟨source, sink⟩⟩).2.Alike
          ((CycleM.handle m).run
            ⟨{ s with deferred }, .rows columns outcome ⟨source, sink'⟩⟩).2 := by
    rw [handle_quiet unasked uncopied, handle_quiet unasked uncopied]
    refine ⟨rfl, ?_⟩
    dsimp only
    obtain ⟨outcome', source', next, next', hnext, hnext'⟩ :=
      Receiver.next_sinks s deferred columns outcome source sink sink' m
    rw [Session.noted_deferred s deferred, hnext, hnext']
    exact .held (s.noted m) ..
  cases m with
  | authentication request => exact ⟨rfl, .intro ..⟩
  | copyIn format formats =>
    simp only [CycleM.handle, run_bind, run_get, setReceiver_run]
    exact copyIn source _ _ (.intro ..)
  | _ => exact quiet (by simp) (by simp)

theorem untilReady (bound : Nat) : Oblivious (CycleM.untilReady bound) := by
  induction bound with
  | zero => exact throw _
  | succ bound ih =>
    refine (onSession Session.receive_deferred).bind fun m => (handle m).bind fun _ => ?_
    cases m with
    | readyForQuery status => exact pure _
    | _ => exact ih

end Oblivious

end CycleM

end PgClient
