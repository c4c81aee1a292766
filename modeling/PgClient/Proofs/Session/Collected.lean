/-
  PgClient.Proofs.Session.Collected

  What an execution collects. In a cycle that brings no error each message adds
  to the rows, the counts and the copy streams in one of a few ways, and the
  server version reported last decides which verbs count. A property that these
  additions keep holds at the end of the cycle (`Session.cycle_collects`).
-/
import PgClient.Proofs.Session.Rows

namespace PgClient

/-! ## The verbs in force -/

/-- The server version that a message reports. -/
def Backend.version? : Backend → Option String
  | .parameterStatus name value => if name = "server_version" then some value else none
  | _ => none

/-- The verbs that report a row count, after all that the server has said: those of the version
that it reported last. -/
def verbsInForce (messages : List Backend) : List String :=
  (messages.filterMap Backend.version?).getLast?.elim countVerbs countVerbsFor

theorem verbsInForce_concat (messages : List Backend) (m : Backend) :
    verbsInForce (messages ++ [m]) = m.version?.elim (verbsInForce messages) countVerbsFor := by
  unfold verbsInForce
  rw [List.filterMap_append]
  cases hversion : m.version? with
  | none => rw [List.filterMap_cons_none hversion, List.filterMap_nil, List.append_nil]; rfl
  | some version =>
    rw [List.filterMap_cons_some hversion, List.filterMap_nil, List.getLast?_concat]
    rfl

namespace Session

theorem countVerbs_noted (s : Session) (m : Backend) :
    (s.noted m).countVerbs = m.version?.elim s.countVerbs countVerbsFor := by
  cases m with
  | parameterStatus name value =>
    simp only [noted, setParameter, applyParameter, Backend.version?]
    split
    · cases ClientEncoding.ofServerName? value <;> rfl
    · rfl
    · rfl
    · cases Integer.readInt32 (Text.trim value.toList) <;> rfl
    · rename_i hversion _
      rw [if_neg hversion]
      rfl
  | commandComplete tag =>
    simp only [noted]
    split <;> rfl
  | _ => rfl

/-- The verbs that a session counts are those in force after all that it has received. -/
def Versed (s : Session) : Prop := s.countVerbs = verbsInForce s.received

theorem received_replay (s : Session) (added : List Event) :
    (s.replay added).received = s.received ++ receivedIn added := by
  rw [received_eq, Session.events, history_replay, List.reverse_append, List.reverse_reverse,
    receivedIn_append]
  rfl

theorem Versed.replay {s : Session} (h : s.Versed) (added : List Event) :
    (s.replay added).Versed := by
  induction added generalizing s with
  | nil => exact h
  | cons e added ih =>
    refine ih (s := s.observe e) ?_
    have hreceived : (s.observe e).received = s.received ++ receivedIn [e] :=
      received_replay s [e]
    cases e with
    | wrote batch =>
      rw [Versed, hreceived, receivedIn_wrote, receivedIn_nil, List.append_nil]
      exact h
    | received m =>
      rw [Versed, hreceived, receivedIn_received, receivedIn_nil, verbsInForce_concat, ← h]
      exact countVerbs_noted s m

/-- What is known of a session keeps it versed. -/
theorem Versed.known {events : List Event} {s s' : Session} (h : s.Versed)
    (hknown : s' = (s.replay events).withIO s') : s'.Versed := by
  have hreplay : s'.countVerbs = verbsInForce s'.received := by
    rw [hknown]
    exact h.replay events
  exact hreplay

end Session

/-- The verbs that count after a step are those that its message leaves in force. -/
theorem Cycle.Step.countVerbs {m : Backend} {batches : List (List Frontend)} {c c' : Cycle}
    (h : Step m batches c c') :
    c'.session.countVerbs = m.version?.elim c.session.countVerbs countVerbsFor := by
  have hwrites (s : Session) (batches : List (List Frontend)) :
      (s.replay (batches.map .wrote)).countVerbs = s.countVerbs := by
    induction batches generalizing s with
    | nil => rfl
    | cons batch batches ih => exact ih (s.observe (.wrote batch))
  rw [congrArg Session.countVerbs h.ran.known]
  show ((c.session.observe (.received m)).replay (batches.map .wrote)).countVerbs = _
  rw [hwrites]
  exact Session.countVerbs_noted c.session m

/-! ## One message -/

/-- Whether a message adds to what an execution collects. -/
def Backend.isCollected : Backend → Bool
  | .dataRow _ | .commandComplete _ | .copyData _ | .copyIn .. | .copyOut .. => true
  | _ => false

/-- What a message that is not refused adds to the outcome of an execution and its streams. -/
inductive Session.Collects (s : Session) (columns : List Column) (outcome : Outcome)
    (copy : CopyStreams) : Backend → Outcome → CopyStreams → Prop
  | row {values : List (Option Bytes)} {row : Row}
    (decoded : CycleM.decodeRow s.context columns values = .ok row) :
    s.Collects columns outcome copy (.dataRow values)
      { outcome with
        rows := outcome.rows ++ [row]
        rowsInCommand := outcome.rowsInCommand + 1 } copy
  | completed (tag : String) :
    s.Collects columns outcome copy (.commandComplete tag)
      (CycleM.completed s.countVerbs tag outcome) copy
  | written {data : Bytes} {sink sink' : CopySink} (has : copy.sink = some sink)
    (taken : sink.write data = .ok sink') :
    s.Collects columns outcome copy (.copyData data) outcome { copy with sink := some sink' }
  | unwritten {data : Bytes} (has : copy.sink = none) :
    s.Collects columns outcome copy (.copyData data) outcome copy
  | sent (format : Format) (formats : List Format) :
    s.Collects columns outcome copy (.copyIn format formats) outcome
      { copy with source := copy.source.map CopySource.exhausted }
  | begun {format : Format} {formats : List Format} (has : copy.sink.isSome = true) :
    s.Collects columns outcome copy (.copyOut format formats) outcome copy
  | other {m : Backend} (uncollected : m.isCollected = false) :
    s.Collects columns outcome copy m outcome copy

/-- A message that is not refused adds in one of these ways. -/
theorem Receiver.collects {s : Session} {columns : List Column} {outcome : Outcome}
    {copy : CopyStreams} {m : Backend}
    (h : refusal s (.rows columns outcome copy) m = none) :
    ∃ outcome' copy', next s (.rows columns outcome copy) m = .rows columns outcome' copy' ∧
      s.Collects columns outcome copy m outcome' copy' := by
  cases m with
  | dataRow values =>
    cases decoded : CycleM.decodeRow s.context columns values with
    | ok row =>
      simp only [next, decoded]
      exact ⟨_, _, rfl, .row decoded⟩
    | error e =>
      simp only [refusal, decoded] at h
      cases h
  | commandComplete tag => exact ⟨_, _, rfl, .completed tag⟩
  | copyData data =>
    obtain ⟨source, _ | sink⟩ := copy
    · exact ⟨_, _, rfl, .unwritten rfl⟩
    · cases taken : sink.write data with
      | ok sink' =>
        simp only [next, taken]
        exact ⟨_, _, rfl, .written rfl taken⟩
      | error reason =>
        simp only [refusal, taken] at h
        cases h
  | copyIn format formats => exact ⟨_, _, rfl, .sent format formats⟩
  | copyOut format formats =>
    refine ⟨outcome, copy, rfl, .begun ?_⟩
    rw [refusal] at h
    by_contra has
    have hrefused : (some (Error.copy .noSink)) = none := (if_neg has).symm.trans h
    cases hrefused
  | _ => exact ⟨outcome, copy, rfl, .other rfl⟩

/-! ## A cycle -/

/-- A property of the messages of an execution so far, and of what it has collected of them, which
every message keeps; the end of the cycle adds nothing to it. The messages before the execution
are `past`, and its streams are `copy` at first. -/
structure Collecting (columns : List Column) (past : List Backend) (copy : CopyStreams)
    (P : List Backend → Outcome → CopyStreams → Prop) : Prop where
  start : P [] {} copy
  step {s : Session} {messages : List Backend} {m : Backend} {outcome outcome' : Outcome}
    {copy copy' : CopyStreams} (verbs : s.countVerbs = verbsInForce (past ++ messages))
    (collects : s.Collects columns outcome copy m outcome' copy')
    (before : P messages outcome copy) : P (messages ++ [m]) outcome' copy'
  ready {messages : List Backend} {status : TransactionStatus} {outcome : Outcome}
    {copy : CopyStreams} (after : P (messages ++ [.readyForQuery status]) outcome copy) :
    P messages outcome copy

section Cycles

variable {columns : List Column} {past : List Backend} {copy : CopyStreams}
  {P : List Backend → Outcome → CopyStreams → Prop}

/-- A run that holds no error back keeps the property. -/
theorem Cycle.Runs.collects {c c' : Cycle} {events : List Event}
    (hcollecting : Collecting columns past copy P) (h : Runs c events c')
    {messages : List Backend} {outcome : Outcome} {lent : CopyStreams}
    (hreceiver : c.receiver = .rows columns outcome lent) (hnone : c'.session.deferred = none)
    (hverbs : c.session.countVerbs = verbsInForce (past ++ messages))
    (hP : P messages outcome lent) :
    ∃ outcome' copy', c'.receiver = .rows columns outcome' copy' ∧
      P (messages ++ receivedIn events) outcome' copy' := by
  induction h generalizing messages outcome lent with
  | refl c => exact ⟨outcome, lent, hreceiver, by rwa [receivedIn_nil, List.append_nil]⟩
  | @step c c₁ c₂ m batches events first rest ih =>
    -- No error is held back in the end, so none was for this message.
    obtain ⟨-, hrefusal, hnext⟩ :=
      (first_accepted first rest hnone).of_rows (by rw [hreceiver]; rfl)
    rw [hreceiver] at hrefusal hnext
    obtain ⟨outcome₁, copy₁, hreceiver₁, hcollects⟩ := Receiver.collects hrefusal.symm
    have hverbs₁ : c₁.session.countVerbs = verbsInForce (past ++ (messages ++ [m])) := by
      rw [first.countVerbs, hverbs, ← List.append_assoc, verbsInForce_concat]
    obtain ⟨outcome', copy', hreceiver', hP'⟩ :=
      ih (hnext.trans hreceiver₁) hnone hverbs₁ (hcollecting.step hverbs hcollects hP)
    refine ⟨outcome', copy', hreceiver', ?_⟩
    rw [receivedIn_append, receivedIn_handled]
    rwa [List.append_assoc] at hP'

/-- The cycle of an execution that went without an error has the property at its end. -/
theorem Session.cycle_collects {s t : Session} {receiver : Receiver} {body : List Event}
    {status : TransactionStatus} (hcollecting : Collecting columns past copy P)
    (hs : s.staged = []) (hb : s.broken = false) (hverbs : s.countVerbs = verbsInForce past)
    (h : s.cycle (.rows columns {} copy) = (.ok (), receiver, t))
    (hevents : t.events = s.events ++ (body ++ [.received (.readyForQuery status)])) :
    ∃ outcome copy', receiver = .rows columns outcome copy' ∧
      P (receivedIn body) outcome copy' := by
  obtain ⟨held, events, hr, hcompleted⟩ | ⟨e, events, hr, -⟩ := cycle_cases hs hb h
  · obtain rfl : held = none := by
      cases held with
      | none => rfl
      | some e => cases hr
    obtain ⟨-, hadded⟩ := hcompleted.answering hs
    obtain rfl := List.append_cancel_left (hadded.symm.trans hevents)
    obtain ⟨outcome, copy', hreceiver, hP⟩ := hcompleted.runs.collects hcollecting rfl rfl
      (by rw [List.append_nil]; exact hverbs) hcollecting.start
    have hafter : P (receivedIn body ++ [.readyForQuery status]) outcome copy' := by
      rwa [List.nil_append, receivedIn_append] at hP
    exact ⟨outcome, copy', hreceiver, hcollecting.ready hafter⟩
  · cases hr

end Cycles

end PgClient
