/-
  PgClient.Proofs.Session.Cycle

  What a cycle does. A cycle is a run of messages, each of which takes its frame
  from the stream and is answered before the next one is read. Either the run
  ends with the first ReadyForQuery, or something went wrong on the way and the
  session is broken.

  An exchange is one write and the cycle that it calls for. All that a
  connection does with its server is a row of exchanges.
-/
import PgClient.Proofs.Message.Framing
import PgClient.Proofs.Session.Handling

namespace PgClient

open Steps

/-! ## Kinds of messages -/

/-- Whether a message ends a cycle. -/
def Backend.isReady : Backend → Bool
  | .readyForQuery _ => true
  | _ => false

theorem Backend.isReady_iff {m : Backend} :
    m.isReady = true ↔ ∃ status, m = .readyForQuery status := by
  constructor
  · intro h
    cases m with
    | readyForQuery status => exact ⟨status, rfl⟩
    | _ => cases h
  · rintro ⟨status, rfl⟩
    rfl

/-- Whether a message is sent inside a cycle, as an answer to the server. -/
def Frontend.isAnswer : Frontend → Bool
  | .password _ | .saslInitial .. | .saslResponse _ => true
  | .copyData _ | .copyDone | .copyFail _ => true
  | _ => false

theorem isAnswer_of_mem_copyAnswer {source : Option CopySource} {f : Frontend}
    (hf : f ∈ copyAnswer source) : f.isAnswer = true := by
  cases source with
  | none =>
    rw [List.mem_singleton.1 hf]
    rfl
  | some source =>
    rcases List.mem_append.1 hf with hf | hf
    · obtain ⟨chunk, -, rfl⟩ := List.mem_map.1 hf
      rfl
    · rw [List.mem_singleton.1 hf]
      split <;> rfl

theorem Receiver.Handles.isAnswer {s : Session} {r r' : Receiver} {m : Backend}
    {answer : List Frontend} {held : Option Error} (h : r.Handles s m answer held r')
    {f : Frontend} (hf : f ∈ answer) : f.isAnswer = true := by
  cases h with
  | challenge startup replied =>
    cases replied with
    | ok | saslFinal => cases hf
    | cleartext | md5 | sasl | saslContinue =>
      rw [List.mem_singleton.1 hf]
      rfl
  | message unasked =>
    cases m with
    | copyIn format columns => exact isAnswer_of_mem_copyAnswer hf
    | _ => cases hf

/-- No message of some events ends a cycle. -/
def Unready (events : List Event) : Prop := ∀ m ∈ receivedIn events, m.isReady = false

/-- All that some events wrote are answers. -/
def Answering (events : List Event) : Prop := ∀ f ∈ writtenIn events, f.isAnswer = true

theorem Unready.nil : Unready [] := fun _ h => nomatch h

theorem Unready.append {events events' : List Event} (h : Unready events)
    (h' : Unready events') : Unready (events ++ events') := by
  intro m hm
  rw [receivedIn_append] at hm
  exact (List.mem_append.1 hm).elim (h m) (h' m)

theorem Answering.nil : Answering [] := fun _ h => nomatch h

theorem Answering.append {events events' : List Event} (h : Answering events)
    (h' : Answering events') : Answering (events ++ events') := by
  intro f hf
  rw [writtenIn_append] at hf
  exact (List.mem_append.1 hf).elim (h f) (h' f)

theorem Unready.tail {e : Event} {events : List Event} (h : Unready (e :: events)) :
    Unready events := by
  intro m hm
  refine h m ?_
  cases e with
  | wrote batch => exact hm
  | received m' => exact List.mem_cons_of_mem _ hm

theorem Answering.tail {e : Event} {events : List Event} (h : Answering (e :: events)) :
    Answering events := by
  intro f hf
  refine h f ?_
  cases e with
  | wrote batch => exact List.mem_append_right _ hf
  | received m => exact hf

theorem Unready.left {events events' : List Event} (h : Unready (events ++ events')) :
    Unready events := by
  intro m hm
  refine h m ?_
  rw [receivedIn_append]
  exact List.mem_append_left _ hm

theorem Answering.left {events events' : List Event} (h : Answering (events ++ events')) :
    Answering events := by
  intro f hf
  refine h f ?_
  rw [writtenIn_append]
  exact List.mem_append_left _ hf

/-- A cycle has one end. -/
theorem Unready.append_inj {body body' rest rest' : List Event}
    {status status' : TransactionStatus} (h : Unready body) (h' : Unready body')
    (heq : body ++ .received (.readyForQuery status) :: rest =
      body' ++ .received (.readyForQuery status') :: rest') : body = body' ∧ rest = rest' := by
  -- A ReadyForQuery cannot stand in front of events that are not ready.
  have hfirst {e : Event} {events : List Event} {status : TransactionStatus}
      (hevents : Unready (e :: events)) : e ≠ .received (.readyForQuery status) := by
    rintro rfl
    cases hevents _ List.mem_cons_self
  induction body generalizing body' with
  | nil =>
    cases body' with
    | nil => exact ⟨rfl, (List.cons.inj heq).2⟩
    | cons e body' => exact absurd (List.cons.inj heq).1.symm (hfirst h')
  | cons e body ih =>
    cases body' with
    | nil => exact absurd (List.cons.inj heq).1 (hfirst h)
    | cons e' body' =>
      obtain ⟨rfl, htails⟩ := List.cons.inj heq
      obtain ⟨rfl, hrest⟩ := ih h.tail h'.tail htails
      exact ⟨rfl, hrest⟩

/-- What came of one message: it was received, and then answered in some writes. -/
def handled (m : Backend) (batches : List (List Frontend)) : List Event :=
  .received m :: batches.map .wrote

@[simp] theorem writtenIn_handled (m : Backend) (batches : List (List Frontend)) :
    writtenIn (handled m batches) = batches.flatten := by
  rw [handled, writtenIn_received, writtenIn_wrotes]

@[simp] theorem receivedIn_handled (m : Backend) (batches : List (List Frontend)) :
    receivedIn (handled m batches) = [m] := by
  rw [handled, receivedIn_received, receivedIn_wrotes]

theorem Unready.handled {m : Backend} {batches : List (List Frontend)}
    (h : m.isReady = false) : Unready (handled m batches) := by
  intro m' hm
  rw [receivedIn_handled] at hm
  rw [List.mem_singleton.1 hm, h]

theorem Answering.handled {m : Backend} {batches : List (List Frontend)}
    (h : ∀ f ∈ batches.flatten, f.isAnswer = true) : Answering (handled m batches) := by
  intro f hf
  rw [writtenIn_handled] at hf
  exact h f hf

/-! ## Reading -/

namespace Session

/-- The session after some answering events, with nothing staged. -/
structure Ran (events : List Event) (s s' : Session) : Prop where
  known : s' = (s.replay events).withIO s'
  staged : s'.staged = []
  answering : Answering events

theorem Ran.refl {s : Session} (hs : s.staged = []) : Ran [] s s := ⟨rfl, hs, .nil⟩

theorem Ran.trans {events events' : List Event} {s t u : Session} (h : Ran events s t)
    (h' : Ran events' t u) : Ran (events ++ events') s u where
  known := known_trans h.known h'.known
  staged := h'.staged
  answering := h.answering.append h'.answering

/-- The session that has read a message and done nothing about it yet. -/
def heard (s : Session) (m : Backend) (incoming : Incoming) : Session :=
  { s with stream := { s.stream with incoming }, history := .received m :: s.history }

/-- Taking note comes to the same before and after the message is put on record. -/
theorem noted_heard (s : Session) (m : Backend) (incoming : Incoming) :
    (s.heard m incoming).noted m =
      (s.observe (.received m)).withIO ((s.heard m incoming).noted m) := by
  cases m with
  | parameterStatus name value =>
    simp only [noted, observe, heard, setParameter, applyParameter]
    split <;> (try split) <;> rfl
  | commandComplete tag =>
    simp only [noted, observe, heard]
    split <;> rfl
  | _ => rfl

end Session

/-- A read either takes the next frame and puts its message on record, or fails. -/
theorem SessionM.receive_cases {s s' : Session} {r : Except Error Backend}
    (h : receive.run s = (r, s')) :
    (∃ m frame incoming, r = .ok m ∧ IsFrame frame m ∧
        s.stream.incoming.unread = frame ++ incoming.unread ∧ s' = s.heard m incoming) ∨
      ∃ e incoming, r = .error e ∧ s' = { s with stream := { s.stream with incoming } } := by
  simp only [receive, run_bind, run_get] at h
  rcases hread : (Receive.message s.version).run s.stream.incoming with ⟨e | m, incoming⟩
  · simp only [hread, run_bind, run_set, run_throw] at h
    obtain ⟨rfl, rfl⟩ := Prod.mk.inj h
    exact .inr ⟨e, incoming, rfl, rfl⟩
  · simp only [hread, run_bind, run_set, run_pure] at h
    obtain ⟨rfl, rfl⟩ := Prod.mk.inj h
    obtain ⟨frame, hframe, hunread, -⟩ := Receive.message_eq hread
    exact .inl ⟨m, frame, incoming, rfl, hframe, hunread, rfl⟩

/-! ## Runs -/

/-- One message of a cycle that goes on: it takes its frame, it is answered in some writes, and
the receiver goes on with it. -/
structure Cycle.Step (m : Backend) (batches : List (List Frontend)) (c c' : Cycle) : Prop where
  frame : ∃ frame, IsFrame frame m ∧
    c.session.stream.incoming.unread = frame ++ c'.session.stream.incoming.unread
  ran : c.session.Ran (handled m batches) c'.session
  nonempty : [] ∉ batches
  carried : c.session.stream.Carried (handled m batches) none c'.session.stream
  broken : c'.session.broken = c.session.broken
  handles : ∃ held, c'.session.deferred = c.session.deferred.or held ∧
    c.receiver.Handles c.session m batches.flatten held c'.receiver

/-- The messages of a cycle, one after the other, with the events that come of them. -/
inductive Cycle.Runs : Cycle → List Event → Cycle → Prop
  | refl (c : Cycle) : Runs c [] c
  | step {c c₁ c₂ : Cycle} {m : Backend} {batches : List (List Frontend)} {events : List Event}
    (first : Step m batches c c₁) (rest : Runs c₁ events c₂) :
    Runs c (handled m batches ++ events) c₂

/-- A receiver looks only at what the server has said of values and counts. -/
theorem Receiver.Handles.congr {s t : Session} {m : Backend} {r r' : Receiver}
    {answer : List Frontend} {held : Option Error} (h : r.Handles s m answer held r')
    (context : t.context = s.context) (verbs : t.countVerbs = s.countVerbs) :
    r.Handles t m answer held r' := by
  cases h with
  | challenge startup replied => exact .challenge startup replied
  | message unasked =>
    have hnext : r.next t m = r.next s m := by
      unfold next
      rw [context, verbs]
    have hrefusal : r.refusal t m = r.refusal s m := by
      unfold refusal
      rw [context]
    rw [← hnext, ← hrefusal]
    exact .message unasked

/-- The session that has handled a message is the one that has observed it and sent the answer. -/
theorem Session.Answered.ran {m : Backend} {answer : List Frontend} {refusal held : Option Error}
    {r : Except Error Unit} {batches : List (List Frontend)} {torn : Option (List Frontend)}
    {s s' : Session} {incoming : Incoming} (hanswer : ∀ f ∈ answer, f.isAnswer = true)
    (h : ((s.heard m incoming).noted m).Answered answer refusal r batches torn held s') :
    s.Ran (handled m batches) s' where
  known := by
    have hknown := h.known
    rw [noted_heard] at hknown
    exact known_of_withIO (s := s.observe (.received m)) hknown
  staged := h.staged
  answering := .handled fun f hf => by
    have hpart := h.part
    rw [List.flatten_append] at hpart
    exact hanswer f (hpart.subset (List.mem_append_left _ hf))

/-- What it has put on the wire are the writes of the answer. -/
theorem Session.Answered.wire {m : Backend} {answer : List Frontend} {refusal held : Option Error}
    {r : Except Error Unit} {batches : List (List Frontend)} {torn : Option (List Frontend)}
    {s s' : Session} {incoming : Incoming}
    (h : ((s.heard m incoming).noted m).Answered answer refusal r batches torn held s') :
    s.stream.Carried (handled m batches) torn s'.stream := by
  have hcarried := h.carried
  rw [Session.stream_noted] at hcarried
  exact ⟨hcarried.escapes, hcarried.outgoing⟩

/-- A message that is read and handled is a step. -/
theorem Cycle.Handled.step {m : Backend} {frame : Bytes} {incoming : Incoming} {c c' : Cycle}
    (hframe : IsFrame frame m)
    (hunread : c.session.stream.incoming.unread = frame ++ incoming.unread)
    (h : Handled m (.ok ()) ⟨c.session.heard m incoming, c.receiver⟩ c') :
    ∃ batches, Step m batches c c' := by
  cases h with
  | failed asked failed unchanged => cases failed
  | @met answer refusal held next batches torn handles answered hnext =>
    obtain ⟨rfl, rfl, rfl, hbroken⟩ := answered.whole rfl
    have hin : c'.session.stream.incoming = incoming := by
      rw [answered.incoming, Session.stream_noted]
      rfl
    refine ⟨batches, ⟨frame, hframe, ?_⟩, answered.ran fun f hf => handles.isAnswer hf,
      fun hmem => answered.nonempty (List.mem_append_left _ hmem), answered.wire, ?_, held, ?_, ?_⟩
    · rw [hin, hunread]
    · rw [hbroken, Session.broken_noted]
      rfl
    · rw [answered.deferred, Session.deferred_noted]
      rfl
    · rw [hnext rfl]
      exact handles.congr rfl rfl

/-- The events of a cycle that ends early, and the write that was refused in it, if one was: after
some steps nothing more can be read, or a message cannot be met, or its answer is sent only in
part. -/
inductive Cycle.Stops : Cycle → List Event → Option (List Frontend) → Prop
  | unread (c : Cycle) : Stops c [] none
  | unmet (c : Cycle) (m : Backend) : Stops c (handled m []) none
  | partly {c : Cycle} {m : Backend} {answer : List Frontend} {refusal : Option Error}
    {next : Receiver} {batches : List (List Frontend)} {torn : Option (List Frontend)}
    (handles : c.receiver.Handles c.session m answer refusal next)
    (nonempty : [] ∉ batches ++ torn.toList)
    (part : (batches ++ torn.toList).flatten <+: answer) : Stops c (handled m batches) torn
  | step {c c₁ : Cycle} {m : Backend} {batches : List (List Frontend)} {events : List Event}
    {torn : Option (List Frontend)} (first : Step m batches c c₁) (rest : Stops c₁ events torn) :
    Stops c (handled m batches ++ events) torn

/-- A message that is read and not handled ends the cycle early. -/
theorem Cycle.Handled.stops {m : Backend} {incoming : Incoming} {e : Error} {c c' : Cycle}
    (hs : c.session.staged = [])
    (h : Handled m (.error e) ⟨c.session.heard m incoming, c.receiver⟩ c') :
    ∃ batches torn, c.session.Ran (handled m batches) c'.session ∧
      Stops c (handled m batches) torn ∧
      c.session.stream.Carried (handled m batches) torn c'.session.stream := by
  cases h with
  | met handles answered next =>
    exact ⟨_, _, answered.ran fun f hf => handles.isAnswer hf,
      .partly (handles.congr rfl rfl) answered.nonempty answered.part, answered.wire⟩
  | failed asked failed unchanged =>
    refine ⟨[], none, ⟨?_, ?_, .handled fun f hf => nomatch hf⟩, .unmet c m, ?_⟩
    · rw [unchanged, asked]
      rfl
    · rw [unchanged]
      exact hs
    · rw [unchanged]
      exact .silent rfl rfl rfl

namespace Cycle.Runs

variable {c c' : Cycle} {events : List Event}

theorem ran (hs : c.session.staged = []) (h : Runs c events c') :
    c.session.Ran events c'.session := by
  induction h with
  | refl c => exact .refl hs
  | step first rest ih => exact first.ran.trans (ih first.ran.staged)

theorem broken (h : Runs c events c') : c'.session.broken = c.session.broken := by
  induction h with
  | refl c => rfl
  | step first rest ih => rw [ih, first.broken]

/-- A run puts its writes on the wire. -/
theorem carried (h : Runs c events c') :
    c.session.stream.Carried events none c'.session.stream := by
  induction h with
  | refl c => exact .refl _
  | step first rest ih => exact first.carried.trans ih

/-- A run takes the frames of its messages from the stream, and no byte more. -/
theorem frames (h : Runs c events c') :
    ∃ frames, List.Forall₂ IsFrame frames (receivedIn events) ∧
      c.session.stream.incoming.unread =
        frames.flatten ++ c'.session.stream.incoming.unread := by
  induction h with
  | refl c => exact ⟨[], .nil, rfl⟩
  | step first rest ih =>
    obtain ⟨frame, hframe, hunread⟩ := first.frame
    obtain ⟨frames, hframes, hrest⟩ := ih
    refine ⟨frame :: frames, ?_, ?_⟩
    · rw [receivedIn_append, receivedIn_handled]
      exact .cons hframe hframes
    · rw [hunread, hrest, List.flatten_cons, List.append_assoc]

/-- One more step at the end. -/
theorem snoc {d : Cycle} {m : Backend} {batches : List (List Frontend)} (h : Runs c events c')
    (last : Step m batches c' d) : Runs c (events ++ handled m batches) d := by
  induction h with
  | refl c => simpa using Runs.step last (.refl d)
  | step first rest ih =>
    rw [List.append_assoc]
    exact .step first (ih last)

/-- An error that is held back stays, and comes from the first message that is refused. -/
theorem deferred (h : Runs c events c') (hnone : c'.session.deferred = none) :
    c.session.deferred = none := by
  induction h with
  | refl c => exact hnone
  | step first rest ih =>
    obtain ⟨held, hheld, -⟩ := first.handles
    rw [ih hnone] at hheld
    exact (Option.or_eq_none_iff.1 hheld.symm).1

/-- Where no error is held back in the end, the first message was handled without one. -/
theorem first_accepted {c₁ c₂ : Cycle} {m : Backend} {batches : List (List Frontend)}
    (first : Step m batches c c₁) (rest : Runs c₁ events c₂)
    (hnone : c₂.session.deferred = none) :
    c.receiver.Handles c.session m batches.flatten none c₁.receiver := by
  obtain ⟨held, hheld, hhandles⟩ := first.handles
  rw [rest.deferred hnone] at hheld
  rw [(Option.or_eq_none_iff.1 hheld.symm).2] at hhandles
  exact hhandles

/-- Where no error is held back in the end, no message was refused. -/
theorem accepted (h : Runs c events c') (hnone : c'.session.deferred = none) :
    ∀ m ∈ receivedIn events, c.receiver.refuses m = false := by
  induction h with
  | refl c => exact fun _ h => nomatch h
  | @step c c₁ c₂ m batches events first rest ih =>
    -- No error at the end means none after the first message either.
    have hhandles := first_accepted first rest hnone
    intro m' hm
    rw [receivedIn_append, receivedIn_handled] at hm
    rcases List.mem_cons.1 hm with rfl | hm
    · exact Bool.eq_false_iff.2 fun h => nomatch hhandles.refused h
    · rw [← Receiver.refuses_congr hhandles.takesRows]
      exact ih hnone m' hm

end Cycle.Runs

/-- Whether a receiver answers nothing but copies, and those with an error. -/
def Receiver.isPassive : Receiver → Bool
  | .discard | .describe _ => true
  | .startup _ | .rows .. => false

theorem Receiver.isPassive_next {s : Session} {r : Receiver} {m : Backend} :
    (r.next s m).isPassive = r.isPassive := by
  unfold next
  split <;> (try split) <;> rfl

/-- A passive receiver that holds no error back says nothing, and stays passive. -/
theorem Receiver.Handles.silent {s : Session} {r r' : Receiver} {m : Backend}
    {answer : List Frontend} (hpassive : r.isPassive = true) (h : r.Handles s m answer none r') :
    answer = [] ∧ r'.isPassive = true := by
  have haccepted : r.refuses m = false := Bool.eq_false_iff.2 fun hr => nomatch h.refused hr
  generalize hheld : (none : Option Error) = held at h
  cases h with
  | challenge startup replied =>
    rw [startup] at hpassive
    cases hpassive
  | message unasked =>
    refine ⟨?_, isPassive_next.trans hpassive⟩
    cases m with
    | copyIn format columns =>
      cases r with
      | discard | describe => cases haccepted
      | startup | rows => cases hpassive
    | _ => rfl

/-- A passive receiver that refuses nothing writes nothing. -/
theorem Cycle.Runs.silent {c c' : Cycle} {events : List Event} (h : Runs c events c')
    (hpassive : c.receiver.isPassive = true) (hnone : c'.session.deferred = none) :
    events = (receivedIn events).map .received := by
  induction h with
  | refl c => rfl
  | @step c c₁ c₂ m batches events first rest ih =>
    obtain ⟨hflatten, hpassive'⟩ := (first_accepted first rest hnone).silent hpassive
    -- An empty answer was sent in no write, since no write is empty.
    have hbatches : batches = [] := by
      cases batches with
      | nil => rfl
      | cons batch batches =>
        have hempty : batch = [] := by
          rw [List.flatten_cons] at hflatten
          exact List.append_eq_nil_iff.1 hflatten |>.1
        exact absurd (hempty ▸ List.mem_cons_self) first.nonempty
    have hrest := ih hpassive' hnone
    rw [hbatches, receivedIn_append, receivedIn_handled, List.map_append, ← hrest]
    rfl

/-! ## The end of a cycle -/

/-- The end of a cycle is noted, and calls for no answer. -/
theorem Cycle.Step.ready {status : TransactionStatus} {frame : Bytes} {incoming : Incoming}
    {c : Cycle} (hs : c.session.staged = []) (hframe : IsFrame frame (.readyForQuery status))
    (hunread : c.session.stream.incoming.unread = frame ++ incoming.unread) :
    Step (.readyForQuery status) [] c
      ⟨(c.session.heard (.readyForQuery status) incoming).noted (.readyForQuery status),
        c.receiver⟩ where
  frame := ⟨frame, hframe, hunread⟩
  ran := ⟨rfl, hs, .handled fun _ hf => nomatch hf⟩
  nonempty := List.not_mem_nil
  carried := .silent rfl rfl rfl
  broken := rfl
  handles := ⟨none, Option.or_none.symm, .message nofun⟩

/-- Nothing can go wrong with the end of a cycle. -/
theorem CycleM.unready_of_handle_error {m : Backend} {c c' : Cycle} {e : Error}
    (h : (handle m).run c = (.error e, c')) : m.isReady = false := by
  cases m with
  | readyForQuery status => exact nomatch (Prod.mk.inj h).1
  | _ => rfl

/-- The messages until the server is ready: all of them were handled, or the cycle ended early
and the server was not ready yet. -/
theorem CycleM.untilReady_cases {bound : Nat} {c c' : Cycle} {r : Except Error Unit}
    (hs : c.session.staged = []) (h : (untilReady bound).run c = (r, c')) :
    (r = .ok () ∧ ∃ body status d, c.Runs body d ∧ Unready body ∧
        Cycle.Step (.readyForQuery status) [] d c') ∨
      ∃ e events, r = .error e ∧ c.session.Ran events c'.session ∧ Unready events ∧
        ∃ torn, c.Stops events torn ∧
          c.session.stream.Carried events torn c'.session.stream := by
  induction bound generalizing c with
  | zero =>
    obtain ⟨rfl, rfl⟩ := Prod.mk.inj h
    exact .inr ⟨_, [], rfl, .refl hs, .nil, none, .unread c, .refl _⟩
  | succ bound ih =>
    rw [untilReady, run_bind, onSession_run] at h
    rcases hreceive : SessionM.receive.run c.session with ⟨r', s⟩
    rw [hreceive] at h
    obtain ⟨m, frame, incoming, rfl, hframe, hunread, rfl⟩ | ⟨e, incoming, rfl, rfl⟩ :=
      SessionM.receive_cases hreceive
    · obtain ⟨e, hhandle, rfl⟩ | ⟨⟨⟩, d, hhandle, h⟩ := bind_cases h
      -- The message could not be handled, so it was not the last one.
      · obtain ⟨batches, torn, hran, hstops⟩ := (handle_cases (by exact hs) hhandle).stops hs
        have hunready := unready_of_handle_error hhandle
        exact .inr ⟨e, handled m batches, rfl, hran, .handled hunready, torn, hstops⟩
      · cases hready : m.isReady with
        | true =>
          -- The cycle ends here, with no message before.
          obtain ⟨status, rfl⟩ := Backend.isReady_iff.1 hready
          obtain ⟨rfl, rfl⟩ := Prod.mk.inj h
          obtain ⟨-, rfl⟩ := Prod.mk.inj hhandle
          exact .inl ⟨rfl, [], _, c, .refl c, .nil, .ready hs hframe hunread⟩
        | false =>
          -- The message goes in front of what the rest of the cycle brings.
          obtain ⟨batches, hstep⟩ := (handle_cases (by exact hs) hhandle).step hframe hunread
          have hrest : (untilReady bound).run d = (r, c') := by
            cases m <;> first | exact h | cases hready
          obtain ⟨hr, body, status, f, hruns, hbody, hlast⟩ |
            ⟨e, events, hr, hran, hevents, torn, hstops, hcarried⟩ := ih hstep.ran.staged hrest
          · exact .inl ⟨hr, handled m batches ++ body, status, f, .step hstep hruns,
              (Unready.handled hready).append hbody, hlast⟩
          · exact .inr ⟨e, handled m batches ++ events, hr, hstep.ran.trans hran,
              (Unready.handled hready).append hevents, torn, .step hstep hstops,
              hstep.carried.trans hcarried⟩
    -- Nothing more can be read.
    · obtain ⟨rfl, rfl⟩ := Prod.mk.inj h
      exact .inr ⟨e, [], rfl, ⟨rfl, hs, .nil⟩, .nil, none, .unread c, .silent rfl rfl rfl⟩

namespace Session

/-- A cycle that the server has brought to its end. -/
structure Completed (receiver receiver' : Receiver) (events : List Event)
    (held : Option Error) (s s' : Session) : Prop where
  runs : Cycle.Runs ⟨{ s with deferred := none }, receiver⟩ events
    ⟨{ s' with deferred := held }, receiver'⟩
  ready : ∃ body status, events = body ++ [.received (.readyForQuery status)] ∧ Unready body
  deferred : s'.deferred = none
  broken : s'.broken = false

/-- A cycle that ended before the server was ready. -/
structure Aborted (receiver : Receiver) (events : List Event) (s s' : Session) : Prop where
  ran : s.Ran events s'
  stops : ∃ torn, Cycle.Stops ⟨{ s with deferred := none }, receiver⟩ events torn ∧
    s.stream.Carried events torn s'.stream
  unready : Unready events
  deferred : s'.deferred = none
  broken : s'.broken = true

theorem cycle_run {s : Session} {receiver : Receiver} {r : Except Error Unit} {c : Cycle}
    (hb : s.broken = false)
    (hrun : (CycleM.untilReady (s.stream.incoming.unread.length + 1)).run
      ⟨{ s with deferred := none }, receiver⟩ = (r, c)) :
    s.cycle receiver = match r with
      | .ok () => (c.session.deferred.elim (.ok ()) .error, c.receiver,
          { c.session with deferred := none })
      | .error e => (.error (.ofAborted c.session.deferred e), c.receiver,
          { c.session with deferred := none, broken := true }) := by
  have hrun' : StateT.run (CycleM.untilReady (s.stream.incoming.unread.length + 1)).run
      ⟨{ s with deferred := none }, receiver⟩ = (r, c) := hrun
  rw [cycle, if_neg (Bool.eq_false_iff.1 hb)]
  dsimp only
  rw [hrun']
  obtain e | ⟨⟨⟩⟩ := r
  · rfl
  · dsimp only
    cases c.session.deferred <;> rfl

/-- A cycle of a sound session comes to its end, with the error that was held back if there is
one, or it breaks the session. -/
theorem cycle_cases {s s' : Session} {receiver receiver' : Receiver} {r : Except Error Unit}
    (hs : s.staged = []) (hb : s.broken = false) (h : s.cycle receiver = (r, receiver', s')) :
    (∃ held events, r = held.elim (.ok ()) .error ∧
        Completed receiver receiver' events held s s') ∨
      ∃ e events, r = .error e ∧ Aborted receiver events s s' := by
  rcases hrun : (CycleM.untilReady (s.stream.incoming.unread.length + 1)).run
    ⟨{ s with deferred := none }, receiver⟩ with ⟨r', c⟩
  rw [cycle_run hb hrun] at h
  obtain ⟨rfl, body, status, d, hruns, hbody, hlast⟩ |
    ⟨e, events, rfl, hran, hevents, hstops⟩ := CycleM.untilReady_cases (by exact hs) hrun
  · have hall := hruns.snoc hlast
    have hbroken : c.session.broken = false := hall.broken.trans hb
    simp only [Prod.mk.injEq] at h
    obtain ⟨rfl, rfl, rfl⟩ := h
    exact .inl ⟨c.session.deferred, body ++ handled (.readyForQuery status) [], rfl,
      hall, ⟨body, status, rfl, hbody⟩, rfl, hbroken⟩
  · simp only [Prod.mk.injEq] at h
    obtain ⟨rfl, rfl, rfl⟩ := h
    -- What ran did so from a session without an old error; the replay does not see the difference.
    refine .inr ⟨_, events, rfl, ⟨?_, hran.staged, hran.answering⟩, hstops, hevents, rfl, rfl⟩
    have hknown := known_of_withIO (s := s) (t := { s with deferred := none }) hran.known
    exact congrArg (fun t : Session => { t with deferred := none, broken := true }) hknown

end Session

end PgClient
