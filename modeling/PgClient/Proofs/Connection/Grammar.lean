/-
  PgClient.Proofs.Connection.Grammar

  The language in which a client speaks. Whatever the server sends and whichever
  write is refused, what a connection has written is a word of one regular
  expression over tags and ends of writes, or a beginning of one that is cut at
  the end of a write. What got out of a write that was refused goes on with that
  beginning, and nothing comes after it.
-/
import PgClient.Proofs.Connection.Alignment
import PgClient.Proofs.Connection.Conservation
import PgClient.Proofs.Session.Signals

namespace PgClient

open ConnectionM Steps RegularExpression

/-! ## The language -/

namespace Grammar

/-- A copy that is asked for where none is expected is refused. -/
def refusals : RegularExpression Signal := (write ['f']).star

/-- The opening packet, and the answers to what the server asks before it is ready. -/
def opening : RegularExpression Signal := write [none] * (write ['p'] + write ['f']).star

/-- A statement is parsed and described. -/
def prepared : RegularExpression Signal := write ['P', 'D', 'S'] * refusals

/-- The unnamed statement is closed. -/
def released : RegularExpression Signal := write ['C', 'S'] * refusals

/-- At least one statement is closed. -/
def invalidated : RegularExpression Signal :=
  char (.frame 'C') * (char (.frame 'C')).star * write ['S'] * refusals

/-- A statement is executed by a write with these tags, with its copies, and what has to be closed
after it is closed. -/
def executed (tags : List (Option Char)) : RegularExpression Signal :=
  write tags * copyAnswers.star * (1 + released) * (1 + invalidated)

/-- A statement is prepared or not, and then executed or not. Another one is closed with its
execution only if it was prepared for it. -/
def statement : RegularExpression Signal :=
  (1 + prepared) * (1 + executed ['B', 'E', 'S']) + prepared * executed ['C', 'B', 'E', 'S']

/-- All that a connection says, from the opening packet to the Terminate. -/
def connection : RegularExpression Signal := opening * statement.star * (1 + write ['X'])

end Grammar

open Grammar

/-! ## Preparing -/

namespace ConnectionM

variable {c c' d : Connection} {named : Bool} {sql : String} {encoders : List ParamEncoder}
  {key : StatementKey} {statement : Statement} {r : Except Error Unit}

/-- A statement that was prepared was parsed and described, and nothing was answered. -/
theorem Prepared.speaks (h : Prepared named sql encoders c statement d) :
    c.session.Speaks prepared d.session := by
  obtain ⟨paramTypes, fields, encoded, exchanged, accepted, broken⟩ := h
  refine .of_carried exchanged.events_eq (exchanged.carried broken) (.of_mem _ ?_)
  rw [signalsIn_wrote, signalsIn_append, signalsIn_map_received]
  exact Language.append_mem_mul (signalsOf_mem _) (nil_mem_star _)

/-- One that was not has been parsed in a cycle that failed, or not at all. -/
theorem prepare_error_speaks {e : Error} (hs : c.session.Settled) (hb : c.session.broken = false)
    (h : (prepare named sql encoders).run c = (.error e, d)) :
    c.session.Speaks (1 + prepared) d.session := by
  rw [prepare_run _ _ _ _ hs.staged] at h
  -- A text that the server's encoding does not have is refused before anything is written.
  cases hquery : c.session.context.encodeText sql with
  | error e' =>
    rw [hquery] at h
    obtain ⟨-, rfl⟩ := Prod.mk.inj h
    exact .of_silent (nil_mem_option _) ⟨rfl, rfl, rfl⟩
  | ok query =>
    rw [hquery] at h
    obtain ⟨-, rfl⟩ := Prod.mk.inj h
    have hexchange : c.session.exchange (prepareBatch (nextName named c) query encoders)
        (.describe {}) = (_, _, _) := rfl
    exact (Session.exchange_speaks (List.cons_ne_nil _ _) (signalsOf_mem _) hb hexchange).right

/-- What was said for a statement that was obtained. One that has to be closed for it waits only
if it was prepared. -/
theorem Obtained.speaks (hs : c.session.Settled) (h : Obtained key encoders c statement d) :
    c.session.Speaks (1 + prepared) d.session ∧ d.session.staged = [] ∨
      c.session.Speaks prepared d.session ∧
        ∃ name, d.session.staged = [.close .statement name] := by
  cases h with
  | hit enabled found =>
    exact .inl ⟨.of_silent (nil_mem_option _) ⟨rfl, rfl, rfl⟩, hs.staged⟩
  | @miss c' enabled missing hprepared =>
    -- The Close of the statement that had to go is staged after the cycle, and is not said yet.
    have hspeaks := hprepared.speaks.after
      (u := { c'.session with
        staged := (c.cache.push key statement).2.toList.map fun evicted =>
          .close .statement evicted.name }) ⟨rfl, rfl, rfl⟩
    cases hevicted : (c.cache.push key statement).2 with
    | none =>
      rw [hevicted] at hspeaks
      exact .inl ⟨hspeaks.right, rfl⟩
    | some evicted =>
      rw [hevicted] at hspeaks
      exact .inr ⟨hspeaks, evicted.name, rfl⟩
  | unkept disabled hprepared => exact .inl ⟨hprepared.speaks.right, hprepared.settled.staged⟩

/-! ## Closing statements -/

/-- The tags of a row of Close messages. -/
theorem closes_signals (names : List String) :
    ((names.map (Frontend.close .statement)).map Frontend.tag?).map Signal.frame ∈
      (char (Signal.frame 'C')).star.matches' := by
  induction names with
  | nil => exact nil_mem_star _
  | cons name names ih =>
    exact append_mem_star (w := [Signal.frame 'C']) (mem_star_of_mem rfl) ih

theorem closeBatch_signals {names : List String} (h : names ≠ []) :
    signalsOf ((closeBatch names).map Frontend.tag?) ∈
      (char (Signal.frame 'C') * (char (Signal.frame 'C')).star * write ['S']).matches' := by
  cases names with
  | nil => exact absurd rfl h
  | cons name names =>
    rw [signalsOf, closeBatch, List.map_append, List.map_append, List.append_assoc]
    exact Language.append_mem_mul
      (Language.append_mem_mul (a := [Signal.frame 'C']) rfl (closes_signals names))
      (signalsOf_mem ['S'])

/-- A part of an execution that may say something, but not on a broken session. -/
structure MaySpeak (l : RegularExpression Signal) (c d : Connection) : Prop where
  speaks : c.session.Speaks (1 + l) d.session
  quiet : c.session.broken = true → c.session.Silent d.session

theorem MaySpeak.nothing {l : RegularExpression Signal} (h : c.session.Silent d.session) :
    MaySpeak l c d :=
  ⟨.of_silent (nil_mem_option _) h, fun _ => h⟩

/-- A part that is one exchange. -/
theorem MaySpeak.exchange {first : RegularExpression Signal} {batch : List Frontend}
    (hbatch : batch ≠ []) (hfirst : signalsOf (batch.map Frontend.tag?) ∈ first.matches')
    (hb : c.session.broken = false)
    (hd : d.session = (c.session.exchange batch .discard).2.2) :
    MaySpeak (first * refusals) c d := by
  rcases hout : c.session.exchange batch .discard with ⟨r, receiver, s⟩
  rw [hout] at hd
  refine ⟨hd ▸ (Session.exchange_speaks hbatch hfirst hb hout).right, fun hbroken => ?_⟩
  rw [hb] at hbroken
  cases hbroken

theorem release_speaks (hs : c.session.Settled)
    (h : (release statement).run c = (r, c')) : MaySpeak released c c' := by
  unfold release at h
  by_cases hunnamed : statement.isUnnamed = true
  · rw [if_pos hunnamed, releaseUnnamed_run hs.staged] at h
    cases hb : c.session.broken with
    | true =>
      rw [if_pos hb] at h
      obtain ⟨-, rfl⟩ := Prod.mk.inj h
      exact .nothing ⟨rfl, rfl, rfl⟩
    | false =>
      rw [if_neg (Bool.eq_false_iff.1 hb)] at h
      obtain ⟨-, rfl⟩ := Prod.mk.inj h
      exact .exchange (closeBatch_ne_nil [""]) (signalsOf_mem _) hb rfl
  · rw [if_neg hunnamed] at h
    obtain ⟨-, rfl⟩ := Prod.mk.inj h
    exact .nothing ⟨rfl, rfl, rfl⟩

theorem invalidateStale_speaks (hs : c.session.Settled)
    (h : invalidateStale.run c = (r, c')) : MaySpeak invalidated c c' := by
  rw [invalidateStale_run] at h
  cases hstale : c.session.stale with
  | true =>
    rw [if_pos hstale, invalidate_run
      (c := { c with session := { c.session with stale := false } }) hs.staged] at h
    by_cases skip : cachedNames c.cache = [] ∨ c.session.broken = true
    · rw [if_pos skip] at h
      obtain ⟨-, rfl⟩ := Prod.mk.inj h
      exact .nothing ⟨rfl, rfl, rfl⟩
    · rw [if_neg skip] at h
      obtain ⟨-, rfl⟩ := Prod.mk.inj h
      have hb : c.session.broken = false := Bool.eq_false_iff.2 fun hb => skip (.inr hb)
      have hfirst := closeBatch_signals fun hempty => skip (.inl hempty)
      -- The flag is taken down first, and nobody sees that.
      have hfresh : c.session.Silent { c.session with stale := false } := ⟨rfl, rfl, rfl⟩
      have hsaid := MaySpeak.exchange (c := { c with session := { c.session with stale := false } })
        (d := { c with
          cache := c.cache.clear
          session := ({ c.session with stale := false }.exchange
            (closeBatch (cachedNames c.cache)) .discard).2.2 })
        (closeBatch_ne_nil (cachedNames c.cache)) hfirst hb rfl
      exact ⟨hsaid.speaks.before hfresh, fun hbroken => nomatch hb.symm.trans hbroken⟩
  | false =>
    rw [if_neg (Bool.eq_false_iff.1 hstale)] at h
    obtain ⟨-, rfl⟩ := Prod.mk.inj h
    exact .nothing ⟨rfl, rfl, rfl⟩

/-! ## Executing -/

/-- What is said from the write of a statement to the end of its execution. -/
theorem executed_speaks (tags : List (Option Char)) {params : List (Option Bytes)}
    {copy : CopyStreams} {s t : Session} {receiver : Receiver} {c₁ c₂ : Connection}
    {r₁ r₂ : Except Error Unit} (hd : d.session.deferred = none) (hb : d.session.broken = false)
    (htags : (executeBatch statement params d).map Frontend.tag? = tags)
    (sent : d.session.send (executeBatch statement params d) = (.ok (), s))
    (cycled : s.cycle (.rows statement.columns {} copy) = (r, receiver, t))
    (hreleased : (release statement).run { d with session := t } = (r₁, c₁))
    (hinvalidated : invalidateStale.run c₁ = (r₂, c₂)) :
    d.session.Speaks (executed tags) c₂.session := by
  have hbatch := executeBatch_ne_nil statement params d
  -- The write and the cycle after it are one exchange.
  have hexchange : d.session.exchange (executeBatch statement params d)
      (.rows statement.columns {} copy) = (r, receiver, t) := by
    rw [Session.exchange, sent]
    exact cycled
  obtain ⟨_, hexchanged⟩ := Session.exchange_exchanged
    (.rows statement.columns {} copy) hbatch hb hd
  rw [hexchange] at hexchanged
  have hsettled := Connection.Moves.settled (release_moves (c := { d with session := t })
    hexchanged.settled hreleased) hexchanged.settled
  have hspeaks := Session.exchange_speaks hbatch
    (htags ▸ signalsOf_mem _ : _ ∈ (write tags).matches') hb hexchange
  have hrelease := release_speaks hexchanged.settled hreleased
  have hinvalidate := invalidateStale_speaks hsettled hinvalidated
  -- If the exchange has broken the session, nothing is closed after it.
  have hfirst := hspeaks.trans hrelease.speaks (nil_mem_option _) hrelease.quiet
  exact hfirst.trans hinvalidate.speaks (nil_mem_option _) hinvalidate.quiet

/-- A write of a statement that is refused would have gone on in the same way. -/
theorem refused_speaks (tags : List (Option Char)) {params : List (Option Bytes)} {s : Session}
    {e : Error} (hb : d.session.broken = false)
    (htags : (executeBatch statement params d).map Frontend.tag? = tags)
    (sent : d.session.send (executeBatch statement params d) = (.error e, s)) :
    d.session.Speaks (executed tags) s := by
  have hexchange : d.session.exchange (executeBatch statement params d)
      (.rows statement.columns {} {}) = (.error e, .rows statement.columns {} {}, s) := by
    rw [Session.exchange, sent]
  have hspeaks := Session.exchange_speaks (executeBatch_ne_nil statement params d)
    (htags ▸ signalsOf_mem _ : _ ∈ (write tags).matches') hb hexchange
  exact (hspeaks.alone (nil_mem_option _)).alone (nil_mem_option _)

/-- A call that is not sent says no more than what is said for its statement. -/
theorem Rejected.speaks {call : Call} (hs : c.session.Settled) (hb : c.session.broken = false)
    (h : Rejected call c d) : c.session.Speaks (1 + prepared) d.session := by
  cases h with
  | unchanged => exact .of_silent (nil_mem_option _) ⟨rfl, rfl, rfl⟩
  | @unprepared encoders e c' inspected failed obtaining =>
    obtain ⟨statement, -, -, hr, -⟩ |
      ⟨-, ⟨e', hr, hprepare⟩ | ⟨statement, d', hr, -, -⟩⟩ := obtain_split obtaining
    · cases hr
    · cases hr
      exact prepare_error_speaks hs hb hprepare
    · cases hr

/-- An execution that goes on in this way after its statement was obtained. The tags of its write
depend on whether a Close goes out with it. -/
theorem Obtained.executed_speaks {params : List (Option Bytes)} {s : Session}
    (hs : c.session.Settled) (hb : c.session.broken = false)
    (h : Obtained key encoders c statement d)
    (hnext : ∀ tags, (executeBatch statement params d).map Frontend.tag? = tags →
      d.session.Speaks (executed tags) s) : c.session.Speaks Grammar.statement s := by
  obtain ⟨hprepared, hstaged⟩ | ⟨hprepared, name, hstaged⟩ := h.speaks hs
  · have hexecuted := hnext ['B', 'E', 'S'] (by rw [executeBatch, hstaged]; rfl)
    exact (hprepared.append (h.broken hb) hexecuted.right).left
  · have hexecuted := hnext ['C', 'B', 'E', 'S'] (by rw [executeBatch, hstaged]; rfl)
    exact (hprepared.append (h.broken hb) hexecuted).right

/-- Every execution says what belongs to one statement. -/
theorem Performed.speaks {call : Call} {copy : CopyStreams}
    {out : Except Error (Statement × Outcome) × CopyStreams} (hs : c.session.Settled)
    (hb : c.session.broken = false) (h : Performed call copy c out c') :
    c.session.Speaks Grammar.statement c'.session := by
  cases h with
  | rejected rejected => exact ((rejected.speaks hs hb).alone (nil_mem_option _)).left
  | @refused encoders params statement d e s readied sent =>
    have hobtained := readied.obtained
    exact hobtained.executed_speaks hs hb fun tags htags =>
      refused_speaks tags (hobtained.broken hb) htags sent
  | @executed encoders params statement d c₁ c₂ r r₁ r₂ receiver s t readied sent cycled released
      invalidated =>
    have hobtained := readied.obtained
    have hd : d.session.deferred = none := ((hobtained.moves hs hb).settled hs).deferred
    exact hobtained.executed_speaks hs hb fun tags htags =>
      ConnectionM.executed_speaks tags hd (hobtained.broken hb) htags sent cycled released
        invalidated

end ConnectionM

/-! ## Every run -/

namespace Connection

variable {c d : Connection} {stream : Stream} {config : Config} {options : ConnectOptions}

/-- Executions say a row of statements. -/
theorem Performs.speaks {xs : List Execution} (h : Performs c xs d) :
    c.session.Speaks statement.star d.session := by
  refine h.invariant (I := fun d => c.session.Speaks statement.star d.session) ?_ ?_ ?_
  · rintro c' d ⟨autocommit, notifications⟩ hsaid
    exact hsaid.after ⟨rfl, rfl, rfl⟩
  · intro x husable hsaid
    exact hsaid.star husable.sound ((x.performed husable).speaks husable.settled husable.sound)
  · exact .of_silent (nil_mem_star _) ⟨rfl, rfl, rfl⟩

/-! ## The end -/

/-- Closing a connection: a Terminate is sent, unless one was before or the session is broken. -/
theorem close_run (hs : c.session.staged = []) :
    c.close =
      if c.terminated then (.ok (), c)
      else if c.session.broken then (.ok (), { c with terminated := true })
      else
        let sent := c.session.send [.terminate]
        (sent.1, { c with terminated := true, session := sent.2 }) := by
  rw [close, terminate, run_bind, run_get]
  dsimp only
  cases c.terminated with
  | true => rfl
  | false =>
    rw [if_neg Bool.false_ne_true, if_neg Bool.false_ne_true, run_bind, run_set]
    dsimp only
    cases c.session.broken with
    | true => rfl
    | false =>
      rw [if_neg Bool.false_ne_true, if_neg Bool.false_ne_true, run_bind, stage_run, hs]
      dsimp only
      rw [flush_run, SessionM.flush_run, if_neg (by simp), Session.send_staged]
      rfl

/-- How a connection ends. A Terminate is the last word of a sound session, unless its write is
refused, and a broken one ends without a word. Nothing happens after that, whatever is done. -/
structure Ends (c : Connection) : Prop where
  unended : Frontend.terminate ∉ c.session.written
  broken : c.session.broken = true → c.close.2.session = c.session
  sound : c.session.broken = false →
    c.close.1 = .ok () ∧ c.close.2.session.broken = false ∧
        c.close.2.session.written = c.session.written ++ [.terminate] ∧
        c.close.2.session.stream.outgoing =
          c.session.stream.outgoing ++ Frontend.terminate.encode ∨
      ∃ f, c.close.1 = .error (.io f) ∧ c.close.2.session.broken = true ∧
        c.close.2.session.written = c.session.written ∧
        c.close.2.session.stream.outgoing = c.session.stream.outgoing ++
          Frontend.terminate.encode.take c.session.stream.escapes
  again : c.close.2.close.2 = c.close.2
  history (ops : List Operation) :
    (c.close.2.runs ops).session.history = c.close.2.session.history
  stream (ops : List Operation) :
    (c.close.2.runs ops).session.stream = c.close.2.session.stream

/-- Nothing is executed on a closed connection. -/
theorem Performs.settings_of_terminated {xs : List Execution} (h : Performs c xs d)
    (hc : c.terminated = true) : Settings c d := by
  cases h with
  | nil settings => exact settings
  | cons settings usable rest =>
    rw [← settings.terminated, usable.opened] at hc
    cases hc

/-- A closed connection is left alone. -/
theorem runs_of_terminated (hs : c.session.Settled) (hc : c.terminated = true)
    (ops : List Operation) : Settings c (c.runs ops) :=
  (runs_performs ops hs).settings_of_terminated hc

theorem terminated_close (hs : c.session.staged = []) : c.close.2.terminated = true := by
  rw [close_run hs]
  cases hc : c.terminated with
  | true => exact hc
  | false =>
    rw [if_neg Bool.false_ne_true]
    split <;> rfl

theorem settled_close (hs : c.session.Settled) : c.close.2.session.Settled := by
  rw [close_run hs.staged]
  split
  · exact hs
  split
  · exact hs
  · dsimp only
    obtain ⟨t, ht, hsent, hnone, -⟩ | ⟨f, t, ht, hsent, hnone, -⟩ :=
      Session.send_cases (List.cons_ne_nil Frontend.terminate []) c.session
    · rw [ht]
      exact ⟨hnone, by rw [hsent.deferred, hs.deferred]; rfl⟩
    · rw [ht]
      exact ⟨hnone, by rw [hsent.deferred, hs.deferred]; rfl⟩

/-- From a sound session that is closed a Terminate is sent, or its write is refused. -/
theorem close_sound (hs : c.session.staged = []) (hopen : c.terminated = false)
    (hb : c.session.broken = false) :
    (c.close.1 = .ok () ∧ c.close.2.session.broken = false ∧
        c.session.Said (write ['X']) [.wrote [.terminate]] none c.close.2.session) ∨
      ∃ f, c.close.1 = .error (.io f) ∧ c.close.2.session.broken = true ∧
        c.session.Said (write ['X']) [] (some [.terminate]) c.close.2.session := by
  rw [close_run hs, if_neg (Bool.eq_false_iff.1 hopen), if_neg (Bool.eq_false_iff.1 hb)]
  dsimp only
  obtain ⟨t, ht, hsent, -, hsame⟩ | ⟨f, t, ht, hsent, -, hbroken⟩ :=
    Session.send_cases (List.cons_ne_nil Frontend.terminate []) c.session
  · rw [ht]
    exact .inl ⟨rfl, hsame.trans hb, Session.events_of_known hsent.known, hsent.carried, nofun,
      .of_mem _ (signalsOf_mem ['X'])⟩
  · rw [ht]
    exact .inr ⟨f, rfl, hbroken, Session.events_of_known hsent.known, hsent.carried,
      fun _ => hbroken, .of_mem _ (signalsOf_mem ['X'])⟩

/-- A connection that was not closed yet ends in this way. -/
theorem ends (hs : c.session.Settled) (hopen : c.terminated = false)
    (hunended : Frontend.terminate ∉ c.session.written) : c.Ends where
  unended := hunended
  broken := close_broken
  sound := by
    intro hb
    rw [Session.written_eq, Session.written_eq]
    obtain ⟨hr, hsame, hsaid⟩ | ⟨f, hr, hbroken, hsaid⟩ := close_sound hs.staged hopen hb
    · refine .inl ⟨hr, hsame, ?_, ?_⟩
      · rw [hsaid.events_eq, writtenIn_append]
        rfl
      · simpa [Frontend.encodeAll] using hsaid.carried.outgoing
    · refine .inr ⟨f, hr, hbroken, ?_, ?_⟩
      · rw [hsaid.events_eq, List.append_nil]
      · simpa [Frontend.encodeAll] using hsaid.carried.outgoing
  again := by
    rw [close_run (c := c.close.2) (settled_close hs).staged, terminated_close hs.staged]
    rfl
  history ops := (runs_of_terminated (settled_close hs) (terminated_close hs.staged) ops).history
  stream ops := (runs_of_terminated (settled_close hs) (terminated_close hs.staged) ops).stream

/-! ## Every connection -/

/-- What is on the wire of a connection that was given this stream. Its completed writes begin a
word of the language and end where a write ends. They have gone out in full and in order, and after
them at most as many bytes as escape of one batch more, whose write was refused and broke the
session. Whatever frames of that batch have got out, they go on with the word. -/
structure Wired (stream : Stream) (c : Connection) : Prop where
  begins : ∃ rest, signalsIn c.session.events ++ rest ∈ connection.matches'
  cut : signalsIn c.session.events = [] ∨ (signalsIn c.session.events).getLast? = some .flush
  wire : ∃ torn : List Frontend, (torn ≠ [] → c.session.broken = true) ∧
    c.session.stream.outgoing = stream.outgoing ++ Frontend.encodeAll c.session.written ++
      (Frontend.encodeAll torn).take stream.escapes ∧
    ∀ front, front <+: torn → ∃ rest,
      signalsIn c.session.events ++ ((front.map Frontend.tag?).map .frame ++ rest) ∈
        connection.matches'

/-- A session that has said nothing before has put on the wire what it has said since. -/
theorem Wired.of_speaks {start : Session} (hstart : start.events = [])
    (h : start.Speaks connection c.session) : c.Wired start.stream := by
  obtain ⟨events, torn, hevents, hcarried, hbroken, halong⟩ := h
  obtain ⟨rest, hrest⟩ := halong.begins
  rw [hstart, List.nil_append] at hevents
  rw [← hevents, signalsIn_append, List.append_assoc] at hrest
  refine ⟨⟨_, hrest⟩, signalsIn_ends _, torn.getD [], fun hne => hbroken ?_, ?_, ?_⟩
  · cases torn with
    | none => exact absurd rfl hne
    | some batch => rfl
  · rw [hcarried.outgoing, Session.written_eq, hevents]
  · rintro front ⟨more, hmore⟩
    cases torn with
    | none =>
      obtain rfl : front = [] := (List.append_eq_nil_iff.1 hmore).1
      exact ⟨_, hrest⟩
    | some batch =>
      -- The rest of the batch and the end of its write come after the part.
      obtain rfl : front ++ more = batch := hmore
      refine ⟨(more.map Frontend.tag?).map .frame ++ [.flush] ++ rest, ?_⟩
      simpa [signalsOf] using hrest

theorem Wired.settings (h : Settings c d) (hc : c.Wired stream) : d.Wired stream := by
  cases h
  exact ⟨hc.begins, hc.cut, hc.wire⟩

/-- A connection that was never begun has said nothing, which begins a word too. -/
theorem Wired.unbegun (stream : Stream) (config : Config) (options : ConnectOptions) :
    Wired stream { fresh stream config options with terminated := true } := by
  -- The opening packet alone is a word.
  have hopening : Along opening false (signalsOf [none]) :=
    (Along.of_mem false (signalsOf_mem [none])).alone (nil_mem_star _)
  have hword : Along connection false (signalsOf [none]) :=
    (hopening.alone (nil_mem_star _)).alone (nil_mem_option _)
  have hempty : ∃ rest, signalsIn [] ++ rest ∈ connection.matches' := ⟨signalsOf [none], hword⟩
  refine ⟨hempty, .inl rfl, [], fun hne => absurd rfl hne, by simp [fresh, Session.written],
    fun front hfront => ?_⟩
  rw [List.prefix_nil.1 hfront]
  exact hempty

/-- An open connection that has said something along a language since it was fresh. -/
structure Open (start : Session) (l : RegularExpression Signal) (c : Connection) : Prop where
  settled : c.session.Settled
  opened : c.terminated = false
  speaks : start.Speaks l c.session

namespace Open

variable {start : Session} {l : RegularExpression Signal}

/-- All that an open connection does after its opening is a row of statements. -/
theorem performs {xs : List Execution} (h : Open start opening c) (hb : c.session.broken = false)
    (hruns : Performs c xs d) : Open start (opening * statement.star) d where
  settled := hruns.settled h.settled
  opened := by
    refine hruns.invariant (I := fun d => d.terminated = false) ?_ ?_ h.opened
    · intro c d hsettings hc
      exact hsettings.terminated.trans hc
    · intro x husable hx
      rw [(x.moves husable).kept.rest]
      exact hx
  speaks := h.speaks.append hb hruns.speaks

/-- What is written after the opening has only the letters of statements. -/
theorem statements {xs : List Execution} (h : Open start opening c) (hruns : Performs c xs d) :
    ∃ added torn : List Frontend,
      d.session.written = c.session.written ++ added ∧
      (torn ≠ [] → d.session.broken = true) ∧
      d.session.stream.outgoing = c.session.stream.outgoing ++
        Frontend.encodeAll added ++ (Frontend.encodeAll torn).take start.stream.escapes ∧
      ∀ f ∈ added ++ torn, f.tag? ≠ some 'p' ∧ f.tag? ≠ some 'X' := by
  obtain ⟨_, _, hopened⟩ := h.speaks
  obtain ⟨events, torn, hsaid⟩ := hruns.speaks
  refine ⟨writtenIn events, torn.getD [], ?_, fun hne => hsaid.broken ?_, ?_, fun f hf => ?_⟩
  · rw [Session.written_eq, hsaid.events_eq, writtenIn_append, Session.written_eq]
  · cases torn with
    | none => exact absurd rfl hne
    | some batch => rfl
  · rw [hsaid.carried.outgoing, hopened.carried.escapes]
  · have hletter := hsaid.letters hf
    constructor <;> intro htag <;> rw [htag] at hletter <;> revert hletter <;> decide

/-- An opening that failed is not followed by any statement. -/
theorem unfollowed (h : Open start opening c) : Open start (opening * statement.star) c where
  settled := h.settled
  opened := h.opened
  speaks := h.speaks.alone (nil_mem_star _)

/-- The Terminate goes out where the language has it. -/
theorem close_speaks (h : Open start l c) :
    start.Speaks (l * (1 + write ['X'])) c.close.2.session := by
  cases hb : c.session.broken with
  | true =>
    rw [close_broken hb]
    exact h.speaks.alone (nil_mem_option _)
  | false =>
    refine h.speaks.append hb (Session.Speaks.right ?_)
    obtain ⟨-, -, hsaid⟩ | ⟨f, -, -, hsaid⟩ := close_sound h.settled.staged h.opened hb
    · exact ⟨_, _, hsaid⟩
    · exact ⟨_, _, hsaid⟩

theorem ends (hstart : start.events = []) (h : Open start (opening * statement.star) c) :
    c.Ends := by
  refine Connection.ends h.settled h.opened fun hwritten => ?_
  obtain ⟨events, torn, hsaid⟩ := h.speaks
  rw [Session.written_eq, hsaid.events_eq, hstart, List.nil_append] at hwritten
  have hletter := hsaid.letters (List.mem_append_left _ hwritten)
  revert hletter
  decide

/-- What is on the wire of an open connection, and of a closed one whatever is done with it. -/
theorem wired (hstart : start.events = []) (h : Open start (opening * statement.star) c)
    (ops : List Operation) :
    c.Wired start.stream ∧ (c.close.2.runs ops).Wired start.stream := by
  refine ⟨.of_speaks hstart (h.speaks.alone (nil_mem_option _)), ?_⟩
  have hclosed := runs_of_terminated (settled_close h.settled) (terminated_close h.settled.staged)
  exact .settings (hclosed ops) (.of_speaks hstart h.close_speaks)

end Open

/-- A closed connection stays as it is, whatever is done with it, and closing it again changes
nothing. -/
theorem wired_of_terminated (hs : c.session.Settled) (hc : c.terminated = true)
    (h : c.Wired stream) (ops ops' : List Operation) :
    (c.runs ops).Wired stream ∧ ((c.runs ops).close.2.runs ops').Wired stream := by
  have hruns := runs_of_terminated hs hc ops
  have hs' := (runs_performs ops hs).settled hs
  have hc' := hruns.terminated.trans hc
  have hclose : (c.runs ops).close.2 = c.runs ops := by
    rw [close_run hs'.staged, if_pos hc']
  rw [hclose]
  exact ⟨h.settings hruns, (h.settings hruns).settings (runs_of_terminated hs' hc' ops')⟩

/-- How a connection comes about: it has said its opening, or it is closed because that failed, or
it was not even begun since there were no secrets for it. -/
theorem connect_cases (stream : Stream) (config : Config) (options : ConnectOptions) :
    (∃ c, connect stream config options = (.ok (), c) ∧
        Open (fresh stream config options).session opening c ∧ c.session.broken = false) ∨
      (∃ e c, connect stream config options = (.error e, c.close.2) ∧
        Open (fresh stream config options).session opening c) ∨
      ∃ e, connect stream config options =
        (.error e, { fresh stream config options with terminated := true }) := by
  cases hsource : options.credentials.resolve config.credentialProvider config with
  | error e =>
    refine .inr (.inr ⟨e, ?_⟩)
    rw [connect, hsource]
  | ok source =>
    have hconnect := connect_run stream hsource
    rcases hout : (fresh stream config options).session.exchange (startupBatch config)
      (.startup (handshake source config options)) with ⟨r, receiver, s⟩
    rw [hout] at hconnect
    have hbatch : startupBatch config ≠ [] := List.cons_ne_nil _ _
    have hspeaks := Session.exchange_speaks hbatch (signalsOf_mem [none]) rfl hout
    obtain ⟨_, hexchanged⟩ := Session.exchange_exchanged
      (s := (fresh stream config options).session) (.startup (handshake source config options))
      hbatch rfl rfl
    rw [hout] at hexchanged
    have hopen : Open (fresh stream config options).session opening
        { fresh stream config options with session := s } := ⟨hexchanged.settled, rfl, hspeaks⟩
    cases r with
    | error e => exact .inr (.inl ⟨e, _, hconnect, hopen⟩)
    | ok u =>
      obtain ⟨_, _, hsound, -⟩ := Session.exchange_ok hbatch rfl rfl hout
      exact .inl ⟨_, hconnect, hopen, hsound⟩

/-- Whatever a server sends, whichever write is refused, whatever part of it gets out all the same
and whatever is done with a connection, what it has put on the wire begins a word of the language.
The completed writes are cut only between two writes, and what got out of a refused one goes on with
them; also after the connection was closed, and if it could not even be opened. After the opening
no secret is sent, and a Terminate just at the end of a connection that is closed with a sound
session. -/
theorem wire_grammatical (stream : Stream) (config : Config) (options : ConnectOptions)
    (ops ops' : List Operation) :
    ((connect stream config options).2.runs ops).Wired stream ∧
      (((connect stream config options).2.runs ops).close.2.runs ops').Wired stream ∧
      (∀ c, connect stream config options = (.ok (), c) →
        (c.runs ops).Ends ∧
          ∃ added torn : List Frontend,
            (c.runs ops).session.written = c.session.written ++ added ∧
            (torn ≠ [] → (c.runs ops).session.broken = true) ∧
            (c.runs ops).session.stream.outgoing = c.session.stream.outgoing ++
              Frontend.encodeAll added ++ (Frontend.encodeAll torn).take stream.escapes ∧
            ∀ f ∈ added ++ torn, f.tag? ≠ some 'p' ∧ f.tag? ≠ some 'X') ∧
      ∀ e c, connect stream config options = (.error e, c) →
        c.session.written = [] ∧ c.session.stream = stream ∨
          ∃ d : Connection, d.Ends ∧ c = d.close.2 := by
  obtain ⟨c, hc, hopening, hb⟩ | ⟨e, c, hc, hopening⟩ | ⟨e, hc⟩ :=
    connect_cases stream config options
  -- It is open: its opening is followed by a row of statements.
  · have hruns := runs_performs ops hopening.settled
    have hall := hopening.performs hb hruns
    obtain ⟨hbefore, hafter⟩ := hall.wired rfl ops'
    rw [hc]
    refine ⟨hbefore, hafter, ?_, fun e d h => by cases h⟩
    rintro _ ⟨⟩
    exact ⟨hall.ends rfl, hopening.statements hruns⟩
  -- The opening failed, so that it was closed, and stays as it was then.
  · have hall := hopening.unfollowed
    have hlater := wired_of_terminated (settled_close hall.settled)
      (terminated_close hall.settled.staged) (hall.wired rfl []).2 ops ops'
    rw [hc]
    refine ⟨hlater.1, hlater.2, fun d h => (by cases h), ?_⟩
    rintro _ _ ⟨⟩
    exact .inr ⟨c, hall.ends rfl, rfl⟩
  -- It was never begun, and is closed from the start.
  · have hlater := wired_of_terminated ⟨rfl, rfl⟩ rfl (Wired.unbegun stream config options) ops ops'
    rw [hc]
    refine ⟨hlater.1, hlater.2, fun d h => (by cases h), ?_⟩
    rintro _ _ ⟨⟩
    exact .inl ⟨rfl, rfl⟩

/-- A stream from a server that lets everybody in. It takes the startup packet and then no more than
so many bytes. -/
def cutStream (escapes : Nat) : Stream :=
  { incoming := ⟨greeting, .closed⟩, accepts := some 1, escapes }

/-- A connection over it that keeps no statements. -/
def cutOff (escapes : Nat) : Except Error Unit × Connection :=
  connect (cutStream escapes) { password := some "secret", maxPreparedStatements := 0 } {}

/-- The case of a COMMIT of which fifteen bytes get out. -/
theorem wire_grammatical_cutOff :
    (cutOff 15).1 = .ok () ∧ ((cutOff 15).2.runs [.commit]).session.broken = true ∧
      ((cutOff 15).2.runs [.commit]).Wired (cutStream 15) ∧
      ((cutOff 15).2.runs [.commit]).Ends ∧
      ∃ added torn : List Frontend,
        ((cutOff 15).2.runs [.commit]).session.written =
          (cutOff 15).2.session.written ++ added ∧
        (torn ≠ [] → ((cutOff 15).2.runs [.commit]).session.broken = true) ∧
        ((cutOff 15).2.runs [.commit]).session.stream.outgoing =
          (cutOff 15).2.session.stream.outgoing ++ Frontend.encodeAll added ++
            (Frontend.encodeAll torn).take 15 ∧
        ∀ f ∈ added ++ torn, f.tag? ≠ some 'p' ∧ f.tag? ≠ some 'X' := by
  have hok : (cutOff 15).1 = .ok () := by decide +kernel
  obtain ⟨hwired, -, hopened, -⟩ := wire_grammatical (cutStream 15)
    { password := some "secret", maxPreparedStatements := 0 } {} [.commit] []
  exact ⟨hok, by decide +kernel, hwired, hopened _ (Prod.ext hok rfl)⟩

/-- A connection that is closed after a COMMIT has said a whole word. -/
example : connection.rmatch
    (signalsIn ((greeted described).2.runs [.commit]).close.2.session.events) = true := by
  decide +kernel

/-! ## Cuts inside a write -/

/-- Frames with these tags are the beginning of a word that is cut where a write ends. -/
def CutAtFlush (tags : List (Option Char)) : Prop :=
  ∃ w rest, w ++ rest ∈ connection.matches' ∧ (w = [] ∨ w.getLast? = some .flush) ∧
    tagsIn w = tags

/-- The frames of completed writes are. -/
theorem Wired.cutAtFlush (h : c.Wired stream) :
    CutAtFlush (c.session.written.map Frontend.tag?) := by
  obtain ⟨rest, hrest⟩ := h.begins
  exact ⟨signalsIn c.session.events, rest, hrest, h.cut, tagsIn_signalsIn c.session.events⟩

/-- No write ends after a Parse, since its Describe comes with it. -/
theorem not_cutAtFlush_parse : ¬ CutAtFlush [none, some 'P'] := by
  rintro ⟨w, rest, hword, hend, htags⟩
  have hdead (front : List Signal) (more : List Signal)
      (hvoid : isVoid (front.foldl RegularExpression.deriv connection) = true) :
      w ≠ front ++ more := by
    rintro rfl
    rw [List.append_assoc] at hword
    exact notMem_of_derivs hvoid _ hword
  -- A word begins with the startup packet in a write of its own.
  obtain _ | ⟨tag | _, w₁⟩ := w
  · cases htags
  · simp only [tagsIn_frame, List.cons.injEq] at htags
    obtain ⟨rfl, htags⟩ := htags
    obtain _ | ⟨tag | _, w₂⟩ := w₁
    · cases htags
    · simp only [tagsIn_frame, List.cons.injEq] at htags
      obtain ⟨rfl, -⟩ := htags
      exact hdead [.frame none, .frame 'P'] w₂ (by decide) rfl
    · obtain _ | ⟨tag | _, w₃⟩ := w₂
      · cases htags
      -- The Parse is the last frame, so that the write would have to end after it.
      · simp only [tagsIn_flush, tagsIn_frame, List.cons.injEq] at htags
        obtain ⟨rfl, htags⟩ := htags
        obtain _ | ⟨tag | _, w₄⟩ := w₃
        · simp at hend
        · cases htags
        · exact hdead [.frame none, .flush, .frame 'P', .flush] w₄ (by decide) rfl
      · exact hdead [.frame none, .flush, .flush] w₃ (by decide) rfl
  · exact hdead [.flush] w₁ (by decide) rfl

/-- The startup packet, and the first frame of a COMMIT. -/
def cutFrames : List Frontend :=
  [.startup Wire.protocolVersion ({ password := some "secret" } : Config).startupParams,
    .parse "" (Utf8.encode "COMMIT") []]

/-- A write that is refused may leave a Parse on the wire without its Describe, so that the frames
on the wire are not cut where a write ends. And a Terminate that is refused may be kept back
altogether, though the connection was sound and open. -/
theorem cut_inside_write :
    ((cutOff 15).2.runs [.commit]).session.stream.outgoing = Frontend.encodeAll cutFrames ∧
      ¬ CutAtFlush (cutFrames.map Frontend.tag?) ∧
      (cutOff 0).2.session.broken = false ∧ (cutOff 0).2.terminated = false ∧
      (cutOff 0).2.close.2.session.stream.outgoing = (cutOff 0).2.session.stream.outgoing := by
  refine ⟨?_, not_cutAtFlush_parse, ?_, ?_, ?_⟩
  all_goals decide +kernel

end Connection

end PgClient
