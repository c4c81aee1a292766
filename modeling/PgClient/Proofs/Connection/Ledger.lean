/-
  PgClient.Proofs.Connection.Ledger

  The ledger of prepared statements: what the cache of a connection holds, set
  against all that was written. Every cached statement was parsed once, in a
  cycle that brought no error, and is not closed; no name is parsed or closed
  twice. A Close that waits to be sent counts as sent.
-/
import PgClient.Proofs.Connection.Opening
import PgClient.Proofs.Connection.Runs
import PgClient.Proofs.Statement.Cache

namespace PgClient

open ConnectionM Steps

/-! ## Names on record -/

/-- The statement that a message parses. -/
def Frontend.parsed? : Frontend → Option String
  | .parse name _ _ => some name
  | _ => none

/-- The statement that a message closes. -/
def Frontend.closed? : Frontend → Option String
  | .close .statement name => some name
  | _ => none

/-- The statements that some messages parse, in order. -/
def parsedNames (fs : List Frontend) : List String := fs.filterMap Frontend.parsed?

/-- The statements that some messages close, in order. -/
def closedNames (fs : List Frontend) : List String := fs.filterMap Frontend.closed?

@[simp] theorem parsedNames_append (fs gs : List Frontend) :
    parsedNames (fs ++ gs) = parsedNames fs ++ parsedNames gs :=
  List.filterMap_append

@[simp] theorem closedNames_append (fs gs : List Frontend) :
    closedNames (fs ++ gs) = closedNames fs ++ closedNames gs :=
  List.filterMap_append

theorem closedNames_left {fs : List Frontend} {name : String} (h : name ∈ closedNames fs)
    (gs : List Frontend) : name ∈ closedNames (fs ++ gs) := by
  rw [closedNames_append]
  exact List.mem_append_left _ h

theorem closedNames_right {gs : List Frontend} {name : String} (h : name ∈ closedNames gs)
    (fs : List Frontend) : name ∈ closedNames (fs ++ gs) := by
  rw [closedNames_append]
  exact List.mem_append_right _ h

@[simp] theorem closedNames_closes (names : List String) :
    closedNames (names.map (.close .statement)) = names := by
  induction names with
  | nil => rfl
  | cons name names ih =>
    rw [List.map_cons, closedNames, List.filterMap_cons, ← closedNames, ih]
    rfl

@[simp] theorem parsedNames_closes (names : List String) :
    parsedNames (names.map (.close .statement)) = [] := by
  induction names with
  | nil => rfl
  | cons name names ih =>
    rw [List.map_cons, parsedNames, List.filterMap_cons, ← parsedNames, ih]
    rfl

theorem parsedNames_answers {fs : List Frontend} (h : ∀ f ∈ fs, f.isAnswer = true) :
    parsedNames fs = [] := by
  rw [parsedNames, List.filterMap_eq_nil_iff]
  intro f hf
  cases f <;> first | rfl | exact nomatch h _ hf

theorem closedNames_answers {fs : List Frontend} (h : ∀ f ∈ fs, f.isAnswer = true) :
    closedNames fs = [] := by
  rw [closedNames, List.filterMap_eq_nil_iff]
  intro f hf
  cases f <;> first | rfl | exact nomatch h _ hf

/-- What an exchange has written: its batch or nothing, and answers after it. -/
theorem Session.Exchanged.sent {batch : List Frontend} {events : List Event} {s s' : Session}
    (h : Exchanged batch events s s') :
    ∃ sent answers, (sent = [] ∨ sent = batch) ∧ (∀ f ∈ answers, f.isAnswer = true) ∧
      s'.written = s.written ++ sent ++ answers := by
  rw [written_eq, h.events_eq, writtenIn_append, ← written_eq]
  cases h.ended with
  | refused broken => exact ⟨[], [], .inl rfl, fun _ => nofun, by simp⟩
  | aborted answering unready broken =>
    exact ⟨batch, _, .inr rfl, answering, by rw [writtenIn_wrote, List.append_assoc]⟩
  | @ready body status answering unready broken framed =>
    refine ⟨batch, writtenIn body, .inr rfl, answering, ?_⟩
    rw [writtenIn_wrote, writtenIn_append, writtenIn_received, writtenIn_nil, List.append_nil,
      List.append_assoc]

/-- A statement was parsed under a name, with the text of some SQL in the encoding then in force
and the types of some encoders, in a cycle that reached its end and brought no error. -/
def ParsedIn (sql name : String) (encoders : List ParamEncoder) (events : List Event) : Prop :=
  ∃ (past : List Event) (query : Bytes) (messages : List Backend) (status : TransactionStatus)
    (future : List Event),
    events = past ++ .wrote (prepareBatch name query encoders) ::
      (messages.map .received ++ .received (.readyForQuery status) :: future) ∧
    (contextAfter (receivedIn past)).encodeText sql = .ok query ∧
    ∀ m ∈ messages, m.isReady = false ∧ (Receiver.describe {}).refuses m = false

theorem ParsedIn.append {sql name : String} {encoders : List ParamEncoder}
    {events : List Event} (h : ParsedIn sql name encoders events) (events' : List Event) :
    ParsedIn sql name encoders (events ++ events') := by
  obtain ⟨past, query, messages, status, future, rfl, hquery, hmessages⟩ := h
  refine ⟨past, query, messages, status, future ++ events', ?_, hquery, hmessages⟩
  simp only [List.append_assoc, List.cons_append]

/-- Only the types of the encoders matter. -/
theorem ParsedIn.congr {sql name : String} {encoders encoders' : List ParamEncoder}
    {events : List Event} (h : ParsedIn sql name encoders events)
    (htypes : encoders'.map (·.oid) = encoders.map (·.oid)) :
    ParsedIn sql name encoders' events := by
  have hbatch (query : Bytes) :
      prepareBatch name query encoders' = prepareBatch name query encoders := by
    rw [prepareBatch, htypes]
    rfl
  obtain ⟨past, query, messages, status, future, hevents, hquery, hmessages⟩ := h
  rw [← hbatch] at hevents
  exact ⟨past, query, messages, status, future, hevents, hquery, hmessages⟩

theorem ParsedIn.mem {sql name : String} {encoders : List ParamEncoder} {events : List Event}
    (h : ParsedIn sql name encoders events) : name ∈ parsedNames (writtenIn events) := by
  obtain ⟨past, query, messages, status, future, rfl, -, -⟩ := h
  rw [writtenIn_append, writtenIn_wrote, parsedNames_append, parsedNames_append]
  exact List.mem_append_right _ (List.mem_append_left _ List.mem_cons_self)

/-! ## The ledger -/

namespace Connection

/-- A statement that the cache holds under a key is on record. -/
structure Entered (c : Connection) (key : StatementKey) (statement : Statement) : Prop where
  named : statement.name = Statement.nameOf c.process statement.sequence
  numbered : statement.sequence < c.sequence
  signature : key.signature = statement.encoders.map fun e => (e.oid, e.format)
  unclosed : statement.name ∉ closedNames (c.session.written ++ c.session.staged)
  parsed : ParsedIn key.sql statement.name statement.encoders c.session.events

/-- The record of the statements of a connection that keeps some. -/
structure Ledger (c : Connection) : Prop where
  enabled : 0 < c.cache.capacity
  bounded : c.cache.entries.length ≤ c.cache.capacity
  context : c.session.context = contextAfter c.session.received
  numbered : ∀ name ∈ parsedNames c.session.written,
    ∃ n < c.sequence, name = Statement.nameOf c.process n
  parsedOnce : (parsedNames c.session.written).Nodup
  closedOnce : (closedNames (c.session.written ++ c.session.staged)).Nodup
  closedParsed : ∀ name ∈ closedNames (c.session.written ++ c.session.staged),
    name ∈ parsedNames c.session.written
  entered : ∀ e ∈ c.cache.entries, c.Entered e.1 e.2
  distinct : (c.cache.entries.map fun e => e.2.sequence).Nodup

namespace Ledger

variable {c d : Connection}

/-- Only the history, what is staged, the context, the cache and the names matter. -/
theorem of_eq (h : Ledger c) (hhistory : d.session.history = c.session.history)
    (hstaged : d.session.staged = c.session.staged)
    (hcontext : d.session.context = c.session.context) (hcache : d.cache = c.cache)
    (hprocess : d.process = c.process) (hsequence : c.sequence ≤ d.sequence) : Ledger d := by
  have hwritten : d.session.written = c.session.written := by
    rw [Session.written, hhistory]
    rfl
  have hreceived : d.session.received = c.session.received := by
    rw [Session.received, hhistory]
    rfl
  have hevents : d.session.events = c.session.events := by
    rw [Session.events, hhistory]
    rfl
  refine ⟨?_, ?_, ?_, ?_, ?_, ?_, ?_, ?_, ?_⟩
  · rw [hcache]
    exact h.enabled
  · rw [hcache]
    exact h.bounded
  · rw [hcontext, hreceived]
    exact h.context
  · intro name hname
    rw [hwritten] at hname
    obtain ⟨n, hn, rfl⟩ := h.numbered name hname
    exact ⟨n, by omega, by rw [hprocess]⟩
  · rw [hwritten]
    exact h.parsedOnce
  · rw [hwritten, hstaged]
    exact h.closedOnce
  · rw [hwritten, hstaged]
    exact h.closedParsed
  · intro e he
    rw [hcache] at he
    have hentered := h.entered e he
    refine ⟨?_, by have := hentered.numbered; omega, hentered.signature, ?_, ?_⟩
    · rw [hprocess]
      exact hentered.named
    · rw [hwritten, hstaged]
      exact hentered.unclosed
    · rw [hevents]
      exact hentered.parsed
  · rw [hcache]
    exact h.distinct

/-- The ledger after an exchange: what the batch parses is new, and what it closes was parsed and
is neither closed nor cached. -/
theorem exchange {batch : List Frontend} {events : List Event} {s : Session} (h : Ledger c)
    (hexchanged : c.session.Exchanged batch events s) {n : Nat} (hn : c.sequence ≤ n)
    (hparsedOnce : (parsedNames (c.session.written ++ batch)).Nodup)
    (hnumbered : ∀ name ∈ parsedNames batch, ∃ k < n, name = Statement.nameOf c.process k)
    (hclosedOnce : (closedNames (c.session.written ++ batch)).Nodup)
    (hclosedParsed : ∀ name ∈ closedNames batch, name ∈ parsedNames c.session.written)
    (hunclosed : ∀ e ∈ c.cache.entries, e.2.name ∉ closedNames batch) :
    Ledger { c with sequence := n, session := s } := by
  obtain ⟨sent, answers, hsent, hanswers, hwritten⟩ := hexchanged.sent
  -- A write that is refused sends less than the batch, so what holds of the batch holds of it.
  have hsub : sent.Sublist batch := by
    rcases hsent with rfl | rfl
    · exact List.nil_sublist _
    · exact List.Sublist.refl _
  have hall := hsub.append_left c.session.written
  -- The answers to the server parse nothing and close nothing.
  have hparsed : parsedNames s.written = parsedNames (c.session.written ++ sent) := by
    rw [hwritten, parsedNames_append, parsedNames_answers hanswers, List.append_nil]
  have hclosed : closedNames (s.written ++ s.staged) = closedNames (c.session.written ++ sent) := by
    rw [hwritten, hexchanged.staged, List.append_nil, closedNames_append,
      closedNames_answers hanswers, List.append_nil]
  refine ⟨h.enabled, h.bounded, hexchanged.context h.context, ?_, ?_, ?_, ?_, ?_, h.distinct⟩
  · intro name hname
    change name ∈ parsedNames s.written at hname
    rw [hparsed, parsedNames_append] at hname
    rcases List.mem_append.1 hname with hname | hname
    · obtain ⟨k, hk, rfl⟩ := h.numbered name hname
      exact ⟨k, Nat.lt_of_lt_of_le hk hn, rfl⟩
    · exact hnumbered name ((hsub.filterMap _).subset hname)
  · show (parsedNames s.written).Nodup
    rw [hparsed]
    exact hparsedOnce.sublist (hall.filterMap _)
  · show (closedNames (s.written ++ s.staged)).Nodup
    rw [hclosed]
    exact hclosedOnce.sublist (hall.filterMap _)
  · intro name hname
    show name ∈ parsedNames s.written
    change name ∈ closedNames (s.written ++ s.staged) at hname
    rw [hclosed, closedNames_append] at hname
    rw [hparsed, parsedNames_append]
    refine List.mem_append_left _ ?_
    rcases List.mem_append.1 hname with hname | hname
    · exact h.closedParsed name (closedNames_left hname _)
    · exact hclosedParsed name ((hsub.filterMap _).subset hname)
  · intro e he
    have hentered := h.entered e he
    refine ⟨hentered.named, Nat.lt_of_lt_of_le hentered.numbered hn, hentered.signature, ?_, ?_⟩
    · show e.2.name ∉ closedNames (s.written ++ s.staged)
      rw [hclosed, closedNames_append]
      intro hname
      rcases List.mem_append.1 hname with hname | hname
      · exact hentered.unclosed (closedNames_left hname _)
      · exact hunclosed e he ((hsub.filterMap _).subset hname)
    · show ParsedIn _ _ _ s.events
      rw [hexchanged.events_eq]
      exact hentered.parsed.append events

/-- The next name was not parsed before. -/
theorem nextName_notMem (h : Ledger c) :
    nextName true c ∉ parsedNames c.session.written := by
  intro hmem
  obtain ⟨n, hn, hname⟩ := h.numbered _ hmem
  have := Statement.nameOf_injective hname
  omega

/-- The ledger after the exchange that prepares the next statement. -/
theorem prepare {query : Bytes} {encoders : List ParamEncoder} {events : List Event}
    {s : Session} (h : Ledger c) (hs : c.session.Settled)
    (hexchanged : c.session.Exchanged (prepareBatch (nextName true c) query encoders) events s) :
    Ledger { c with sequence := c.sequence + 1, session := s } := by
  have hparsed : parsedNames (prepareBatch (nextName true c) query encoders) =
      [nextName true c] := rfl
  have hclosed : closedNames (prepareBatch (nextName true c) query encoders) = [] := rfl
  refine h.exchange hexchanged (Nat.le_succ _) ?_ ?_ ?_ ?_ ?_
  · rw [parsedNames_append, hparsed, List.nodup_append]
    refine ⟨h.parsedOnce, List.nodup_singleton _, ?_⟩
    intro a ha b hb
    rw [List.mem_singleton.1 hb]
    rintro rfl
    exact h.nextName_notMem ha
  · intro name hname
    rw [hparsed] at hname
    exact ⟨c.sequence, Nat.lt_succ_self _, List.mem_singleton.1 hname⟩
  · have hall := h.closedOnce
    rw [hs.staged, List.append_nil] at hall
    rw [closedNames_append, hclosed, List.append_nil]
    exact hall
  · rw [hclosed]
    exact fun _ => nofun
  · rw [hclosed]
    exact fun _ _ => nofun

theorem unprepared {sql : String} {encoders : List ParamEncoder} (h : Ledger c)
    (hs : c.session.Settled) (hd : Unprepared true sql encoders c d) : Ledger d := by
  cases hd with
  | unencoded => exact h.of_eq rfl rfl rfl rfl rfl (Nat.le_succ _)
  | failed encoded exchanged => exact h.prepare hs exchanged

/-- A statement that was just prepared can be entered. -/
theorem prepared {key : StatementKey} {encoders : List ParamEncoder} {statement : Statement}
    (h : Ledger c) (hs : c.session.Settled)
    (hkey : key.signature = encoders.map fun e => (e.oid, e.format))
    (hd : Prepared true key.sql encoders c statement d) :
    Ledger d ∧ d.Entered key statement ∧ statement.sequence = c.sequence ∧
      d.cache = c.cache := by
  obtain @⟨query, messages, status, s, types, fields, encoded, exchanged, accepted, broken⟩ := hd
  refine ⟨h.prepare hs exchanged, ⟨rfl, Nat.lt_succ_self _, hkey, ?_, ?_⟩, rfl, rfl⟩
  · obtain ⟨sent, answers, hsent, hanswers, hwritten⟩ := exchanged.sent
    have hclosed : closedNames sent = [] := by
      rcases hsent with rfl | rfl <;> rfl
    show nextName true c ∉ closedNames (s.written ++ s.staged)
    rw [hwritten, exchanged.staged, List.append_nil, closedNames_append, closedNames_append,
      closedNames_answers hanswers, hclosed, List.append_nil, List.append_nil]
    -- What is closed was parsed, and the next name was not.
    intro hmem
    exact h.nextName_notMem (h.closedParsed _ (closedNames_left hmem _))
  · refine ⟨c.session.events, query, messages, status, [], exchanged.events_eq, ?_, accepted⟩
    rw [← Session.received_eq, ← h.context]
    exact encoded

/-! ## Obtaining -/

/-- The name of an entry tells it from all others. -/
theorem name_inj (h : Ledger c) {e e' : StatementKey × Statement} (he : e ∈ c.cache.entries)
    (he' : e' ∈ c.cache.entries) (hname : e.2.name = e'.2.name) : e = e' := by
  rw [(h.entered e he).named, (h.entered e' he').named] at hname
  exact List.inj_on_of_nodup_map h.distinct he he' (Statement.nameOf_injective hname)

/-- The ledger with other entries of the cache. -/
theorem withCache (h : Ledger c) (cache : StatementCache) (closing : List String)
    (hs : c.session.staged = []) (hcapacity : cache.capacity = c.cache.capacity)
    (hbounded : cache.entries.length ≤ cache.capacity)
    (hdistinct : (cache.entries.map fun e => e.2.sequence).Nodup)
    (hentered : ∀ e ∈ cache.entries, c.Entered e.1 e.2 ∧ e.2.name ∉ closing)
    (hclosing : closing.Nodup)
    (hclosed : ∀ name ∈ closing, name ∈ parsedNames c.session.written ∧
      name ∉ closedNames c.session.written) :
    Ledger { c with
      cache
      session := { c.session with staged := closing.map (.close .statement) } } := by
  have hall := h.closedOnce
  rw [hs, List.append_nil] at hall
  refine ⟨?_, hbounded, h.context, h.numbered, h.parsedOnce, ?_, ?_, ?_, hdistinct⟩
  · show 0 < cache.capacity
    rw [hcapacity]
    exact h.enabled
  · show (closedNames (c.session.written ++ closing.map (.close .statement))).Nodup
    rw [closedNames_append, closedNames_closes, List.nodup_append]
    refine ⟨hall, hclosing, ?_⟩
    rintro a ha b hb rfl
    exact (hclosed a hb).2 ha
  · intro name hname
    change name ∈ closedNames (c.session.written ++ closing.map (.close .statement)) at hname
    rw [closedNames_append, closedNames_closes] at hname
    rcases List.mem_append.1 hname with hname | hname
    · exact h.closedParsed name (closedNames_left hname _)
    · exact (hclosed name hname).1
  · intro e he
    obtain ⟨hold, hnew⟩ := hentered e he
    refine ⟨hold.named, hold.numbered, hold.signature, ?_, hold.parsed⟩
    show e.2.name ∉ closedNames (c.session.written ++ closing.map (.close .statement))
    rw [closedNames_append, closedNames_closes]
    intro hmem
    rcases List.mem_append.1 hmem with hmem | hmem
    · exact hold.unclosed (closedNames_left hmem _)
    · exact hnew hmem

/-- Names of entries are parsed, and not closed. -/
theorem open_of_entered {key : StatementKey} {statement : Statement}
    (h : c.Entered key statement) : statement.name ∈ parsedNames c.session.written ∧
      statement.name ∉ closedNames c.session.written := by
  refine ⟨h.parsed.mem, ?_⟩
  intro hmem
  exact h.unclosed (closedNames_left hmem _)

/-- A new entry keeps the ledger, with the Close of what had to go for it. -/
theorem push {key : StatementKey} {statement : Statement} (h : Ledger c)
    (hs : c.session.staged = []) (hentered : c.Entered key statement)
    (hfresh : ∀ e ∈ c.cache.entries, e.2.sequence < statement.sequence) :
    Ledger { c with
      cache := (c.cache.push key statement).1
      session := { c.session with
        staged := ((c.cache.push key statement).2.toList.map (·.name)).map
          (.close .statement) } } := by
  have hnew (entries : List (StatementKey × Statement)) (hsub : entries ⊆ c.cache.entries)
      (hdistinct : (entries.map fun e => e.2.sequence).Nodup) :
      (((key, statement) :: entries).map fun e => e.2.sequence).Nodup := by
    rw [List.map_cons, List.nodup_cons]
    refine ⟨fun hmem => ?_, hdistinct⟩
    obtain ⟨e, he, hsame⟩ := List.mem_map.1 hmem
    have := hfresh e (hsub he)
    dsimp only at hsame
    omega
  -- The new number is greater than all others, and names tell numbers apart.
  have hdiffers {e : StatementKey × Statement} (he : e ∈ c.cache.entries) :
      statement.name ≠ e.2.name := by
    rw [hentered.named, (h.entered e he).named]
    intro hname
    have := Statement.nameOf_injective hname
    have := hfresh e he
    omega
  have hbounded := c.cache.length_push_le key statement
  obtain ⟨hentries, hevicted⟩ | ⟨front, last, hall, hentries, hevicted⟩ :=
    Cache.push_cases key statement h.bounded h.enabled
  -- There is room for the entry, and nothing is closed.
  · refine h.withCache _ _ hs rfl hbounded ?_ ?_ ?_ ?_
    · rw [hentries]
      exact hnew _ (fun _ => id) h.distinct
    · intro e he
      rw [hentries] at he
      rw [hevicted]
      refine ⟨?_, nofun⟩
      rcases List.mem_cons.1 he with rfl | he
      · exact hentered
      · exact h.entered e he
    · rw [hevicted]
      exact List.nodup_nil
    · rw [hevicted]
      exact fun _ => nofun
  -- The last entry goes, and its statement is to be closed.
  · have hlast : last ∈ c.cache.entries := by
      rw [hall]
      exact List.mem_append_right _ List.mem_cons_self
    have hfront : front ⊆ c.cache.entries := by
      rw [hall]
      exact List.subset_append_left _ _
    have hdistinct := h.distinct
    rw [hall, List.map_append, List.nodup_append] at hdistinct
    refine h.withCache _ _ hs rfl hbounded ?_ ?_ ?_ ?_
    · rw [hentries]
      exact hnew front hfront hdistinct.1
    · intro e he
      rw [hentries] at he
      rw [hevicted]
      show c.Entered e.1 e.2 ∧ e.2.name ∉ [last.2.name]
      rw [List.mem_singleton]
      rcases List.mem_cons.1 he with rfl | he
      · exact ⟨hentered, hdiffers hlast⟩
      · refine ⟨h.entered e (hfront he), fun hname => ?_⟩
        -- The last entry is not in front of itself.
        have hsame := h.name_inj (hfront he) hlast hname
        exact hdistinct.2.2 _ (List.mem_map.2 ⟨e, he, rfl⟩) _ (List.mem_map.2
          ⟨last, List.mem_cons_self, rfl⟩) (by rw [hsame])
    · rw [hevicted]
      exact List.nodup_singleton _
    · rw [hevicted]
      intro name hname
      rw [List.mem_singleton.1 (show name ∈ [last.2.name] from hname)]
      exact open_of_entered (h.entered last hlast)

/-- The statement that is obtained for a key is in the cache, and the ledger is kept. -/
theorem obtained {key : StatementKey} {encoders : List ParamEncoder} {statement : Statement}
    (h : Ledger c) (hs : c.session.Settled)
    (hkey : key.signature = encoders.map fun e => (e.oid, e.format))
    (hd : Obtained key encoders c statement d) :
    Ledger d ∧ (key, statement) ∈ d.cache.entries := by
  cases hd with
  | hit enabled found =>
    have hmem := Cache.mem_of_peek? found
    have hkept := h.withCache (c.cache.touch key statement) [] hs.staged rfl
      (Nat.le_trans (Cache.length_touch_le hmem) h.bounded)
      (Cache.nodup_touch Statement.sequence hmem h.distinct)
      (fun e he => ⟨h.entered e (Cache.mem_touch hmem he), nofun⟩) List.nodup_nil
      (fun _ => nofun)
    rw [List.map_nil, Session.unstaged hs.staged] at hkept
    exact ⟨hkept, List.mem_cons_self⟩
  | @miss c₁ enabled missing prepared =>
    obtain ⟨hkept, hentered, hsequence, hcache⟩ := h.prepared hs hkey prepared
    -- All that was cached before has a smaller number.
    have hfresh : ∀ e ∈ c₁.cache.entries, e.2.sequence < statement.sequence := by
      intro e he
      rw [hsequence]
      rw [hcache] at he
      exact (h.entered e he).numbered
    have hpushed := hkept.push prepared.settled.staged hentered hfresh
    rw [hcache, List.map_map] at hpushed
    refine ⟨hpushed, ?_⟩
    show (key, statement) ∈ (c.cache.push key statement).1.entries
    obtain ⟨hentries, -⟩ | ⟨front, last, -, hentries, -⟩ :=
      Cache.push_cases key statement h.bounded h.enabled
    · rw [hentries]
      exact List.mem_cons_self
    · rw [hentries]
      exact List.mem_cons_self
  | unkept disabled prepared => exact absurd h.enabled (by omega)

/-! ## Executing -/

theorem parsedNames_closeBatch (names : List String) : parsedNames (closeBatch names) = [] := by
  rw [closeBatch, parsedNames_append, parsedNames_closes]
  rfl

theorem closedNames_closeBatch (names : List String) :
    closedNames (closeBatch names) = names := by
  rw [closeBatch, closedNames_append, closedNames_closes]
  exact List.append_nil _

/-- What executes a statement parses nothing, and closes what waits to be closed. -/
theorem parsedNames_executeBatch (statement : Statement) (params : List (Option Bytes))
    {names : List String} (hnames : c.session.staged = names.map (.close .statement)) :
    parsedNames (executeBatch statement params c) = [] := by
  rw [executeBatch, hnames, parsedNames_append, parsedNames_closes]
  rfl

theorem closedNames_executeBatch (statement : Statement) (params : List (Option Bytes))
    (c : Connection) :
    closedNames (executeBatch statement params c) = closedNames c.session.staged := by
  rw [executeBatch, closedNames_append]
  exact List.append_nil _

/-- The exchange that executes a statement sends what waits to be closed, and nothing else that
the ledger is about. -/
theorem execute {statement : Statement} {params : List (Option Bytes)} {names : List String}
    {events : List Event} {s : Session} (h : Ledger c)
    (hnames : c.session.staged = names.map (.close .statement))
    (hexchanged : c.session.Exchanged (executeBatch statement params c) events s) :
    Ledger { c with session := s } := by
  have hparsed := parsedNames_executeBatch statement params hnames
  have hclosed := closedNames_executeBatch statement params c
  -- What waited counted as closed already, so sending it changes nothing.
  refine h.exchange hexchanged (Nat.le_refl _) ?_ ?_ ?_ ?_ ?_
  · rw [parsedNames_append, hparsed, List.append_nil]
    exact h.parsedOnce
  · rw [hparsed]
    intro name hname
    cases hname
  · rw [closedNames_append, hclosed, ← closedNames_append]
    exact h.closedOnce
  · intro name hname
    rw [hclosed] at hname
    exact h.closedParsed name (closedNames_right hname _)
  · intro e he hname
    rw [hclosed] at hname
    exact (h.entered e he).unclosed (closedNames_right hname _)

/-- A statement of the cache has a name of its own. -/
theorem named (h : Ledger c) {e : StatementKey × Statement} (he : e ∈ c.cache.entries) :
    e.2.isUnnamed = false := by
  have hname := Statement.nameOf_ne_empty c.process e.2.sequence
  rw [← (h.entered e he).named] at hname
  rw [Statement.isUnnamed, Bool.eq_false_iff]
  intro hempty
  exact hname (String.isEmpty_iff.1 hempty)

theorem mem_cachedNames {cache : StatementCache} {name : String} :
    name ∈ cachedNames cache ↔ ∃ e ∈ cache.entries, e.2.name = name := by
  rw [cachedNames, Cache.drained, List.map_map, List.mem_map]
  constructor
  · rintro ⟨e, he, rfl⟩
    exact ⟨e, List.mem_reverse.1 he, rfl⟩
  · rintro ⟨e, he, rfl⟩
    exact ⟨e, List.mem_reverse.2 he, rfl⟩

theorem nodup_cachedNames (h : Ledger c) : (cachedNames c.cache).Nodup := by
  rw [cachedNames, Cache.drained, List.map_map, List.map_reverse, List.nodup_reverse]
  have hdistinct : c.cache.entries.Nodup := h.distinct.of_map
  refine hdistinct.map_on ?_
  intro e he e' he' hname
  exact h.name_inj he he' hname

/-- The ledger of a connection whose cache is emptied and closed. -/
theorem clear (h : Ledger c) (hs : c.session.staged = []) :
    Ledger { c with cache := c.cache.clear } := by
  have hkept := h.withCache c.cache.clear [] hs rfl (Nat.zero_le _) List.nodup_nil
    (fun _ => nofun) List.nodup_nil (fun _ => nofun)
  rw [List.map_nil, Session.unstaged hs] at hkept
  exact hkept

theorem invalidate {r : Except Error Unit} (h : Ledger c) (hs : c.session.Settled)
    (hd : invalidate.run c = (r, d)) : Ledger d := by
  have hcleared := h.clear hs.staged
  rw [invalidate_run hs.staged] at hd
  by_cases skip : cachedNames c.cache = [] ∨ c.session.broken = true
  · rw [if_pos skip] at hd
    obtain ⟨-, rfl⟩ := Prod.mk.inj hd
    exact hcleared
  · rw [if_neg skip] at hd
    obtain ⟨-, rfl⟩ := Prod.mk.inj hd
    have hb : c.session.broken = false := Bool.eq_false_iff.2 fun hb => skip (.inr hb)
    obtain ⟨events, hexchanged⟩ :=
      Session.exchange_exchanged .discard (closeBatch_ne_nil (cachedNames c.cache)) hb hs.deferred
    have hall := h.closedOnce
    rw [hs.staged, List.append_nil] at hall
    refine hcleared.exchange hexchanged (Nat.le_refl _) ?_ ?_ ?_ ?_ (fun _ => nofun)
    · rw [parsedNames_append, parsedNames_closeBatch, List.append_nil]
      exact h.parsedOnce
    · rw [parsedNames_closeBatch]
      exact fun _ => nofun
    -- What was cached was not closed before.
    · rw [closedNames_append, closedNames_closeBatch, List.nodup_append]
      refine ⟨hall, h.nodup_cachedNames, ?_⟩
      rintro a ha b hb rfl
      obtain ⟨e, he, rfl⟩ := mem_cachedNames.1 hb
      exact (open_of_entered (h.entered e he)).2 ha
    · rw [closedNames_closeBatch]
      intro name hname
      obtain ⟨e, he, rfl⟩ := mem_cachedNames.1 hname
      exact (open_of_entered (h.entered e he)).1

theorem invalidateStale {r : Except Error Unit} (h : Ledger c) (hs : c.session.Settled)
    (hd : invalidateStale.run c = (r, d)) : Ledger d := by
  rw [invalidateStale_run] at hd
  cases hstale : c.session.stale with
  | true =>
    rw [if_pos hstale] at hd
    have hfresh : Ledger { c with session := { c.session with stale := false } } :=
      h.of_eq rfl rfl rfl rfl rfl (Nat.le_refl _)
    exact hfresh.invalidate ⟨hs.staged, hs.deferred⟩ hd
  | false =>
    rw [if_neg (Bool.eq_false_iff.1 hstale)] at hd
    obtain ⟨-, rfl⟩ := Prod.mk.inj hd
    exact h

/-- Every execution keeps the ledger. -/
theorem performed {call : Call} {copy : CopyStreams}
    {out : Except Error (Statement × Outcome) × CopyStreams} (h : Ledger c)
    (hs : c.session.Settled) (hb : c.session.broken = false)
    (hd : Performed call copy c out d) : Ledger d := by
  have henabled : c.cache.isEnabled = true := decide_eq_true h.enabled
  cases hd with
  | rejected rejected =>
    cases rejected with
    | unchanged => exact h
    | unprepared inspected failed =>
      rw [henabled] at failed
      exact h.unprepared hs failed
  | @refused encoders params statement d e s readied sent =>
    have hobtained := readied.obtained
    obtain ⟨hd, -⟩ := h.obtained hs rfl hobtained
    obtain ⟨names, hnames⟩ := hobtained.closes hs
    have hdeferred := ((hobtained.moves hs hb).settled hs).deferred
    obtain ⟨events, hexchanged⟩ := Session.exchange_exchanged .discard
      (executeBatch_ne_nil statement params d) (hobtained.broken hb) hdeferred
    rw [Session.exchange, sent] at hexchanged
    exact hd.execute hnames hexchanged
  | @executed encoders params statement d c₁ c₂ r r₁ r₂ receiver s t readied sent cycled released
      invalidated =>
    have hobtained := readied.obtained
    obtain ⟨hd, hmem⟩ := h.obtained hs rfl hobtained
    obtain ⟨names, hnames⟩ := hobtained.closes hs
    have hdeferred := ((hobtained.moves hs hb).settled hs).deferred
    obtain ⟨events, hexchanged⟩ := Session.exchange_exchanged
      (.rows statement.columns {} copy) (executeBatch_ne_nil statement params d)
      (hobtained.broken hb) hdeferred
    simp only [Session.exchange, sent, cycled] at hexchanged
    have hexecuted := hd.execute hnames hexchanged
    -- A cached statement has a name, so it is not released.
    rw [release, if_neg (Bool.eq_false_iff.1 (hd.named hmem))] at released
    obtain ⟨-, rfl⟩ := Prod.mk.inj released
    exact hexecuted.invalidateStale hexchanged.settled invalidated

/-! ## Every run -/

theorem settings (h : Ledger c) (hd : Settings c d) : Ledger d := by
  cases hd
  exact h.of_eq rfl rfl rfl rfl rfl (Nat.le_refl _)

/-- Executions keep the ledger. -/
theorem performs {xs : List Execution} (h : Ledger c) (hd : Performs c xs d) : Ledger d :=
  hd.invariant (fun hsettings hc => hc.settings hsettings)
    (fun x husable hx => hx.performed husable.settled husable.sound (x.performed husable)) h

/-- A connection that is opened and may keep statements has an empty ledger. -/
theorem of_connect {stream : Stream} {config : Config} {options : ConnectOptions}
    (hcapacity : 0 < config.maxPreparedStatements.toNat)
    (h : connect stream config options = (.ok (), c)) : Ledger c := by
  obtain ⟨events, s, rfl, -, hexchanged⟩ := opened_of_connect h
  have hfresh : Ledger (fresh stream config options) :=
    ⟨hcapacity, Nat.zero_le _, rfl, fun _ => nofun, List.nodup_nil, List.nodup_nil,
      fun _ => nofun, fun _ => nofun, List.nodup_nil⟩
  exact hfresh.exchange hexchanged (Nat.le_refl _) List.nodup_nil (fun _ => nofun)
    List.nodup_nil (fun _ => nofun) (fun _ => nofun)

end Ledger

end Connection

end PgClient
