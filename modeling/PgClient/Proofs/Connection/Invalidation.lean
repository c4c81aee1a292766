/-
  PgClient.Proofs.Connection.Invalidation

  What becomes of the cached statements when a command makes them stale. The
  cache is emptied before the call returns and all that it held is closed in one
  batch; what it holds later was parsed later, so that no Bind goes back to a
  statement from before the command.
-/
import PgClient.Proofs.Connection.BindSafety

namespace PgClient

open ConnectionM Steps

/-! ## Getting stale -/

/-- Whether a message reports a command after which no prepared statement can be relied on. -/
def Backend.makesStale : Backend → Bool
  | .commandComplete tag => CommandTag.invalidates tag
  | _ => false

namespace Session

theorem stale_noted (s : Session) (m : Backend) :
    (s.noted m).stale = (s.stale || m.makesStale) := by
  cases m with
  | parameterStatus name value =>
    simp only [noted, setParameter, applyParameter, Backend.makesStale, Bool.or_false]
    split <;> (try split) <;> rfl
  | commandComplete tag =>
    cases hstale : CommandTag.invalidates tag <;>
      simp [noted, Backend.makesStale, hstale]
  | _ => exact (Bool.or_false _).symm

/-- A session is stale after some events if it was before or one of the commands made it so. -/
theorem stale_replay (s : Session) (events : List Event) :
    (s.replay events).stale = (s.stale || (receivedIn events).any Backend.makesStale) := by
  induction events generalizing s with
  | nil => exact (Bool.or_false _).symm
  | cons e events ih =>
    rw [replay_cons, ih]
    cases e with
    | wrote batch => rfl
    | received m =>
      show ((s.noted m).stale || _) = _
      rw [stale_noted, receivedIn_received, List.any_cons, Bool.or_assoc]

/-- Nothing but an invalidation makes a stale session fresh again. -/
theorem Exchanged.stale {batch : List Frontend} {events : List Event} {s s' : Session}
    (h : Exchanged batch events s s') (hstale : s.stale = true) : s'.stale = true := by
  rw [congrArg Session.stale h.known]
  show (s.replay events).stale = true
  rw [stale_replay, hstale, Bool.true_or]

end Session

/-! ## What the cache holds later -/

namespace Connection

/-- All that a connection caches was cached before, or was given its number since. -/
structure Renewed (c d : Connection) : Prop where
  entries : ∀ e ∈ d.cache.entries,
    e ∈ c.cache.entries ∨ 0 < c.cache.capacity ∧ c.sequence ≤ e.2.sequence
  sequence : c.sequence ≤ d.sequence
  capacity : d.cache.capacity = c.cache.capacity
  process : d.process = c.process

namespace Renewed

variable {c d e : Connection}

theorem refl (c : Connection) : Renewed c c := ⟨fun _ => .inl, Nat.le_refl _, rfl, rfl⟩

theorem trans (h : Renewed c d) (h' : Renewed d e) : Renewed c e where
  entries := by
    intro x hx
    rcases h'.entries x hx with hx | ⟨henabled, hx⟩
    · exact h.entries x hx
    · exact .inr ⟨h.capacity ▸ henabled, Nat.le_trans h.sequence hx⟩
  sequence := Nat.le_trans h.sequence h'.sequence
  capacity := h'.capacity.trans h.capacity
  process := h'.process.trans h.process

/-- A connection that only forgets some of its statements. -/
theorem of_subset (hcache : d.cache.entries ⊆ c.cache.entries) (hsequence : d.sequence = c.sequence)
    (hcapacity : d.cache.capacity = c.cache.capacity) (hprocess : d.process = c.process) :
    Renewed c d :=
  ⟨fun _ hx => .inl (hcache hx), Nat.le_of_eq hsequence.symm, hcapacity, hprocess⟩

end Renewed

theorem Settings.renewed {c d : Connection} (h : Settings c d) : Renewed c d := by
  cases h
  exact .of_subset (List.Subset.refl _) rfl rfl rfl

end Connection

namespace ConnectionM

open Connection

variable {call : Call} {copy : CopyStreams} {c c' d : Connection} {statement : Statement}
  {named : Bool} {sql : String} {key : StatementKey} {encoders : List ParamEncoder}

theorem Unprepared.renewed (h : Unprepared named sql encoders c d) : Renewed c d := by
  cases h <;> exact ⟨fun _ => .inl, Nat.le_succ _, rfl, rfl⟩

/-- The statement that was prepared has the number that was the next one. -/
theorem Prepared.renewed (h : Prepared named sql encoders c statement d) :
    d.cache = c.cache ∧ d.sequence = c.sequence + 1 ∧ d.process = c.process ∧
      statement.sequence = c.sequence ∧ statement.name = nextName named c := by
  cases h
  exact ⟨rfl, rfl, rfl, rfl, rfl⟩

theorem Obtained.renewed (h : Obtained key encoders c statement d) : Renewed c d := by
  cases h with
  | hit enabled found =>
    refine .of_subset ?_ rfl rfl rfl
    intro e he
    exact Cache.mem_touch (Cache.mem_of_peek? found) he
  | @miss d enabled missing prepared =>
    obtain ⟨hcache, hsequence, hprocess, hnumber, -⟩ := prepared.renewed
    refine ⟨?_, ?_, rfl, hprocess⟩
    · intro e he
      have hgrown : e ∈ (key, statement) :: c.cache.entries := List.mem_of_mem_take he
      rcases List.mem_cons.1 hgrown with rfl | he
      · exact .inr ⟨Nat.pos_of_ne_zero enabled, Nat.le_of_eq hnumber.symm⟩
      · exact .inl he
    · show c.sequence ≤ d.sequence
      omega
  | unkept disabled prepared =>
    obtain ⟨hcache, hsequence, hprocess, -⟩ := prepared.renewed
    refine ⟨?_, by omega, ?_, hprocess⟩
    · rw [hcache]
      exact fun _ => .inl
    · rw [hcache]

/-- Releasing leaves alone what is cached. -/
theorem release_cache {r : Except Error Unit} (hs : c.session.staged = [])
    (h : (release statement).run c = (r, c')) : c' = { c with session := c'.session } := by
  unfold release at h
  by_cases hunnamed : statement.isUnnamed = true
  · rw [if_pos hunnamed, releaseUnnamed_run hs] at h
    split at h
    · obtain ⟨-, rfl⟩ := Prod.mk.inj h
      rfl
    · obtain ⟨-, rfl⟩ := Prod.mk.inj h
      rfl
  · rw [if_neg hunnamed] at h
    obtain ⟨-, rfl⟩ := Prod.mk.inj h
    rfl

/-- Invalidating leaves nothing cached. -/
theorem invalidate_cache {r : Except Error Unit} (hs : c.session.staged = [])
    (h : invalidate.run c = (r, c')) :
    c' = { c with cache := c.cache.clear, session := c'.session } := by
  rw [invalidate_run hs] at h
  split at h
  · obtain ⟨-, rfl⟩ := Prod.mk.inj h
    rfl
  · obtain ⟨-, rfl⟩ := Prod.mk.inj h
    rfl

theorem invalidateStale_renewed {r : Except Error Unit} (hs : c.session.staged = [])
    (h : invalidateStale.run c = (r, c')) : Renewed c c' := by
  rw [invalidateStale_run] at h
  cases hstale : c.session.stale with
  | true =>
    rw [if_pos hstale] at h
    rw [invalidate_cache (c := { c with session := { c.session with stale := false } }) hs h]
    exact .of_subset (List.nil_subset _) rfl rfl rfl
  | false =>
    rw [if_neg (Bool.eq_false_iff.1 hstale)] at h
    obtain ⟨-, rfl⟩ := Prod.mk.inj h
    exact .refl c

/-- What is cached after an execution was cached before it, or was given its number in it. -/
theorem Performed.renewed {out : Except Error (Statement × Outcome) × CopyStreams}
    (hb : c.session.broken = false) (h : Performed call copy c out c') : Renewed c c' := by
  cases h with
  | rejected rejected =>
    cases rejected with
    | unchanged => exact .refl c
    | unprepared inspected failed => exact failed.renewed
  | @refused encoders params statement d e s readied sent =>
    exact readied.obtained.renewed.trans (.of_subset (List.Subset.refl _) rfl rfl rfl)
  | @executed encoders params statement d c₁ c₂ r r₁ r₂ receiver s t readied sent cycled released
      invalidated =>
    obtain ⟨-, -, -, ht, -⟩ := readied.obtained.cycled hb sent cycled
    have hreleased : Renewed d c₁ := by
      rw [release_cache ht.staged released]
      exact .of_subset (List.Subset.refl _) rfl rfl rfl
    have hsettled := Moves.settled (release_moves ht released) ht
    exact (readied.obtained.renewed.trans hreleased).trans
      (invalidateStale_renewed hsettled.staged invalidated)

end ConnectionM

/-- What is cached after some executions was cached before them, or was given its number in one
of them. -/
theorem Connection.Performs.renewed {c d : Connection} {xs : List Execution}
    (h : Performs c xs d) : Renewed c d := by
  refine h.invariant (I := fun d => Renewed c d) ?_ ?_ (.refl c)
  · exact fun hsettings hd => hd.trans hsettings.renewed
  · exact fun x husable hx => hx.trans ((x.performed husable).renewed husable.sound)

/-! ## The end of a stale cycle -/

namespace Session

/-- A command that makes statements stale has done so by the end of its cycle. -/
theorem Completed.stale {receiver receiver' : Receiver} {events : List Event}
    {held : Option Error} {s t : Session} {m : Backend} (hs : s.staged = [])
    (h : Completed receiver receiver' events held s t) (hm : m ∈ receivedIn events)
    (hstale : m.makesStale = true) : t.stale = true := by
  have hran := h.runs.ran (by exact hs)
  have hknown := congrArg Session.stale hran.known
  have hreplay := stale_replay { s with deferred := none } events
  rw [List.any_eq_true.2 ⟨m, hm, hstale⟩, Bool.or_true] at hreplay
  exact hknown.trans hreplay

end Session

namespace ConnectionM

open Connection

variable {c c' : Connection} {statement : Statement} {r : Except Error Unit}

/-- Releasing does not make a stale session fresh. -/
theorem release_stale (hs : c.session.Settled) (hstale : c.session.stale = true)
    (h : (release statement).run c = (r, c')) : c'.session.stale = true := by
  unfold release at h
  by_cases hunnamed : statement.isUnnamed = true
  · rw [if_pos hunnamed, releaseUnnamed_run hs.staged] at h
    cases hb : c.session.broken with
    | true =>
      rw [if_pos hb] at h
      obtain ⟨-, rfl⟩ := Prod.mk.inj h
      exact hstale
    | false =>
      rw [if_neg (Bool.eq_false_iff.1 hb)] at h
      obtain ⟨-, rfl⟩ := Prod.mk.inj h
      obtain ⟨events, hexchanged⟩ :=
        Session.exchange_exchanged .discard (closeBatch_ne_nil [""]) hb hs.deferred
      exact hexchanged.stale hstale
  · rw [if_neg hunnamed] at h
    obtain ⟨-, rfl⟩ := Prod.mk.inj h
    exact hstale

/-- A stale session leaves nothing cached. -/
theorem invalidateStale_entries (hs : c.session.staged = []) (hstale : c.session.stale = true)
    (h : invalidateStale.run c = (r, c')) : c'.cache.entries = [] := by
  rw [invalidateStale_run, if_pos hstale] at h
  rw [invalidate_cache (c := { c with session := { c.session with stale := false } }) hs h]
  rfl

/-- What a stale session held is closed in one batch, unless the write is refused. -/
theorem invalidateStale_closes (hs : c.session.Settled) (hb : c.session.broken = false)
    (hstale : c.session.stale = true) (hnames : cachedNames c.cache ≠ [])
    (h : invalidateStale.run c = (r, c')) :
    ∃ events, c'.session.events = c.session.events ++ events ∧
      (events = [] ∧ c'.session.broken = true ∨
        ∃ later, events = .wrote (closeBatch (cachedNames c.cache)) :: later ∧
          Answering later) := by
  have hsound : ¬ (cachedNames c.cache = [] ∨ c.session.broken = true) := by
    rintro (hempty | hbroken)
    · exact hnames hempty
    · rw [hb] at hbroken
      cases hbroken
  rw [invalidateStale_run, if_pos hstale,
    invalidate_run (c := { c with session := { c.session with stale := false } }) hs.staged,
    if_neg hsound] at h
  obtain ⟨-, rfl⟩ := Prod.mk.inj h
  obtain ⟨events, hexchanged⟩ := Session.exchange_exchanged
    (s := { c.session with stale := false }) .discard (closeBatch_ne_nil (cachedNames c.cache))
    hb hs.deferred
  refine ⟨events, hexchanged.events_eq, ?_⟩
  cases hexchanged.ended with
  | refused broken => exact .inl ⟨rfl, broken⟩
  | aborted answering unready broken => exact .inr ⟨_, rfl, answering⟩
  | ready answering unready broken framed =>
    refine .inr ⟨_, rfl, answering.append ?_⟩
    exact fun _ => nofun

end ConnectionM

/-! ## The execution of a stale cycle -/

/-- What an invalidation makes of the statements that were cached when the cycle had ended:
`rest` is what has happened since. -/
structure Execution.Invalidated (x : Execution) (cache : StatementCache) (rest : List Event) :
    Prop where
  emptied : x.after.cache.entries = []
  closed : ∀ e ∈ cache.entries, (cachedNames cache).count e.2.name = 1 ∧
    (rest = [] ∧ x.after.session.broken = true ∨
      ∃ later, rest = .wrote (closeBatch (cachedNames cache)) :: later ∧ Answering later)

namespace Execution

variable {x : Execution} {encoders : List ParamEncoder} {params : List (Option Bytes)}
  {statement : Statement} {d : Connection} {after : List Event}

/-- The rest of an execution whose cycle has come to its end. -/
theorem Sends.completed (h : x.Sends encoders params statement d after) (hx : x.before.Usable)
    {body rest : List Event} {status : TransactionStatus}
    (hafter : after = body ++ .received (.readyForQuery status) :: rest) (hbody : Unready body) :
    ∃ s t c₁ receiver receiver' held r₁ r₂, s.staged = [] ∧ t.Settled ∧
      Session.Completed receiver receiver' (body ++ [.received (.readyForQuery status)]) held s t ∧
      (release statement).run { d with session := t } = (r₁, c₁) ∧
      invalidateStale.run c₁ = (r₂, x.after) ∧
      x.after.session.events = t.events ++ rest := by
  obtain ⟨s, t, c₁, receiver, r, r₁, r₂, sent, cycled, released, invalidated⟩ := h.course
  obtain ⟨hsent, hstaged, hs, hsettled, -⟩ := h.readied.obtained.cycled hx.sound sent cycled
  have hevents := h.sent
  rw [List.append_cons, ← hsent, hafter] at hevents
  obtain ⟨held, events, -, hcompleted⟩ | ⟨e, events, -, haborted⟩ :=
    Session.cycle_cases hstaged hs cycled
  · obtain ⟨-, ht⟩ := hcompleted.answering hstaged
    obtain ⟨added, -, hadded⟩ := bindless_after hsettled released invalidated
    obtain ⟨body', status', rfl, hbody'⟩ := hcompleted.ready
    -- Both descriptions of the cycle end with its only ReadyForQuery.
    have hsame := hevents.symm.trans hadded
    rw [ht, List.append_assoc, List.append_assoc] at hsame
    have hcycle := List.append_cancel_left hsame
    obtain ⟨rfl, rfl⟩ := hbody.append_inj hbody' hcycle
    obtain ⟨hready, -⟩ := List.cons.inj (List.append_cancel_left hcycle)
    rw [← hready] at hcompleted
    exact ⟨s, t, c₁, _, receiver, held, r₁, r₂, hstaged, hsettled, hcompleted, released,
      invalidated, hadded⟩
  · -- A cycle that ends early has no ReadyForQuery, and nothing happens after it.
    have hreleased := release_moves (by exact hsettled) released
    have hquiet := Connection.Moves.quiet (hreleased.trans
      (invalidateStale_moves (Connection.Moves.settled hreleased hsettled) invalidated))
      haborted.broken
    have ht := Session.events_of_known haborted.ran.known
    have hsame := hevents.symm.trans (hquiet.1.trans ht)
    have hready := haborted.unready (.readyForQuery status) (by
      rw [← List.append_cancel_left hsame, receivedIn_append]
      exact List.mem_append_right _ List.mem_cons_self)
    cases hready

/-- The rest of an execution whose cycle has come to its end, after a command that makes
statements stale. -/
theorem Sends.ended (h : x.Sends encoders params statement d after) (hx : x.before.Usable)
    {body rest : List Event} {status : TransactionStatus} {m : Backend}
    (hafter : after = body ++ .received (.readyForQuery status) :: rest) (hbody : Unready body)
    (hm : m ∈ receivedIn body) (hstale : m.makesStale = true) :
    ∃ t c₁ r₁ r₂, t.Settled ∧ t.broken = false ∧ t.stale = true ∧
      (release statement).run { d with session := t } = (r₁, c₁) ∧
      invalidateStale.run c₁ = (r₂, x.after) ∧
      x.after.session.events = t.events ++ rest := by
  obtain ⟨s, t, c₁, receiver, receiver', held, r₁, r₂, hstaged, hsettled, hcompleted, released,
    invalidated, hevents⟩ := h.completed hx hafter hbody
  refine ⟨t, c₁, r₁, r₂, hsettled, hcompleted.broken, ?_, released, invalidated, hevents⟩
  refine hcompleted.stale hstaged ?_ hstale
  rw [receivedIn_append]
  exact List.mem_append_left _ hm

/-- A cycle that makes statements stale leaves nothing cached. -/
theorem Sends.emptied (h : x.Sends encoders params statement d after) (hx : x.before.Usable)
    {body rest : List Event} {status : TransactionStatus} {m : Backend}
    (hafter : after = body ++ .received (.readyForQuery status) :: rest) (hbody : Unready body)
    (hm : m ∈ receivedIn body) (hstale : m.makesStale = true) : x.after.cache.entries = [] := by
  obtain ⟨t, c₁, r₁, r₂, ht, -, hstale, released, invalidated, -⟩ :=
    h.ended hx hafter hbody hm hstale
  have hsettled := Connection.Moves.settled (release_moves (by exact ht) released) ht
  exact invalidateStale_entries hsettled.staged
    (release_stale (by exact ht) hstale released) invalidated

/-- Where the ledger tells the cached statements apart, each of them is closed once. -/
theorem Sends.invalidated (h : x.Sends encoders params statement d after) (hx : x.before.Usable)
    (hledger : Connection.Ledger x.before)
    {body rest : List Event} {status : TransactionStatus} {m : Backend}
    (hafter : after = body ++ .received (.readyForQuery status) :: rest) (hbody : Unready body)
    (hm : m ∈ receivedIn body) (hstale : m.makesStale = true) : x.Invalidated d.cache rest := by
  refine ⟨h.emptied hx hafter hbody hm hstale, ?_⟩
  obtain ⟨hd, hmem⟩ := hledger.obtained hx.settled rfl h.readied.obtained
  obtain ⟨t, c₁, r₁, r₂, ht, hb, hstale, released, invalidated, hevents⟩ :=
    h.ended hx hafter hbody hm hstale
  -- The statement is cached, so it has a name and is not released.
  rw [release, if_neg (Bool.eq_false_iff.1 (hd.named hmem))] at released
  obtain ⟨-, rfl⟩ := Prod.mk.inj released
  have hcached : statement.name ∈ cachedNames d.cache :=
    Connection.Ledger.mem_cachedNames.2 ⟨_, hmem, rfl⟩
  obtain ⟨events, hadded, hcases⟩ := invalidateStale_closes (c := { d with session := t })
    ht hb hstale (List.ne_nil_of_mem hcached) invalidated
  obtain rfl := List.append_cancel_left (hadded.symm.trans hevents)
  intro e he
  exact ⟨List.count_eq_one_of_mem hd.nodup_cachedNames
    (Connection.Ledger.mem_cachedNames.2 ⟨e, he, rfl⟩), hcases⟩

end Execution

/-! ## Later Binds -/

namespace ConnectionM

open Connection

variable {c : Connection} {statement : Statement}

/-- A statement with a name is in the cache, or it is given the next number. -/
theorem Obtained.number {key : StatementKey} {encoders : List ParamEncoder} {d : Connection}
    (h : Obtained key encoders c statement d) (hledger : 0 < c.cache.capacity → Ledger c)
    (hname : statement.name ≠ "") :
    0 < c.cache.capacity ∧ statement.name = Statement.nameOf c.process statement.sequence ∧
      ((key, statement) ∈ c.cache.entries ∨ statement.sequence = c.sequence) := by
  cases h with
  | hit enabled found =>
    have hmem := Cache.mem_of_peek? found
    have henabled := Nat.pos_of_ne_zero enabled
    exact ⟨henabled, ((hledger henabled).entered _ hmem).named, .inl hmem⟩
  | miss enabled missing prepared =>
    obtain ⟨-, -, -, hnumber, hnamed⟩ := prepared.renewed
    refine ⟨Nat.pos_of_ne_zero enabled, ?_, .inr hnumber⟩
    rw [hnamed, hnumber]
    rfl
  | unkept disabled prepared =>
    obtain ⟨-, -, -, -, hnamed⟩ := prepared.renewed
    exact absurd hnamed hname

end ConnectionM

namespace Connection

variable {c c' : Connection} {xs : List Execution}

/-- Once nothing is cached, no Bind goes back to a statement that was parsed before. -/
theorem Performs.bind_fresh (h : Performs c xs c') (hempty : c.cache.entries = [])
    (hledger : 0 < c.cache.capacity → Ledger c) {since future : List Frontend}
    {portal name : String} {formats results : List Format} {params : List (Option Bytes)}
    (hwritten : c'.session.written =
      c.session.written ++ since ++ .bind portal name formats params results :: future)
    (hname : name ≠ "") : name ∉ parsedNames c.session.written := by
  -- A text is shorter than itself with something after it.
  have hnew : ¬ ∃ rest, c.session.written =
      c.session.written ++ since ++ .bind portal name formats params results :: rest := by
    rintro ⟨rest, hrest⟩
    have hlength := congrArg List.length hrest
    simp only [List.length_append, List.length_cons] at hlength
    omega
  obtain ⟨earlier, y, later, encoders, params', statement, d, after, rfl, hsends, -, hbind⟩ :=
    h.bind_cases rfl hnew hwritten
  cases hbind
  have hearlier := h.split.1
  have hrenewed := hearlier.renewed
  obtain ⟨henabled, hnamed, hsource⟩ := hsends.readied.obtained.number
    (fun hy => (hledger (hrenewed.capacity ▸ hy)).performs hearlier) hname
  -- Nothing was cached, so the statement got its number afterwards.
  have hnumber : c.sequence ≤ statement.sequence := by
    rcases hsource with hmem | hnext
    · rcases hrenewed.entries _ hmem with hold | ⟨-, hnumber⟩
      · rw [hempty] at hold
        cases hold
      · exact hnumber
    · rw [hnext]
      exact hrenewed.sequence
  -- All that was parsed before has a smaller number.
  intro hparsed
  obtain ⟨n, hn, hold⟩ := (hledger (hrenewed.capacity ▸ henabled)).numbered _ hparsed
  rw [hnamed, hrenewed.process] at hold
  have := Statement.nameOf_injective hold
  omega

/-- A connection that is opened caches nothing yet. -/
theorem cache_of_connect {stream : Stream} {config : Config} {options : ConnectOptions}
    (h : connect stream config options = (.ok (), c)) :
    c.cache = .empty config.maxPreparedStatements.toNat := by
  obtain ⟨events, s, rfl, -, -⟩ := opened_of_connect h
  rfl

/-- Whatever a server sends: when a cycle that executes a statement has come to its end after a
command that makes statements stale, the cache is emptied, all that it held is closed once, and
no later Bind names a statement that was parsed before. -/
theorem stale_invalidated {stream : Stream} {config : Config} {options : ConnectOptions}
    (h : connect stream config options = (.ok (), c)) (ops : List Operation) :
    ∀ earlier x later, c.executions ops = earlier ++ x :: later →
      (∃ added, Bindless added ∧ x.after.session.events = x.before.session.events ++ added) ∨
        ∃ encoders params statement d after, x.Sends encoders params statement d after ∧
          ∀ body status rest tag, after = body ++ .received (.readyForQuery status) :: rest →
            Unready body → .commandComplete tag ∈ receivedIn body →
            String.ofList ((CommandTag.verb tag).map Char.toUpper) ∈
              ["ALTER", "CREATE", "DROP", "ROLLBACK"] →
            x.Invalidated d.cache rest ∧
              ∀ since portal name formats params results future,
                (c.runs ops).session.written = x.after.session.written ++ since ++
                  .bind portal name formats params results :: future →
                name ≠ "" → name ∉ parsedNames x.after.session.written := by
  intro earlier x later hxs
  have hruns := runs_performs ops (settled_of_connect h)
  rw [hxs] at hruns
  obtain ⟨hearlier, hx, hlater⟩ := hruns.split
  obtain hnone | ⟨encoders, params, statement, d, after, hsends⟩ := x.sends_cases hx
  · exact .inl hnone
  refine .inr ⟨encoders, params, statement, d, after, hsends, ?_⟩
  intro body status rest tag hafter hbody htag hverb
  have hstale : Backend.makesStale (.commandComplete tag) = true := List.contains_iff_mem.2 hverb
  have hcache := cache_of_connect h
  have hbefore := hearlier.renewed
  have hafterwards := (x.performed hx).renewed hx.sound
  have hledger {e : Connection} (he : Renewed c e) (henabled : 0 < e.cache.capacity) :
      Ledger c := by
    rw [he.capacity, hcache] at henabled
    exact Ledger.of_connect henabled h
  have hinvalidated : x.Invalidated d.cache rest := by
    by_cases henabled : 0 < x.before.cache.capacity
    · exact hsends.invalidated hx ((hledger hbefore henabled).performs hearlier) hafter hbody htag
        hstale
    · -- Where nothing is kept there is nothing to close.
      refine ⟨hsends.emptied hx hafter hbody htag hstale, ?_⟩
      intro e he
      rcases (hbefore.trans hsends.readied.obtained.renewed).entries e he with hold | ⟨hkept, -⟩
      · rw [hcache] at hold
        cases hold
      · exact absurd (hbefore.capacity ▸ hkept) henabled
  refine ⟨hinvalidated, ?_⟩
  intro since portal name formats params' results future hwritten hname
  refine hlater.bind_fresh hinvalidated.emptied ?_ hwritten hname
  intro henabled
  have hperforms := hearlier.append (Execution.performs hx)
  exact (hledger (hbefore.trans hafterwards) henabled).performs hperforms

/-- What a server sends that describes one statement as one without rows, reports a DROP when it
is executed, and is ready again after that. -/
def dropped : Bytes :=
  [0x6E, 0, 0, 0, 4, 0x5A, 0, 0, 0, 5, 0x49, 0x43, 0, 0, 0, 9, 0x44, 0x52, 0x4F, 0x50, 0,
    0x5A, 0, 0, 0, 5, 0x49, 0x5A, 0, 0, 0, 5, 0x49]

/-- The case of a server that reports a DROP: the statement is closed right after its cycle. -/
theorem stale_invalidated_dropped :
    (greeted dropped).1 = .ok () ∧
      ((greeted dropped).2.runs [.commit]).session.written.drop 7 =
        closeBatch [Statement.nameOf "" 1] ∧
      ∀ earlier x later, (greeted dropped).2.executions [.commit] = earlier ++ x :: later →
        (∃ added, Bindless added ∧
          x.after.session.events = x.before.session.events ++ added) ∨
          ∃ encoders params statement d after, x.Sends encoders params statement d after ∧
            ∀ body status rest tag, after = body ++ .received (.readyForQuery status) :: rest →
              Unready body → .commandComplete tag ∈ receivedIn body →
              String.ofList ((CommandTag.verb tag).map Char.toUpper) ∈
                ["ALTER", "CREATE", "DROP", "ROLLBACK"] →
              x.Invalidated d.cache rest ∧
                ∀ since portal name formats params results future,
                  ((greeted dropped).2.runs [.commit]).session.written =
                    x.after.session.written ++ since ++
                      .bind portal name formats params results :: future →
                  name ≠ "" → name ∉ parsedNames x.after.session.written := by
  have hgreeted : (greeted dropped).1 = .ok () := by decide +kernel
  have hclosed : ((greeted dropped).2.runs [.commit]).session.written.drop 7 =
      closeBatch [Statement.nameOf "" 1] := by decide +kernel
  exact ⟨hgreeted, hclosed, stale_invalidated (Prod.ext hgreeted rfl) [.commit]⟩

end Connection

end PgClient
