/-
  PgClient.Proofs.Connection.Conservation

  What becomes of the statements that a connection has parsed. A statement whose
  cycle describes it is kept: the cache holds it until it is closed. A statement
  whose cycle fails is forgotten without a Close, whether the server has it or
  not.
-/
import PgClient.Proofs.Connection.BindSafety
import PgClient.Proofs.Session.Description

namespace PgClient

open ConnectionM Steps

/-! ## Parses and their cycles -/

/-- The messages that come before the end of the cycle. -/
def cycleMessages (events : List Event) : List Backend :=
  (receivedIn events).takeWhile fun m => !m.isReady

/-- The statements that some events parse, each with the messages of its cycle. -/
def parses : List Event → List (String × List Backend)
  | [] => []
  | .wrote batch :: events =>
    (parsedNames batch).map (·, cycleMessages events) ++ parses events
  | .received _ :: events => parses events

theorem parses_names (events : List Event) :
    (parses events).map Prod.fst = parsedNames (writtenIn events) := by
  induction events with
  | nil => rfl
  | cons e events ih =>
    cases e with
    | wrote batch =>
      rw [parses, List.map_append, ih, List.map_map, writtenIn_wrote, parsedNames_append]
      exact congrArg (· ++ _) (List.map_id _)
    | received m => exact ih

theorem parses_eq_nil {events : List Event} (h : parsedNames (writtenIn events) = []) :
    parses events = [] := by
  rw [← parses_names] at h
  exact List.map_eq_nil_iff.1 h

/-- The last thing that happened is the end of a cycle. -/
def Whole (events : List Event) : Prop :=
  ∃ before status, events = before ++ [.received (.readyForQuery status)]

/-- What comes after the end of a cycle does not belong to it. -/
theorem cycleMessages_append (events events' : List Event) (status : TransactionStatus) :
    cycleMessages (events ++ .received (.readyForQuery status) :: events') =
      cycleMessages (events ++ [.received (.readyForQuery status)]) := by
  unfold cycleMessages
  rw [receivedIn_append, receivedIn_append, List.takeWhile_append, List.takeWhile_append]
  rfl

theorem parses_append {events : List Event} (h : Whole events) (events' : List Event) :
    parses (events ++ events') = parses events ++ parses events' := by
  obtain ⟨before, status, rfl⟩ := h
  rw [List.append_assoc, List.singleton_append]
  induction before with
  | nil => rfl
  | cons e before ih =>
    cases e with
    | wrote batch =>
      rw [List.cons_append, List.cons_append, parses, parses, ih, cycleMessages_append,
        List.append_assoc]
    | received m => exact ih

theorem cycleMessages_of_unready {body : List Event} (h : Unready body)
    (status : TransactionStatus) (rest : List Event) :
    cycleMessages (body ++ .received (.readyForQuery status) :: rest) = receivedIn body := by
  rw [cycleMessages, receivedIn_append, List.takeWhile_append_of_pos]
  · exact List.append_nil _
  · intro m hm
    rw [h m hm]
    rfl

/-- What one exchange parses, with all the messages of its cycle. -/
theorem parses_exchange {batch : List Frontend} {body : List Event}
    {status : TransactionStatus} (hanswering : Answering body) (hunready : Unready body) :
    parses (.wrote batch :: (body ++ [.received (.readyForQuery status)])) =
      (parsedNames batch).map (·, receivedIn body) := by
  have hnone : parses (body ++ [.received (.readyForQuery status)]) = [] := by
    refine parses_eq_nil ?_
    rw [writtenIn_append, parsedNames_append, parsedNames_answers hanswering]
    rfl
  rw [parses, hnone, cycleMessages_of_unready hunready, List.append_nil]

/-! ## Preparing -/

namespace ConnectionM

/-- What an exchange that leaves the session sound has written. -/
theorem written_of_events {s s' : Session} {batch : List Frontend} {body : List Event}
    {status : TransactionStatus} (hanswering : Answering body)
    (h : s'.events =
      s.events ++ .wrote batch :: (body ++ [.received (.readyForQuery status)])) :
    parsedNames s'.written = parsedNames (s.written ++ batch) ∧
      closedNames s'.written = closedNames (s.written ++ batch) := by
  rw [Session.written_eq, h, writtenIn_append, writtenIn_wrote, writtenIn_append,
    writtenIn_received, writtenIn_nil, List.append_nil, ← List.append_assoc,
    ← Session.written_eq, parsedNames_append, closedNames_append,
    parsedNames_answers hanswering, closedNames_answers hanswering, List.append_nil,
    List.append_nil]
  exact ⟨rfl, rfl⟩

/-- A statement is prepared just where the messages of its cycle describe it, as long as the
session stays sound. -/
theorem prepare_described {named : Bool} {sql : String} {encoders : List ParamEncoder}
    {c d : Connection} {r : Except Error Statement} (hs : c.session.Settled)
    (hb : c.session.broken = false) (h : (prepare named sql encoders).run c = (r, d))
    (hsound : d.session.broken = false) :
    ((∃ e, r = .error e) ∧ d = { c with sequence := c.sequence + 1 }) ∨
      ∃ query body status,
        d = { c with sequence := c.sequence + 1, session := d.session } ∧
        d.session.staged = [] ∧
        d.session.events = c.session.events ++
          .wrote (prepareBatch (nextName named c) query encoders) ::
            (body ++ [.received (.readyForQuery status)]) ∧
        Answering body ∧ Unready body ∧
        ((∃ statement, r = .ok statement ∧ statement.name = nextName named c) ∧
            Describes (receivedIn body) ∨
          (∃ e, r = .error e) ∧ ¬ Describes (receivedIn body)) := by
  rw [prepare_run _ _ _ _ hs.staged] at h
  cases hquery : c.session.context.encodeText sql with
  | error e =>
    rw [hquery] at h
    obtain ⟨rfl, rfl⟩ := Prod.mk.inj h
    exact .inl ⟨⟨e, rfl⟩, rfl⟩
  | ok query =>
    rw [hquery] at h
    have hbatch : prepareBatch (nextName named c) query encoders ≠ [] := List.cons_ne_nil _ _
    obtain ⟨events, hexchanged⟩ :=
      Session.exchange_exchanged (.describe {}) hbatch hb hs.deferred
    rcases hout : c.session.exchange (prepareBatch (nextName named c) query encoders)
      (.describe {}) with ⟨r', receiver, s⟩
    simp only [hout] at h hexchanged
    obtain ⟨hr, rfl⟩ := Prod.mk.inj h
    obtain ⟨body, status, hevents, hanswering, hunready, hdescribed⟩ :=
      Session.exchange_described hbatch hb hs.deferred hout hsound
    refine .inr ⟨query, body, status, rfl, hexchanged.staged, hevents, hanswering, hunready, ?_⟩
    split at hr
    -- An error of the cycle, a description, or neither.
    · refine .inr ⟨⟨_, hr.symm⟩, fun hdescribes => ?_⟩
      obtain ⟨types, fields, hr', -⟩ := hdescribed.2 hdescribes
      cases hr'
    · exact .inl ⟨⟨_, hr.symm, rfl⟩, hdescribed.1 ⟨_, _, rfl, rfl⟩⟩
    · rename_i hother
      refine .inr ⟨⟨_, hr.symm⟩, fun hdescribes => ?_⟩
      obtain ⟨types, fields, -, hreceiver⟩ := hdescribed.2 hdescribes
      exact hother types fields hreceiver

end ConnectionM

/-! ## The account -/

namespace Connection

/-- Whether a statement is taken care of: the cache holds it, or it is closed. A Close that
waits to be sent counts as sent. -/
def Covers (c : Connection) (name : String) : Prop :=
  name ∈ cachedNames c.cache ∨ name ∈ closedNames (c.session.written ++ c.session.staged)

/-- Between two cycles of a sound session the statements that are taken care of are those
that were described. -/
structure Accounted (c : Connection) : Prop where
  whole : Whole c.session.events
  keys : c.cache.keys.Nodup
  accounts : ∀ p ∈ parses c.session.events, c.Covers p.1 ↔ Describes p.2

/-- What is cached or closed was parsed. -/
theorem Ledger.parsed_of_covers {c : Connection} (h : Ledger c) {name : String}
    (hcovers : c.Covers name) : name ∈ parsedNames c.session.written := by
  rcases hcovers with hcached | hclosed
  · obtain ⟨e, he, rfl⟩ := mem_cachedNames.1 hcached
    exact (open_of_entered (h.entered e he)).1
  · exact h.closedParsed name hclosed

namespace Accounted

variable {c d : Connection} {batch : List Frontend} {body events : List Event}
  {status : TransactionStatus} {s : Session} {cache : StatementCache}

/-- The account when nothing is written. -/
theorem of_covers (h : Accounted c) (hevents : d.session.events = c.session.events)
    (hkeys : d.cache.keys.Nodup) (hcovers : ∀ name, d.Covers name ↔ c.Covers name) :
    Accounted d where
  whole := hevents ▸ h.whole
  keys := hkeys
  accounts p hp := by
    rw [hevents] at hp
    rw [hcovers]
    exact h.accounts p hp

/-- The account after a cycle that came to its end: it stays as it was for the statements that
were parsed before, and the cycle decides about those that were parsed for it. -/
theorem step (h : Accounted c)
    (hevents : d.session.events =
      c.session.events ++ .wrote batch :: (body ++ [.received (.readyForQuery status)]))
    (hanswering : Answering body) (hunready : Unready body) (hkeys : d.cache.keys.Nodup)
    (hold : ∀ name ∈ parsedNames c.session.written, d.Covers name ↔ c.Covers name)
    (hnew : ∀ name ∈ parsedNames batch, d.Covers name ↔ Describes (receivedIn body)) :
    Accounted d where
  whole := by
    refine ⟨c.session.events ++ .wrote batch :: body, status, ?_⟩
    rw [hevents, List.append_assoc, List.cons_append]
  keys := hkeys
  accounts p hp := by
    rw [hevents, parses_append h.whole, parses_exchange hanswering hunready] at hp
    rcases List.mem_append.1 hp with hp | hp
    · have hname : p.1 ∈ parsedNames c.session.written := by
        rw [Session.written_eq, ← parses_names]
        exact List.mem_map_of_mem hp
      rw [hold p.1 hname]
      exact h.accounts p hp
    · obtain ⟨name, hname, rfl⟩ := List.mem_map.1 hp
      exact hnew name hname

/-- The account after an exchange that parses nothing. -/
theorem exchange (h : Accounted c) (hexchanged : c.session.Exchanged batch events s)
    (hb : s.broken = false) (hkeys : cache.keys.Nodup) (hparsed : parsedNames batch = [])
    (hcovers : ∀ name, c.Covers name ↔
      name ∈ cachedNames cache ∨ name ∈ closedNames (c.session.written ++ batch)) :
    Accounted { c with cache, session := s } := by
  obtain ⟨body, status, rfl, hanswering, hunready⟩ := hexchanged.body hb
  refine h.step (d := { c with cache, session := s }) hexchanged.events_eq hanswering hunready
    hkeys ?_ ?_
  · intro name _
    rw [hcovers, Covers]
    dsimp only
    rw [hexchanged.staged, List.append_nil,
      (written_of_events hanswering hexchanged.events_eq).2]
  · rw [hparsed]
    exact fun _ => nofun

/-! ## Obtaining -/

/-- A use of a cached statement keeps all that is cached. -/
theorem touch {key : StatementKey} {statement : Statement} (h : Accounted c)
    (hfound : c.cache.peek? key = some statement) :
    Accounted { c with cache := c.cache.touch key statement } := by
  refine h.of_covers rfl (Cache.nodup_keys_touch h.keys) fun name => ?_
  unfold Covers
  dsimp only
  rw [Ledger.mem_cachedNames, Ledger.mem_cachedNames]
  simp only [Cache.mem_touch_iff h.keys (Cache.mem_of_peek? hfound)]

end Accounted

/-- A new entry adds its name to those that are cached or have to be closed. -/
theorem Ledger.mem_push {c : Connection} (h : Ledger c) (key : StatementKey)
    (statement : Statement) (name : String) :
    (name ∈ cachedNames (c.cache.push key statement).1 ∨
        name ∈ (c.cache.push key statement).2.toList.map (·.name)) ↔
      name = statement.name ∨ name ∈ cachedNames c.cache := by
  rw [mem_cachedNames, mem_cachedNames]
  obtain ⟨hentries, hevicted⟩ | ⟨front, last, hall, hentries, hevicted⟩ :=
    Cache.push_cases key statement h.bounded h.enabled
  · rw [hentries, hevicted]
    simp [eq_comm]
  · rw [hentries, hevicted, hall]
    simp only [List.mem_cons, List.mem_append, List.not_mem_nil, or_false, Option.toList_some,
      List.map_cons, List.map_nil, or_and_right, exists_or, exists_eq_left]
    rw [or_assoc, eq_comm, @eq_comm _ name last.2.name]

/-- A statement that is newly kept is taken care of, and so is all that was before: what goes for
it is going to be closed. -/
theorem Ledger.covers_push {c u : Connection} (h : Ledger c) (hs : c.session.staged = [])
    (hu : u.session.staged = [])
    (hwritten : closedNames u.session.written = closedNames c.session.written)
    (key : StatementKey) (statement : Statement) (name : String) :
    Covers { u with
      cache := (c.cache.push key statement).1
      session := { u.session with
        staged := u.session.staged ++ (c.cache.push key statement).2.toList.map fun evicted =>
          .close .statement evicted.name } } name ↔ name = statement.name ∨ c.Covers name := by
  have hclosed : closedNames (u.session.written ++ (u.session.staged ++
      (c.cache.push key statement).2.toList.map fun evicted => .close .statement evicted.name)) =
      closedNames c.session.written ++
        (c.cache.push key statement).2.toList.map (·.name) := by
    rw [hu, List.nil_append, closedNames_append, hwritten,
      ← closedNames_closes ((c.cache.push key statement).2.toList.map (·.name)), List.map_map]
    rfl
  have hcovers : c.Covers name ↔
      name ∈ cachedNames c.cache ∨ name ∈ closedNames c.session.written := by
    rw [Covers, hs, List.append_nil]
  show (name ∈ cachedNames (c.cache.push key statement).1 ∨
    name ∈ closedNames (u.session.written ++ (u.session.staged ++
      (c.cache.push key statement).2.toList.map fun evicted =>
        .close .statement evicted.name))) ↔ _
  rw [hclosed, List.mem_append, or_left_comm, h.mem_push, or_comm, or_assoc, hcovers]

namespace Accounted

variable {c d : Connection} {key : StatementKey} {encoders : List ParamEncoder}
  {r : Except Error Statement}

/-- Looking for a statement keeps the account, whether it is found, prepared or not. -/
theorem obtained (h : Accounted c) (hledger : Ledger c) (hs : c.session.Settled)
    (hb : c.session.broken = false) (hobtain : (obtain key encoders).run c = (r, d))
    (hsound : d.session.broken = false) : Accounted d := by
  have henabled : c.cache.isEnabled = true := decide_eq_true hledger.enabled
  have hdisabled : ¬ c.cache.capacity = 0 := Nat.ne_of_gt hledger.enabled
  have hfresh := hledger.nextName_notMem
  obtain ⟨statement, -, found, rfl, rfl⟩ |
    ⟨hmissing, ⟨e, rfl, hprepare⟩ | ⟨statement, u, rfl, hprepare, rfl⟩⟩ := obtain_split hobtain
  · exact h.touch found
  -- Nothing was prepared: the name is used up, and the cycle did not describe it.
  · rw [henabled] at hprepare
    obtain ⟨-, rfl⟩ | ⟨query, body, status, hd, hstaged, hevents, hanswering, hunready,
      ⟨⟨statement, hr, -⟩, -⟩ | ⟨-, hundescribed⟩⟩ := prepare_described hs hb hprepare hsound
    · exact h.of_covers rfl h.keys fun _ => Iff.rfl
    · cases hr
    have hcovers (name : String) : d.Covers name ↔ c.Covers name := by
      have hclosed : closedNames d.session.written = closedNames c.session.written := by
        rw [(written_of_events hanswering hevents).2, closedNames_append]
        exact List.append_nil _
      rw [Covers, Covers, hstaged, hs.staged, List.append_nil, List.append_nil, hclosed, hd]
    refine h.step hevents hanswering hunready (by rw [hd]; exact h.keys)
      (fun name _ => hcovers name) fun name hname => ?_
    rw [List.mem_singleton.1 (show name ∈ [nextName true c] from hname), hcovers]
    exact iff_of_false (fun hcovered => hfresh (hledger.parsed_of_covers hcovered)) hundescribed
  -- A new statement is kept, and the cycle described it.
  · rw [henabled] at hprepare
    rw [if_neg hdisabled] at hsound ⊢
    obtain ⟨⟨e, hr⟩, -⟩ | ⟨query, body, status, hu, hstaged, hevents, hanswering, hunready,
      ⟨⟨statement', hr, hname'⟩, hdescribed⟩ | ⟨⟨e, hr⟩, -⟩⟩ :=
        prepare_described hs hb hprepare hsound
    · cases hr
    · cases hr
      have hclosed : closedNames u.session.written = closedNames c.session.written := by
        rw [(written_of_events hanswering hevents).2, closedNames_append]
        exact List.append_nil _
      have hcovers := hledger.covers_push hs.staged hstaged hclosed key statement
      rw [hname'] at hcovers
      refine h.step hevents hanswering hunready
        (Cache.nodup_keys_push h.keys (hmissing hdisabled)) ?_ ?_
      · intro name hname
        rw [hcovers]
        refine or_iff_right ?_
        rintro rfl
        exact hfresh hname
      · intro name hname
        rw [List.mem_singleton.1 (show name ∈ [nextName true c] from hname), hcovers]
        exact iff_of_true (.inl rfl) hdescribed
    · cases hr

/-! ## Executing -/

/-- Invalidating keeps the account: all that was cached is closed in its place. -/
theorem invalidate {r : Except Error Unit} (h : Accounted c) (hs : c.session.Settled)
    (hb : c.session.broken = false) (hrun : invalidate.run c = (r, d))
    (hsound : d.session.broken = false) : Accounted d := by
  have hnone : cachedNames c.cache.clear = [] := rfl
  rw [invalidate_run hs.staged] at hrun
  by_cases skip : cachedNames c.cache = [] ∨ c.session.broken = true
  · rw [if_pos skip] at hrun
    obtain ⟨-, rfl⟩ := Prod.mk.inj hrun
    have hempty : cachedNames c.cache = [] := skip.resolve_right (Bool.eq_false_iff.1 hb)
    refine h.of_covers rfl List.nodup_nil fun name => ?_
    rw [Covers, Covers, hempty, hnone]
  · rw [if_neg skip] at hrun
    obtain ⟨-, rfl⟩ := Prod.mk.inj hrun
    obtain ⟨events, hexchanged⟩ :=
      Session.exchange_exchanged .discard (closeBatch_ne_nil (cachedNames c.cache)) hb hs.deferred
    refine h.exchange hexchanged hsound List.nodup_nil
      (Ledger.parsedNames_closeBatch _) fun name => ?_
    rw [Covers, hs.staged, List.append_nil, hnone, closedNames_append,
      Ledger.closedNames_closeBatch, List.mem_append, or_comm]
    exact (or_iff_right List.not_mem_nil).symm

theorem invalidateStale {r : Except Error Unit} (h : Accounted c) (hs : c.session.Settled)
    (hb : c.session.broken = false) (hrun : invalidateStale.run c = (r, d))
    (hsound : d.session.broken = false) : Accounted d := by
  rw [invalidateStale_run] at hrun
  cases hstale : c.session.stale with
  | true =>
    rw [if_pos hstale] at hrun
    have hfresh : Accounted { c with session := { c.session with stale := false } } :=
      h.of_covers rfl h.keys fun _ => Iff.rfl
    exact hfresh.invalidate ⟨hs.staged, hs.deferred⟩ hb hrun hsound
  | false =>
    rw [if_neg (Bool.eq_false_iff.1 hstale)] at hrun
    obtain ⟨-, rfl⟩ := Prod.mk.inj hrun
    exact h

/-- Every execution that leaves the session sound keeps the account. -/
theorem performed {call : Call} {copy : CopyStreams}
    {out : Except Error (Statement × Outcome) × CopyStreams} (h : Accounted c)
    (hledger : Ledger c) (hs : c.session.Settled) (hb : c.session.broken = false)
    (hd : Performed call copy c out d) (hsound : d.session.broken = false) : Accounted d := by
  cases hd with
  | rejected rejected =>
    cases rejected with
    | unchanged => exact h
    | unprepared inspected failed obtaining => exact h.obtained hledger hs hb obtaining hsound
  | @refused encoders params statement d e s readied sent obtaining =>
    -- A write that is refused breaks the session.
    obtain ⟨t, ht, -⟩ | ⟨f, t, ht, -, -, hbroken⟩ :=
      Session.send_cases (executeBatch_ne_nil statement params d) d.session
    · cases (Prod.mk.inj (ht.symm.trans sent)).1
    · obtain rfl := (Prod.mk.inj (ht.symm.trans sent)).2
      rw [show t.broken = false from hsound] at hbroken
      cases hbroken
  | @executed encoders params statement d c₁ c₂ r r₁ r₂ receiver s t readied sent cycled released
      invalidated obtaining =>
    have hobtained := readied.obtained
    obtain ⟨hd, hmem⟩ := hledger.obtained hs rfl hobtained
    have haccounted := h.obtained hledger hs hb obtaining (hobtained.broken hb)
    obtain ⟨names, hnames⟩ := hobtained.closes hs
    obtain ⟨events, hexchanged⟩ := Session.exchange_exchanged
      (.rows statement.columns {} copy) (executeBatch_ne_nil statement params d)
      (hobtained.broken hb) ((hobtained.moves hs hb).settled hs).deferred
    simp only [Session.exchange, sent, cycled] at hexchanged
    -- A cached statement has a name, so it is not released.
    rw [release, if_neg (Bool.eq_false_iff.1 (hd.named hmem))] at released
    obtain ⟨-, rfl⟩ := Prod.mk.inj released
    have hb' : t.broken = false := by
      refine Bool.eq_false_iff.2 fun hbroken => ?_
      rw [((invalidateStale_moves hexchanged.settled invalidated).quiet hbroken).2] at hsound
      cases hsound
    have hexecuted := haccounted.exchange hexchanged hb' haccounted.keys
      (Ledger.parsedNames_executeBatch statement params hnames) fun name => by
        rw [Covers, closedNames_append, closedNames_append, Ledger.closedNames_executeBatch]
    exact hexecuted.invalidateStale hexchanged.settled hb' invalidated hsound

end Accounted

/-! ## Every run -/

theorem Settings.accounted {c d : Connection} (h : Settings c d) (hc : Accounted c) :
    Accounted d := by
  cases h
  exact hc.of_covers rfl hc.keys fun _ => Iff.rfl

variable {c d : Connection}

/-- Executions keep the account as long as they leave the session sound. -/
theorem Performs.accounted {xs : List Execution} (h : Performs c xs d) (hledger : Ledger c)
    (haccounted : Accounted c) (hsound : d.session.broken = false) : Accounted d := by
  have hall : Ledger d ∧ (d.session.broken = false → Accounted d) := by
    refine h.invariant (I := fun c => Ledger c ∧ (c.session.broken = false → Accounted c))
      ?_ ?_ ⟨hledger, fun _ => haccounted⟩
    · rintro c d hsettings ⟨hc, hc'⟩
      exact ⟨hc.settings hsettings, fun hb => hsettings.accounted (hc' (hsettings.broken ▸ hb))⟩
    · rintro x husable ⟨hx, hx'⟩
      have hperformed := x.performed husable
      exact ⟨hx.performed husable.settled husable.sound hperformed, fun hb =>
        (hx' husable.sound).performed hx husable.settled husable.sound hperformed hb⟩
  exact hall.2 hsound

/-- A connection that is opened has parsed nothing. -/
theorem accounted_of_connect {stream : Stream} {config : Config} {options : ConnectOptions}
    (h : connect stream config options = (.ok (), c)) : Accounted c := by
  obtain ⟨events, s, rfl, hsound, hexchanged⟩ := opened_of_connect h
  obtain ⟨body, status, rfl, hanswering, hunready⟩ := hexchanged.body hsound
  have hevents : s.events =
      .wrote (startupBatch config) :: (body ++ [.received (.readyForQuery status)]) :=
    hexchanged.events_eq
  refine ⟨⟨.wrote (startupBatch config) :: body, status, hevents⟩, List.nodup_nil, ?_⟩
  show ∀ p ∈ parses s.events, _
  rw [hevents, parses_exchange hanswering hunready]
  exact fun _ => nofun

/-- Whatever a server sends, and whatever is done with a connection: a statement that was parsed
is held by the cache or is closed just once, and never both, where the cycle that was to describe
it did. Any other is neither cached nor closed, even if its Parse was acknowledged. -/
theorem conserved_iff {stream : Stream} {config : Config} {options : ConnectOptions}
    (hcapacity : 0 < config.maxPreparedStatements.toNat)
    (h : connect stream config options = (.ok (), c)) (ops : List Operation)
    (hsound : (c.runs ops).session.broken = false) :
    ∀ p ∈ parses (c.runs ops).session.events,
      (p.1 ∈ cachedNames (c.runs ops).cache ∨
          (closedNames (c.runs ops).session.written).count p.1 = 1 ↔ Describes p.2) ∧
        (¬ Describes p.2 → p.1 ∉ cachedNames (c.runs ops).cache ∧
          p.1 ∉ closedNames (c.runs ops).session.written) ∧
        ¬ (p.1 ∈ cachedNames (c.runs ops).cache ∧
          p.1 ∈ closedNames (c.runs ops).session.written) := by
  have hs := settled_of_connect h
  have hruns := runs_performs ops hs
  have hledger := (Ledger.of_connect hcapacity h).performs hruns
  have haccounted := hruns.accounted (.of_connect hcapacity h) (accounted_of_connect h) hsound
  have hstaged := (hruns.settled hs).staged
  have honce := hledger.closedOnce
  rw [hstaged, List.append_nil] at honce
  intro p hp
  have hcovers := haccounted.accounts p hp
  rw [Covers, hstaged, List.append_nil] at hcovers
  refine ⟨?_, ?_, ?_⟩
  · rw [← hcovers]
    refine or_congr_right ⟨fun hcount => ?_, List.count_eq_one_of_mem honce⟩
    exact List.count_pos_iff.1 (by omega)
  · intro hundescribed
    exact not_or.1 (mt hcovers.1 hundescribed)
  · rintro ⟨hcached, hclosed⟩
    obtain ⟨e, he, hname⟩ := Ledger.mem_cachedNames.1 hcached
    rw [← hname] at hclosed
    exact (hledger.entered e he).unclosed (closedNames_left hclosed _)

/-- The case of a COMMIT to a server that describes it: the statement is cached. -/
theorem conserved_iff_described :
    (greeted described).1 = .ok () ∧
      ((greeted described).2.runs [.commit]).session.broken = false ∧
      ∀ p ∈ parses ((greeted described).2.runs [.commit]).session.events,
        (p.1 ∈ cachedNames ((greeted described).2.runs [.commit]).cache ∨
            (closedNames ((greeted described).2.runs [.commit]).session.written).count p.1 = 1 ↔
              Describes p.2) ∧
          (¬ Describes p.2 → p.1 ∉ cachedNames ((greeted described).2.runs [.commit]).cache ∧
            p.1 ∉ closedNames ((greeted described).2.runs [.commit]).session.written) ∧
          ¬ (p.1 ∈ cachedNames ((greeted described).2.runs [.commit]).cache ∧
            p.1 ∈ closedNames ((greeted described).2.runs [.commit]).session.written) := by
  have hgreeted : (greeted described).1 = .ok () := by decide +kernel
  have hsound : ((greeted described).2.runs [.commit]).session.broken = false := by
    decide +kernel
  exact ⟨hgreeted, hsound,
    conserved_iff (by decide) (Prod.ext hgreeted rfl) [.commit] hsound⟩

/-- What a server sends that acknowledges a Parse and then cancels the cycle. -/
def canceled : Bytes :=
  [0x31, 0, 0, 0, 4, 0x45, 0, 0, 0, 0x1D, 0x53, 0x45, 0x52, 0x52, 0x4F, 0x52, 0, 0x43, 0x35, 0x37,
    0x30, 0x31, 0x34, 0, 0x4D, 0x63, 0x61, 0x6E, 0x63, 0x65, 0x6C, 0x65, 0x64, 0, 0, 0x5A, 0, 0, 0,
    5, 0x49]

/-- A statement that the server has acknowledged is lost: it is neither cached nor closed. -/
theorem acknowledged_lost :
    (greeted canceled).1 = .ok () ∧
      ((greeted canceled).2.runs [.commit]).session.broken = false ∧
      ∃ messages,
        parses ((greeted canceled).2.runs [.commit]).session.events =
            [(Statement.nameOf "" 1, messages)] ∧
          .parseComplete ∈ messages ∧
          cachedNames ((greeted canceled).2.runs [.commit]).cache = [] ∧
          closedNames ((greeted canceled).2.runs [.commit]).session.written = [] := by
  refine ⟨by decide +kernel, by decide +kernel,
    [.parseComplete, .errorResponse [(0x43, "57014"), (0x4D, "canceled"), (0x53, "ERROR")]],
    ?_, List.mem_cons_self, ?_, ?_⟩ <;> decide +kernel

end Connection

end PgClient
