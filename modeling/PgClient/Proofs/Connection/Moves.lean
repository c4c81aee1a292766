/-
  PgClient.Proofs.Connection.Moves

  An execution as a row of moves. A move is either one exchange, of a batch that
  asks for one ReadyForQuery, or a change of what the connection keeps beside its
  session. What every move keeps is kept by every execution.
-/
import Mathlib.Logic.Relation
import PgClient.Proofs.Connection.Parts

namespace PgClient

open ConnectionM Steps

/-- Whether a message binds a statement. -/
def Frontend.isBind : Frontend → Bool
  | .bind .. => true
  | _ => false

namespace Connection

/-! ## Moves -/

/-- One move of a connection between two calls of its user. Only a binding move may send a Bind. -/
inductive Move (binding : Bool) (c : Connection) : Connection → Prop
  | beside (cache : StatementCache) (capacity : cache.capacity = c.cache.capacity)
    (sequence : Nat) (stale : Bool) :
    Move binding c { c with cache, sequence, session := { c.session with stale } }
  | exchange {batch : List Frontend} {events : List Event} {s : Session}
    (sound : c.session.broken = false) (syncs : batch.count .sync = 1)
    (binds : binding = false → ∀ f ∈ batch, f.isBind = false)
    (exchanged : c.session.Exchanged batch events s) : Move binding c { c with session := s }

/-- A row of moves. -/
abbrev Moves (binding : Bool) : Connection → Connection → Prop :=
  Relation.ReflTransGen (Move binding)

/-- Any row of moves may be binding. -/
theorem Moves.binding {binding : Bool} {c d : Connection} (h : Moves binding c d) :
    Moves true c d := by
  refine Relation.ReflTransGen.mono ?_ c d h
  rintro a b (⟨cache, capacity, sequence, stale⟩ | ⟨sound, syncs, -, exchanged⟩)
  · exact .beside cache capacity sequence stale
  · exact .exchange sound syncs nofun exchanged

/-- The connection without what is staged. -/
def unstaged (c : Connection) : Connection :=
  { c with session := { c.session with staged := [] } }

theorem unstaged_eq {c : Connection} (h : c.session.Settled) : c.unstaged = c := by
  rw [unstaged, Session.unstaged h.staged]

end Connection

/-- What an exchange makes of a session does not depend on what is staged. -/
theorem Session.Exchanged.unstaged {batch staged : List Frontend} {events : List Event}
    {s s' : Session} (h : Exchanged batch events { s with staged } s') :
    Exchanged batch events s s' where
  known := known_of_withIO (t := { s with staged }) h.known
  carried := h.carried
  staged := h.staged
  deferred := h.deferred
  ended := by
    cases h.ended with
    | refused broken => exact .refused broken
    | aborted answering unready broken => exact .aborted answering unready broken
    | ready answering unready broken framed => exact .ready answering unready broken framed

namespace ConnectionM

open Connection

variable {call : Call} {copy : CopyStreams} {c c' d : Connection} {statement : Statement}
  {named : Bool} {sql : String} {key : StatementKey} {encoders : List ParamEncoder}
  {params : List (Option Bytes)}

/-! ## Executions as moves -/

theorem count_prepareBatch (name : String) (query : Bytes) (encoders : List ParamEncoder) :
    (prepareBatch name query encoders).count .sync = 1 := rfl

theorem prepareBatch_bindless (name : String) (query : Bytes) (encoders : List ParamEncoder) :
    ∀ f ∈ prepareBatch name query encoders, f.isBind = false := by
  unfold prepareBatch
  intro f hf
  simp only [List.mem_cons, List.not_mem_nil, or_false] at hf
  rcases hf with rfl | rfl | rfl <;> rfl

theorem closes_bindless (names : List String) :
    ∀ f ∈ names.map (Frontend.close .statement), f.isBind = false := by
  intro f hf
  obtain ⟨name, -, rfl⟩ := List.mem_map.1 hf
  rfl

theorem closeBatch_bindless (names : List String) :
    ∀ f ∈ closeBatch names, f.isBind = false := by
  intro f hf
  rcases List.mem_append.1 hf with hf | hf
  · exact closes_bindless names f hf
  · rw [List.mem_singleton.1 hf]
    rfl

/-- Preparing takes a number and is one exchange. -/
theorem preparing_moves {query : Bytes} {events : List Event} {s : Session}
    (hb : c.session.broken = false)
    (h : c.session.Exchanged (prepareBatch (nextName named c) query encoders) events s) :
    Moves false c { c with sequence := c.sequence + 1, session := s } := by
  have hnumber : Move false c { c with sequence := c.sequence + 1 } :=
    .beside c.cache rfl (c.sequence + 1) c.session.stale
  refine .tail (.single hnumber) (.exchange hb (count_prepareBatch ..) ?_ h)
  intro _
  exact prepareBatch_bindless (nextName named c) query encoders

theorem Unprepared.moves (hb : c.session.broken = false)
    (h : Unprepared named sql encoders c c') : Moves false c c' := by
  cases h with
  | unencoded => exact .single (.beside c.cache rfl (c.sequence + 1) c.session.stale)
  | failed encoded exchanged => exact preparing_moves hb exchanged

theorem Prepared.moves (hb : c.session.broken = false)
    (h : Prepared named sql encoders c statement c') : Moves false c c' := by
  obtain ⟨_, _, _, exchanged, _, _⟩ := h
  exact preparing_moves hb exchanged

/-- A statement that is obtained leaves nothing done but to close what had to go for it. -/
theorem Obtained.moves (hs : c.session.Settled) (hb : c.session.broken = false)
    (h : Obtained key encoders c statement d) : Moves false c d.unstaged := by
  cases h with
  | hit enabled found =>
    have hsame := Session.unstaged hs.staged
    have hmove : Move false c { c with cache := c.cache.touch key statement } :=
      .beside (c.cache.touch key statement) rfl c.sequence c.session.stale
    rw [Connection.unstaged, hsame]
    exact .single hmove
  | @miss c₁ enabled missing prepared =>
    -- The exchange that prepares comes first, the new entry after it.
    have hsame := Session.unstaged prepared.settled.staged
    have hcache : c₁.cache.capacity = c.cache.capacity := by
      obtain ⟨_, _, _, _, _, _⟩ := prepared
      rfl
    have hmove : Move false c₁ { c₁ with cache := (c.cache.push key statement).1 } :=
      .beside (c.cache.push key statement).1 hcache.symm c₁.sequence c₁.session.stale
    refine .tail (prepared.moves hb) ?_
    rw [← hsame] at hmove
    exact hmove
  | unkept disabled prepared =>
    rw [unstaged_eq prepared.settled]
    exact prepared.moves hb

theorem Obtained.broken (hb : c.session.broken = false)
    (h : Obtained key encoders c statement d) : d.session.broken = false := by
  cases h with
  | hit => exact hb
  | miss _ _ prepared =>
    obtain ⟨_, _, _, _, _, broken⟩ := prepared
    exact broken
  | unkept _ prepared =>
    obtain ⟨_, _, _, _, _, broken⟩ := prepared
    exact broken

/-- What waits to be sent with the call are Close messages. -/
theorem Obtained.closes (hs : c.session.Settled) (h : Obtained key encoders c statement d) :
    ∃ names : List String, d.session.staged = names.map (.close .statement) := by
  cases h with
  | hit => exact ⟨[], hs.staged⟩
  | miss enabled missing prepared =>
    refine ⟨(c.cache.push key statement).2.toList.map (·.name), ?_⟩
    rw [List.map_map]
    rfl
  | unkept disabled prepared => exact ⟨[], prepared.settled.staged⟩

theorem count_closes (names : List String) :
    (names.map (Frontend.close .statement)).count .sync = 0 := by
  rw [List.count_eq_zero]
  intro hmem
  obtain ⟨name, -, hname⟩ := List.mem_map.1 hmem
  cases hname

theorem count_executeBatch (hs : c.session.Settled) (h : Obtained key encoders c statement d) :
    (executeBatch statement params d).count .sync = 1 := by
  obtain ⟨names, hnames⟩ := h.closes hs
  rw [executeBatch, hnames, List.count_append, count_closes]
  rfl

theorem count_closeBatch (names : List String) : (closeBatch names).count .sync = 1 := by
  rw [closeBatch, List.count_append, count_closes]
  rfl

/-- Closing some statements is one exchange. -/
theorem closing_move (names : List String) (hs : c.session.Settled)
    (hb : c.session.broken = false) :
    Move false c { c with session := (c.session.exchange (closeBatch names) .discard).2.2 } := by
  obtain ⟨events, hexchanged⟩ :=
    Session.exchange_exchanged .discard (closeBatch_ne_nil names) hb hs.deferred
  refine .exchange hb (count_closeBatch names) ?_ hexchanged
  intro _
  exact closeBatch_bindless names

theorem Rejected.moves (hb : c.session.broken = false) (h : Rejected call c c') :
    Moves false c c' := by
  cases h with
  | unchanged => exact .refl
  | unprepared inspected failed => exact failed.moves hb

/-- Releasing and invalidating are moves of their own, whatever comes of them. -/
theorem release_moves {r : Except Error Unit} (hs : c.session.Settled)
    (h : (release statement).run c = (r, c')) : Moves false c c' := by
  unfold release at h
  by_cases hunnamed : statement.isUnnamed = true
  · rw [if_pos hunnamed, releaseUnnamed_run hs.staged] at h
    cases hb : c.session.broken with
    | true =>
      rw [if_pos hb] at h
      obtain ⟨-, rfl⟩ := Prod.mk.inj h
      exact .refl
    | false =>
      rw [if_neg (Bool.eq_false_iff.1 hb)] at h
      obtain ⟨-, rfl⟩ := Prod.mk.inj h
      exact .single (closing_move [""] hs hb)
  · rw [if_neg hunnamed] at h
    obtain ⟨-, rfl⟩ := Prod.mk.inj h
    exact .refl

theorem invalidate_moves {r : Except Error Unit} (hs : c.session.Settled)
    (h : invalidate.run c = (r, c')) : Moves false c c' := by
  rw [invalidate_run hs.staged] at h
  have hclear : Move false c { c with cache := c.cache.clear } :=
    .beside c.cache.clear rfl c.sequence c.session.stale
  by_cases skip : cachedNames c.cache = [] ∨ c.session.broken = true
  · rw [if_pos skip] at h
    obtain ⟨-, rfl⟩ := Prod.mk.inj h
    exact .single hclear
  · rw [if_neg skip] at h
    obtain ⟨-, rfl⟩ := Prod.mk.inj h
    have hb : c.session.broken = false := Bool.eq_false_iff.2 fun hb => skip (.inr hb)
    exact .tail (.single hclear)
      (closing_move (c := { c with cache := c.cache.clear }) (cachedNames c.cache) hs hb)

theorem invalidateStale_moves {r : Except Error Unit} (hs : c.session.Settled)
    (h : invalidateStale.run c = (r, c')) : Moves false c c' := by
  rw [invalidateStale_run] at h
  cases hstale : c.session.stale with
  | true =>
    rw [if_pos hstale] at h
    -- The flag is taken down before anything is closed.
    have hfresh : Move false c { c with session := { c.session with stale := false } } :=
      .beside c.cache rfl c.sequence false
    exact .head hfresh (invalidate_moves ⟨hs.staged, hs.deferred⟩ h)
  | false =>
    rw [if_neg (Bool.eq_false_iff.1 hstale)] at h
    obtain ⟨-, rfl⟩ := Prod.mk.inj h
    exact .refl

end ConnectionM

/-! ## What every move keeps -/

namespace Connection

variable {binding : Bool} {c c' : Connection}

theorem Move.settled (h : Move binding c c') (hs : c.session.Settled) : c'.session.Settled := by
  cases h with
  | beside cache capacity sequence stale => exact ⟨hs.staged, hs.deferred⟩
  | exchange sound syncs binds exchanged => exact exchanged.settled

theorem Moves.settled (h : Moves binding c c') (hs : c.session.Settled) : c'.session.Settled := by
  induction h with
  | refl => exact hs
  | tail _ last ih => exact last.settled ih

/-- Moves add events, and take none back. -/
theorem Moves.events (h : Moves binding c c') :
    ∃ added, c'.session.events = c.session.events ++ added := by
  induction h with
  | refl => exact ⟨[], (List.append_nil _).symm⟩
  | tail _ last ih =>
    obtain ⟨added, hadded⟩ := ih
    cases last with
    | beside cache capacity sequence stale => exact ⟨added, hadded⟩
    | @exchange batch events s sound syncs binds exchanged =>
      refine ⟨added ++ events, ?_⟩
      rw [exchanged.events_eq, hadded, List.append_assoc]

/-- On a broken session nothing happens any more. -/
theorem Moves.quiet (h : Moves binding c c')
    (hb : c.session.broken = true) :
    c'.session.events = c.session.events ∧ c'.session.broken = true := by
  induction h with
  | refl => exact ⟨rfl, hb⟩
  | tail _ last ih =>
    cases last with
    | beside cache capacity sequence stale => exact ih
    | exchange sound syncs binds exchanged =>
      rw [ih.2] at sound
      cases sound

/-- The rest of a connection, beside its session, its cache and its numbers. -/
structure Kept (c c' : Connection) : Prop where
  rest : c' = { c with session := c'.session, cache := c'.cache, sequence := c'.sequence }
  capacity : c'.cache.capacity = c.cache.capacity

theorem Moves.kept (h : Moves binding c c') : Kept c c' := by
  induction h with
  | refl => exact ⟨rfl, rfl⟩
  | tail _ last ih =>
    cases last with
    | beside cache capacity sequence stale =>
      refine ⟨?_, capacity.trans ih.capacity⟩
      rw [ih.rest]
    | exchange sound syncs binds exchanged =>
      refine ⟨?_, ih.capacity⟩
      rw [ih.rest]

end Connection

namespace ConnectionM

open Connection

variable {call : Call} {copy copy' : CopyStreams} {c c' : Connection}
  {r : Except Error (Statement × Outcome)}

theorem executeBatch_ne_nil (statement : Statement) (params : List (Option Bytes))
    (c : Connection) : executeBatch statement params c ≠ [] :=
  List.append_ne_nil_of_right_ne_nil _ (List.cons_ne_nil _ _)

/-- The exchange in which a statement is executed. -/
theorem Obtained.exchanged {key : StatementKey} {encoders : List ParamEncoder}
    {statement : Statement} {d : Connection} (hs : c.session.Settled)
    (hb : c.session.broken = false) (h : Obtained key encoders c statement d)
    (params : List (Option Bytes)) (receiver : Receiver) :
    ∃ events, d.unstaged.session.Exchanged (executeBatch statement params d) events
      (d.session.exchange (executeBatch statement params d) receiver).2.2 := by
  have hd := (h.moves hs hb).settled hs
  obtain ⟨events, hexchanged⟩ := Session.exchange_exchanged receiver
    (executeBatch_ne_nil statement params d) (h.broken hb) hd.deferred
  exact ⟨events, Session.Exchanged.unstaged hexchanged⟩

/-- An execution is a row of moves. -/
theorem Performed.moves (hs : c.session.Settled) (hb : c.session.broken = false)
    (h : Performed call copy c (r, copy') c') : Moves true c c' := by
  cases h with
  | rejected rejected => exact (rejected.moves hb).binding
  | @refused encoders params statement d e s readied sent =>
    have hobtained := readied.obtained
    have hsound := hobtained.broken hb
    obtain ⟨events, hexchanged⟩ := hobtained.exchanged hs hb params .discard
    rw [Session.exchange, sent] at hexchanged
    refine .tail (hobtained.moves hs hb).binding
      (.exchange (by exact hsound) (count_executeBatch hs hobtained) ?_ hexchanged)
    intro hbinding
    cases hbinding
  | @executed encoders params statement d c₁ c₂ r r₁ r₂ receiver s t readied sent cycled released
      invalidated =>
    have hobtained := readied.obtained
    have hsound := hobtained.broken hb
    obtain ⟨events, hexchanged⟩ :=
      hobtained.exchanged hs hb params (.rows statement.columns {} copy)
    simp only [Session.exchange, sent, cycled] at hexchanged
    -- Up to the end of the cycle; what is done after it are moves of their own.
    have hexecuted : Moves true c { d with session := t } := by
      refine .tail (hobtained.moves hs hb).binding
        (.exchange (by exact hsound) (count_executeBatch hs hobtained) ?_ hexchanged)
      intro hbinding
      cases hbinding
    have hreleased := hexecuted.trans (release_moves hexchanged.settled released).binding
    exact hreleased.trans
      (invalidateStale_moves (Moves.settled hreleased hs) invalidated).binding

/-! ## Success -/

/-- Where releasing succeeds, the session is as sound as it was. -/
theorem release_sound {statement : Statement} (hs : c.session.Settled)
    (hb : c.session.broken = false) (h : (release statement).run c = (.ok (), c')) :
    c'.session.broken = false := by
  unfold release at h
  by_cases hunnamed : statement.isUnnamed = true
  · rw [if_pos hunnamed, releaseUnnamed_run hs.staged, if_neg (Bool.eq_false_iff.1 hb)] at h
    obtain ⟨hr, rfl⟩ := Prod.mk.inj h
    obtain ⟨body, status, hbroken, -⟩ :=
      Session.exchange_ok (closeBatch_ne_nil [""]) hb hs.deferred (Prod.ext hr rfl)
    exact hbroken
  · rw [if_neg hunnamed] at h
    obtain ⟨-, rfl⟩ := Prod.mk.inj h
    exact hb

theorem invalidate_sound (hs : c.session.Settled) (hb : c.session.broken = false)
    (h : invalidate.run c = (.ok (), c')) : c'.session.broken = false := by
  rw [invalidate_run hs.staged] at h
  by_cases skip : cachedNames c.cache = [] ∨ c.session.broken = true
  · rw [if_pos skip] at h
    obtain ⟨-, rfl⟩ := Prod.mk.inj h
    exact hb
  · rw [if_neg skip] at h
    obtain ⟨hr, rfl⟩ := Prod.mk.inj h
    obtain ⟨body, status, hbroken, -⟩ :=
      Session.exchange_ok (closeBatch_ne_nil (cachedNames c.cache)) hb hs.deferred
        (Prod.ext hr rfl)
    exact hbroken

theorem invalidateStale_sound (hs : c.session.Settled) (hb : c.session.broken = false)
    (h : invalidateStale.run c = (.ok (), c')) : c'.session.broken = false := by
  rw [invalidateStale_run] at h
  cases hstale : c.session.stale with
  | true =>
    rw [if_pos hstale] at h
    exact invalidate_sound (c := { c with session := { c.session with stale := false } })
      ⟨hs.staged, hs.deferred⟩ hb h
  | false =>
    rw [if_neg (Bool.eq_false_iff.1 hstale)] at h
    obtain ⟨-, rfl⟩ := Prod.mk.inj h
    exact hb

/-- An execution that succeeds leaves a sound session. -/
theorem Performed.sound {value : Statement × Outcome} (hs : c.session.Settled)
    (hb : c.session.broken = false) (h : Performed call copy c (.ok value, copy') c') :
    c'.session.broken = false := by
  generalize hr : (Except.ok value : Except Error (Statement × Outcome)) = result at h
  cases h with
  | rejected rejected => cases hr
  | refused readied sent => cases hr
  | @executed encoders params statement d c₁ c₂ r r₁ r₂ receiver s t readied sent cycled released
      invalidated =>
    obtain ⟨rfl, rfl, rfl, -⟩ := inOrder_ok hr.symm
    have hobtained := readied.obtained
    have hd := (hobtained.moves hs hb).settled hs
    have hexchange : d.session.exchange (executeBatch statement params d)
        (.rows statement.columns {} copy) = (.ok (), receiver, t) := by
      rw [Session.exchange, sent]
      exact cycled
    obtain ⟨body, status, hbroken, hexchanged, -⟩ := Session.exchange_ok
      (executeBatch_ne_nil statement params d) (hobtained.broken hb) hd.deferred hexchange
    have hreleased := release_sound hexchanged.settled hbroken released
    have hsettled := Moves.settled (release_moves hexchanged.settled released) hexchanged.settled
    exact invalidateStale_sound hsettled hreleased invalidated

end ConnectionM

end PgClient
