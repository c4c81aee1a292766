/-
  PgClient.Proofs.Connection.CopyMode

  Who waits for whom when data is copied in. A server that executes a COPY reads
  data until the end of the copy, and discards any Sync that it meets before.
  The one Sync of an execution goes out with its Execute, so such a server has
  no Sync left to answer once the data has come, and client and server wait for
  each other.
-/
import PgClient.Proofs.Connection.BindSafety

namespace PgClient

open ConnectionM Steps

/-! ## What a server still has to answer -/

/-- Whether a message ends a copy to the server. -/
def Frontend.endsCopy : Frontend → Bool
  | .copyDone | .copyFail _ => true
  | _ => false

/-- Whether a Sync follows every end of a copy. -/
def synced : List Frontend → Bool
  | [] => true
  | f :: fs => (!f.endsCopy || fs.contains .sync) && synced fs

/-- Where a server is in what it reads. -/
structure Turn where
  /-- It takes data until the end of the copy. -/
  copying : Bool := false
  /-- How many Syncs it has taken and not answered yet. -/
  owed : Nat := 0
  deriving DecidableEq

namespace Turn

/-- The server reads one message; `copies` says that what it executes is a copy from the client. -/
def read (copies : Bool) (t : Turn) : Frontend → Turn
  | .execute .. => { t with copying := t.copying || copies }
  | .copyDone | .copyFail _ => { t with copying := false }
  | .sync => if t.copying then t else { t with owed := t.owed + 1 }
  | _ => t

/-- The server reads all that is written, and takes back one Sync for each ReadyForQuery. -/
def observe (copies : Bool) (t : Turn) : Event → Turn
  | .wrote batch => batch.foldl (read copies) t
  | .received m => if m.isReady then { t with owed := t.owed - 1 } else t

/-- Where a server is after some events, if it owed nothing before them. -/
def after (copies : Bool) (events : List Event) : Turn := events.foldl (observe copies) {}

variable {copies : Bool} {t : Turn}

/-- Answers are no Sync. -/
theorem owed_answer {f : Frontend} (h : f.isAnswer = true) :
    (t.read copies f).owed = t.owed := by
  cases f <;> first | rfl | cases h

theorem owed_answers {batch : List Frontend} (h : ∀ f ∈ batch, f.isAnswer = true) :
    (batch.foldl (read copies) t).owed = t.owed := by
  induction batch generalizing t with
  | nil => rfl
  | cons f batch ih =>
    obtain ⟨hf, hbatch⟩ := List.forall_mem_cons.1 h
    rw [List.foldl_cons, ih hbatch, owed_answer hf]

/-- While the server is not ready, answers leave it with what it owes. -/
theorem owed_answering {events : List Event} (hanswering : Answering events)
    (hunready : Unready events) : (events.foldl (observe copies) t).owed = t.owed := by
  induction events generalizing t with
  | nil => rfl
  | cons e events ih =>
    rw [List.foldl_cons, ih hanswering.tail hunready.tail]
    cases e with
    | wrote batch => exact owed_answers fun f hf => hanswering f (List.mem_append_left _ hf)
    | received m =>
      have hm : m.isReady = false := hunready m List.mem_cons_self
      rw [observe, hm, if_neg Bool.false_ne_true]

/-- A server that has read a call owes its end, unless it copies. -/
theorem owed_call (closed : List String) (statement : Statement)
    (params : List (Option Bytes)) :
    ((closed.map (Frontend.close .statement) ++ bindMessages statement params).foldl (read copies)
        {}).owed = if copies then 0 else 1 := by
  have hclosed : (closed.map (Frontend.close .statement)).foldl (read copies) {} = {} := by
    induction closed with
    | nil => rfl
    | cons name closed ih => exact ih
  rw [List.foldl_append, hclosed]
  cases copies <;> rfl

end Turn

/-! ## The cycle of an execution -/

/-- Whether an event is the end of a cycle. -/
def Event.isReady : Event → Bool
  | .wrote _ => false
  | .received m => m.isReady

/-- The events up to the end of the cycle. -/
def cycleEvents (events : List Event) : List Event := events.takeWhile fun e => !e.isReady

theorem Unready.notReady {events : List Event} (h : Unready events) :
    ∀ e ∈ events, (!e.isReady) = true := by
  induction events with
  | nil => exact fun _ => nofun
  | cons e events ih =>
    refine List.forall_mem_cons.2 ⟨?_, ih h.tail⟩
    cases e with
    | wrote batch => rfl
    | received m =>
      rw [Event.isReady, h m List.mem_cons_self]
      rfl

/-- Events that are not the end of a cycle belong to it. -/
theorem cycleEvents_append {body : List Event} (h : Unready body) (rest : List Event) :
    cycleEvents (body ++ rest) = body ++ cycleEvents rest :=
  List.takeWhile_append_of_pos h.notReady

/-- The cycle of an execution writes nothing but answers. -/
theorem Execution.Sends.cycle {x : Execution} {encoders : List ParamEncoder}
    {params : List (Option Bytes)} {statement : Statement} {d : Connection} {after : List Event}
    (h : x.Sends encoders params statement d after) (hx : x.before.Usable) :
    Answering (cycleEvents after) ∧ Unready (cycleEvents after) := by
  obtain ⟨s, t, c₁, receiver, r, r₁, r₂, sent, cycled, released, invalidated⟩ := h.course
  obtain ⟨hsent, hstaged, hs, ht, -⟩ := h.readied.obtained.cycled hx.sound sent cycled
  -- All that has happened since the write starts with the cycle.
  have hafter {body rest : List Event} (hcycle : t.events = s.events ++ body)
      (hrest : x.after.session.events = t.events ++ rest) : after = body ++ rest := by
    rw [hcycle, hsent, h.sent, List.append_assoc, List.append_assoc] at hrest
    exact (List.cons.inj (List.append_cancel_left hrest)).2
  have hreleased := release_moves ht released
  have hmoves := hreleased.trans
    (invalidateStale_moves (Connection.Moves.settled hreleased ht) invalidated)
  obtain ⟨held, events, -, hcompleted⟩ | ⟨e, events, -, haborted⟩ :=
    Session.cycle_cases hstaged hs cycled
  · obtain ⟨hanswering, hcycle⟩ := hcompleted.answering hstaged
    obtain ⟨body, status, rfl, hbody⟩ := hcompleted.ready
    obtain ⟨rest, hrest⟩ := Connection.Moves.events hmoves
    have hwhole : cycleEvents after = body := by
      rw [hafter hcycle hrest, List.append_assoc, cycleEvents_append hbody]
      exact List.append_nil _
    rw [hwhole]
    exact ⟨hanswering.left, hbody⟩
  -- A session that is broken in the cycle says no more after it.
  · have hcycle := Session.events_of_known haborted.ran.known
    have hquiet := (Connection.Moves.quiet hmoves haborted.broken).1
    have hwhole : cycleEvents after = events := by
      rw [hafter hcycle (hquiet.trans (List.append_nil _).symm),
        cycleEvents_append haborted.unready]
      exact List.append_nil _
    rw [hwhole]
    exact ⟨haborted.ran.answering, haborted.unready⟩

/-! ## The one Sync of an execution -/

/-- Where no Sync is written, no end of a copy is followed by one. -/
theorem synced_iff {fs : List Frontend} (h : .sync ∉ fs) :
    synced fs = true ↔ ∀ f ∈ fs, f.endsCopy = false := by
  induction fs with
  | nil => exact ⟨fun _ _ => nofun, fun _ => rfl⟩
  | cons f fs ih =>
    rw [List.mem_cons, not_or] at h
    have hnone : fs.contains .sync = false := by
      rw [Bool.eq_false_iff, ne_eq, List.contains_iff_mem]
      exact h.2
    rw [synced, hnone, Bool.or_false, Bool.and_eq_true, Bool.not_eq_true', ih h.2,
      List.forall_mem_cons]

/-- What does not end a copy does not matter in front. -/
theorem synced_append {fs gs : List Frontend} (h : ∀ f ∈ fs, f.endsCopy = false) :
    synced (fs ++ gs) = synced gs := by
  induction fs with
  | nil => rfl
  | cons f fs ih =>
    obtain ⟨hf, hfs⟩ := List.forall_mem_cons.1 h
    rw [List.cons_append, synced, hf, ih hfs]
    rfl

theorem Answering.sync_notMem {events : List Event} (h : Answering events) :
    .sync ∉ writtenIn events := fun hmem => nomatch h _ hmem

namespace Execution

variable {x : Execution} {encoders : List ParamEncoder} {params : List (Option Bytes)}
  {statement : Statement} {d : Connection} {after : List Event}

/-- In the cycle of an execution a Sync follows every end of a copy just where none is ended. And
at every moment of the cycle a server that discards Syncs while it copies has one to answer just
where it does not copy; where it does, it never has. -/
theorem copy_synced_iff (h : x.Sends encoders params statement d after)
    (hx : x.before.Usable) :
    let cycle := .wrote (executeBatch statement params d) :: cycleEvents after
    (synced (writtenIn cycle) = true ↔ ∀ f ∈ writtenIn cycle, f.endsCopy = false) ∧
      ∀ copies part, part <+: cycleEvents after →
        (Turn.after copies (.wrote (executeBatch statement params d) :: part)).owed =
          if copies then 0 else 1 := by
  obtain ⟨hanswering, hunready⟩ := h.cycle hx
  obtain ⟨closed, hclosed⟩ := h.readied.obtained.closes hx.settled
  have hbatch : executeBatch statement params d =
      closed.map (.close .statement) ++ bindMessages statement params := by
    rw [executeBatch, hclosed]
  have hcopyless : ∀ f ∈ executeBatch statement params d, f.endsCopy = false := by
    rw [hbatch]
    intro f hf
    rcases List.mem_append.1 hf with hf | hf
    · obtain ⟨name, -, rfl⟩ := List.mem_map.1 hf
      rfl
    · simp only [bindMessages, List.mem_cons, List.not_mem_nil, or_false] at hf
      rcases hf with rfl | rfl | rfl <;> rfl
  refine ⟨?_, fun copies part hpart => ?_⟩
  · rw [writtenIn_wrote, synced_append hcopyless, synced_iff hanswering.sync_notMem]
    exact ⟨fun h f hf => (List.mem_append.1 hf).elim (hcopyless f) (h f),
      fun h f hf => h f (List.mem_append_right _ hf)⟩
  · -- What the server owes was settled by the batch; answers do not change it.
    obtain ⟨rest, hrest⟩ := hpart
    rw [← hrest] at hanswering hunready
    rw [Turn.after, List.foldl_cons, Turn.owed_answering hanswering.left hunready.left,
      Turn.observe, hbatch, Turn.owed_call]

end Execution

namespace Connection

/-- What a server sends that describes a statement as one without rows, asks for data when it is
executed, and completes it. -/
def copying : Bytes :=
  [0x6E, 0, 0, 0, 4, 0x5A, 0, 0, 0, 5, 0x49, 0x47, 0, 0, 0, 7, 0, 0, 0,
    0x43, 0, 0, 0, 11, 0x43, 0x4F, 0x50, 0x59, 0x20, 0x31, 0, 0x5A, 0, 0, 0, 5, 0x49]

/-- The execution of a COPY with one byte of data. -/
def copied : Execution where
  before := (greeted copying).2.setAutocommit true
  call := ⟨"COPY t FROM STDIN", []⟩
  copy := { source := some { reads := [.data 0x31 []] } }

theorem copied_usable : copied.before.Usable := by
  have hgreeted : (greeted copying).1 = .ok () := by decide +kernel
  have hsettled := settled_of_connect (Prod.ext hgreeted rfl)
  exact ⟨hsettled, by decide +kernel, by decide +kernel⟩

/-- The COPY is sent, and its data is the last that is. -/
theorem copy_synced_iff_copied :
    ∃ encoders params statement d after,
      copied.Sends encoders params statement d after ∧ copied.before.Usable ∧
      let cycle := .wrote (executeBatch statement params d) :: cycleEvents after
      (synced (writtenIn cycle) = true ↔ ∀ f ∈ writtenIn cycle, f.endsCopy = false) ∧
        ∀ copies part, part <+: cycleEvents after →
          (Turn.after copies (.wrote (executeBatch statement params d) :: part)).owed =
            if copies then 0 else 1 := by
  obtain ⟨added, hbindless, hevents⟩ | ⟨encoders, params, statement, d, after, hsends⟩ :=
    copied.sends_cases copied_usable
  · have hbind : .bind "" (Statement.nameOf "" 1) [] [] [] ∈ copied.after.session.written := by
      decide +kernel
    have hbefore : ∀ f ∈ copied.before.session.written, f.isBind = false := by decide +kernel
    rw [Session.written_eq, hevents, writtenIn_append] at hbind
    rcases List.mem_append.1 hbind with hf | hf
    · cases hbefore _ hf
    · cases hbindless _ hf
  · exact ⟨encoders, params, statement, d, after, hsends, copied_usable,
      Execution.copy_synced_iff hsends copied_usable⟩

/-- No Sync follows the end of the data. When the client has sent it and waits for the end of the
cycle, a server that discards Syncs while it copies has none to answer. -/
theorem copy_unsynced :
    copied.before.Usable ∧ copied.result.isOk = true ∧
      copied.after.session.written.drop 4 =
        [.bind "" (Statement.nameOf "" 1) [] [] [], .execute "" 0, .sync, .copyData [0x31],
          .copyDone] ∧
      synced copied.after.session.written = false ∧
      (Turn.after true ((copied.after.session.events.drop 6).take 3)).owed = 0 :=
  ⟨copied_usable, by decide +kernel, by decide +kernel, by decide +kernel, by decide +kernel⟩

end Connection

end PgClient
