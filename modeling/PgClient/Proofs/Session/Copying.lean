/-
  PgClient.Proofs.Session.Copying

  Copies to the server. The data of a source goes out in the parts in which it
  was read, whatever part of it is sent in which write, and one message more says
  whether it is all there is. Only a write that the stream refuses keeps any of it
  back.
-/
import PgClient.Proofs.Session.Cycle

namespace PgClient

open Steps

/-! ## The frames of a source -/

namespace CopyRead

/-- How many bytes a read gives. -/
def size : CopyRead → Nat
  | .data _ rest => rest.length + 1
  | .interrupted => 0

/-- The frame in which a read is sent. An interrupted one has none. -/
def frame? : CopyRead → Option Frontend
  | .data first rest => some (.copyData (first :: rest))
  | .interrupted => none

end CopyRead

namespace CopySource

/-- The frames that carry a source to the server: one for each read that gives data, in order, and
one that says whether the data is all there is. -/
def frames (source : CopySource) : List Frontend :=
  source.reads.filterMap CopyRead.frame? ++
    [match source.failure with
      | none => .copyDone
      | some reason => .copyFail ("copy source failed: " ++ reason)]

variable {source : CopySource}

end CopySource

/-! ## Writes that are refused -/

/-- What a step has made of a stream: it is served, unless it is refused, and then nothing more is
taken. A stream that takes every write goes on to. -/
inductive Stream.Serves {α : Type} (s s' : Stream) : Except Error α → Prop
  | served {a : α} (refusal : s'.refusal = s.refusal)
    (unlimited : s.accepts = none → s'.accepts = none) : Serves s s' (.ok a)
  | refused (limited : s.accepts ≠ none) (spent : s'.accepts = some 0) :
    Serves s s' (.error (.io (.failed s.refusal)))

theorem Session.serves_send (s : Session) (batch : List Frontend) :
    s.stream.Serves (s.send batch).2.stream (s.send batch).1 := by
  unfold Session.send Stream.write
  split
  · rename_i stream hwrite
    split at hwrite
    · rename_i hnone
      obtain ⟨-, rfl⟩ := Prod.mk.inj hwrite
      exact .served rfl id
    · cases hwrite
    · rename_i n hsome
      obtain ⟨-, rfl⟩ := Prod.mk.inj hwrite
      exact .served rfl fun hnone => nomatch hsome.symm.trans hnone
  · rename_i f stream hwrite
    split at hwrite
    · cases hwrite
    · rename_i hspent
      obtain ⟨he, rfl⟩ := Prod.mk.inj hwrite
      cases he
      exact .refused (fun hnone => nomatch hspent.symm.trans hnone) hspent
    · cases hwrite

namespace CycleM

/-- A step fails only where the stream refuses a write of it. -/
def OnlyRefused {α : Type} (x : CycleM α) : Prop :=
  ∀ c : Cycle, c.session.stream.Serves (x.run c).2.session.stream (x.run c).1

namespace OnlyRefused

variable {α β : Type}

theorem bind {x : CycleM α} {f : α → CycleM β} (hx : OnlyRefused x)
    (hf : ∀ a, OnlyRefused (f a)) : OnlyRefused (x >>= f) := by
  intro c
  have hfirst := hx c
  rw [run_bind]
  rcases hrun : x.run c with ⟨e | a, t⟩ <;> rw [hrun] at hfirst
  · cases hfirst with
    | refused limited spent => exact .refused limited spent
  · obtain ⟨hrefusal, hunlimited⟩ := hfirst
    have hrest := hf a t
    dsimp only
    rcases hlast : (f a).run t with ⟨e | b, u⟩ <;> rw [hlast] at hrest
    · dsimp only at hrest
      cases hrest with
      | refused limited spent =>
        have hlimited : c.session.stream.accepts ≠ none := mt hunlimited limited
        rw [hrefusal]
        exact .refused hlimited spent
    · cases hrest with
      | served hrefusal' hunlimited' =>
        exact .served (hrefusal'.trans hrefusal) fun hnone => hunlimited' (hunlimited hnone)

/-- A step that leaves the stream alone and succeeds. -/
theorem of_eq {x : CycleM Unit} (next : Cycle → Cycle) (hx : ∀ c, x.run c = (.ok (), next c))
    (hnext : ∀ c, (next c).session.stream = c.session.stream) : OnlyRefused x := by
  intro c
  rw [hx c]
  exact .served (by rw [hnext]) (by rw [hnext]; exact id)

theorem defer (e : Error) : OnlyRefused (CycleM.defer e) :=
  of_eq _ (defer_run e) fun _ => rfl

theorem stage (f : Frontend) : OnlyRefused (onSession (SessionM.stage f)) :=
  of_eq (fun c => { c with session := { c.session with staged := c.session.staged ++ [f] } })
    (fun _ => rfl) fun _ => rfl

theorem flush : OnlyRefused (onSession SessionM.flush) := by
  intro c
  rw [onSession_run, SessionM.flush_run]
  split
  · exact .served rfl id
  · exact c.session.serves_send _

theorem sendChunks (chunks : List Bytes) : OnlyRefused (CycleM.sendChunks chunks) := by
  induction chunks with
  | nil => exact of_eq id (fun _ => rfl) fun _ => rfl
  | cons chunk chunks ih =>
    refine bind (fun c => ?_) fun _ => ih
    rw [stageChunk_run]
    dsimp only
    split
    · exact Session.serves_send { c.session with staged := _ } _
    · exact .served rfl id

theorem copyIn (source : CopySource) : OnlyRefused (CycleM.copyIn (some source)) := by
  refine (sendChunks source.chunks).bind fun _ => ?_
  dsimp only
  cases source.failure with
  | none => exact (stage _).bind fun _ => flush
  | some reason => exact (stage _).bind fun _ => (defer _).bind fun _ => flush

end OnlyRefused

end CycleM

/-! ## One copy -/

end PgClient
