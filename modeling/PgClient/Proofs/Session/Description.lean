/-
  PgClient.Proofs.Session.Description

  The cycle in which a statement is described. It is good for a statement if some
  message of it says what the statement returns and none of them is refused; the
  order of the messages does not matter, and neither does whether the Parse before
  it was acknowledged. What it says has no more columns than a count can tell.
-/
import PgClient.Proofs.Message.Packets
import PgClient.Proofs.Session.Exchange

namespace PgClient

/-- Whether a message says what a statement returns. -/
def Backend.describes : Backend → Bool
  | .rowDescription _ | .noData => true
  | _ => false

/-- Whether the messages of a cycle describe a statement. -/
def Describes (messages : List Backend) : Prop :=
  (∃ m ∈ messages, m.describes = true) ∧
    ∀ m ∈ messages, (Receiver.describe {}).refuses m = false

instance : DecidablePred Describes := fun _ => inferInstanceAs (Decidable (_ ∧ _))

namespace Receiver

variable {s : Session} {m : Backend} {d : Described}

/-- The receiver of a description takes a message of its kind and no other. -/
theorem next_describe :
    ∃ d', next s (.describe d) m = .describe d' ∧
      d'.fields.isSome = (d.fields.isSome || m.describes) := by
  cases m with
  | rowDescription fields => exact ⟨{ d with fields := some fields }, rfl, (Bool.or_true _).symm⟩
  | noData => exact ⟨{ d with fields := some [] }, rfl, (Bool.or_true _).symm⟩
  | parameterDescription types =>
    exact ⟨{ d with paramTypes := types }, rfl, (Bool.or_false _).symm⟩
  | _ => exact ⟨d, rfl, (Bool.or_false _).symm⟩

/-- It holds an error back for the messages that it refuses and no others. -/
theorem refusal_describe :
    (refusal s (.describe d) m).isSome = (Receiver.describe {}).refuses m := by
  cases m <;> rfl

end Receiver

/-- The receiver of a description and the error held back, after some messages. -/
theorem Cycle.Runs.described {c c' : Cycle} {events : List Event} {d : Described}
    (h : Runs c events c') (hreceiver : c.receiver = .describe d) :
    ∃ d', c'.receiver = .describe d' ∧
      d'.fields.isSome = (d.fields.isSome || (receivedIn events).any Backend.describes) ∧
      c'.session.deferred.isSome =
        (c.session.deferred.isSome || (receivedIn events).any (Receiver.describe {}).refuses) := by
  induction h generalizing d with
  | refl c => exact ⟨d, hreceiver, (Bool.or_false _).symm, (Bool.or_false _).symm⟩
  | @step c c₁ c₂ m batches events first rest ih =>
    obtain ⟨held, hheld, hhandles⟩ := first.handles
    rw [hreceiver] at hhandles
    generalize hnext : c₁.receiver = next at hhandles
    generalize batches.flatten = answer at hhandles
    cases hhandles with
    | challenge startup replied => cases startup
    | message unasked =>
      obtain ⟨d₁, hd₁, hfields₁⟩ := Receiver.next_describe (s := c.session) (m := m) (d := d)
      obtain ⟨d₂, hd₂, hfields₂, hdeferred₂⟩ := ih (hnext.trans hd₁)
      refine ⟨d₂, hd₂, ?_, ?_⟩
      · rw [hfields₂, hfields₁, receivedIn_append, receivedIn_handled, List.singleton_append,
          List.any_cons, Bool.or_assoc]
      · rw [hdeferred₂, hheld, Option.isSome_or, Receiver.refusal_describe, receivedIn_append,
          receivedIn_handled, List.singleton_append, List.any_cons, Bool.or_assoc]

namespace Session

/-- An exchange that asks for a description and leaves the session sound came to its end. It
brought a description and no error just where the messages of its cycle describe a statement. -/
theorem exchange_described {batch : List Frontend} {receiver : Receiver} {s s' : Session}
    {r : Except Error Unit} (hbatch : batch ≠ []) (hb : s.broken = false)
    (hd : s.deferred = none) (h : s.exchange batch (.describe {}) = (r, receiver, s'))
    (hsound : s'.broken = false) :
    ∃ body status,
      s'.events = s.events ++ .wrote batch :: (body ++ [.received (.readyForQuery status)]) ∧
        Answering body ∧ Unready body ∧
        ((∃ types fields, r = .ok () ∧ receiver = .describe ⟨types, some fields⟩) ↔
          Describes (receivedIn body)) := by
  obtain ⟨held, events, t, rfl, hsent, hcompleted, hexchanged⟩ | ⟨e, events, -, hbroken, -⟩ :=
    exchange_cases hbatch hb hd h
  · obtain ⟨body, status, hevents, hanswering, hbody⟩ := hexchanged.body hsound
    obtain ⟨-, rfl⟩ := List.cons.inj hevents
    obtain ⟨⟨types, fields⟩, hreceiver, hfields, hheld⟩ := hcompleted.runs.described rfl
    dsimp only at hreceiver hfields hheld
    -- The ReadyForQuery at the end neither describes anything nor is refused.
    rw [receivedIn_append, List.any_append, receivedIn_received, List.any_cons] at hfields hheld
    simp only [receivedIn_nil, List.any_nil, Backend.describes, Receiver.refuses,
      Option.isSome_none, Bool.or_false, Bool.false_or] at hfields hheld
    have hdescribes : Describes (receivedIn body) ↔ fields.isSome = true ∧ held.isSome = false := by
      rw [hfields, hheld, List.any_eq_true, List.any_eq_false, Describes]
      simp only [Bool.not_eq_true]
    refine ⟨body, status, hexchanged.events_eq, hanswering, hbody, ?_⟩
    rw [hdescribes, hreceiver]
    cases held <;> cases fields <;> simp
  · rw [hsound] at hbroken
    cases hbroken

end Session

/-! ## Columns -/

/-- No description has more columns than its count can tell. -/
theorem Backend.length_of_decode {tag : UInt8} {body : Bytes} {version : Int32}
    {fields : List FieldDescription}
    (h : decode tag body version = .ok (.rowDescription fields)) : fields.length ≤ maxCount := by
  unfold decode at h
  cases hmessage : (Body.message tag version).run body with
  | error v =>
    rw [show Body.message tag version body = .error v from hmessage] at h
    cases h
  | ok read =>
    obtain ⟨m, rest⟩ := read
    rw [show Body.message tag version body = .ok (m, rest) from hmessage] at h
    obtain rfl := Except.ok.inj h
    unfold Body.message at hmessage
    split at hmessage
    case h_6 =>
      -- Of all kinds this one is a description.
      obtain ⟨_, _, hfields, hm⟩ := Body.bind_eq_ok.1 hmessage
      obtain ⟨hm, -⟩ := Body.pure_eq_ok.1 hm
      cases hm
      exact Body.length_of_counted hfields
    case h_22 => cases hmessage
    all_goals
      simp only [Body.bind_eq_ok, Body.pure_eq_ok, reduceCtorEq, false_and, and_false,
        exists_false] at hmessage

/-- What a receiver knows of a description keeps to what a count can tell. -/
theorem Cycle.Runs.described_few {c c' : Cycle} {events : List Event} {d : Described}
    (h : Runs c events c') (hreceiver : c.receiver = .describe d)
    (hd : ∀ fields ∈ d.fields, fields.length ≤ maxCount) :
    ∃ d', c'.receiver = .describe d' ∧ ∀ fields ∈ d'.fields, fields.length ≤ maxCount := by
  induction h generalizing d with
  | refl c => exact ⟨d, hreceiver, hd⟩
  | @step c c₁ c₂ m batches events first rest ih =>
    obtain ⟨held, -, hhandles⟩ := first.handles
    obtain ⟨frame, ⟨tag, body, version, -, -, hdecode⟩, -⟩ := first.frame
    rw [hreceiver] at hhandles
    generalize hnext : c₁.receiver = next at hhandles
    generalize batches.flatten = answer at hhandles
    cases hhandles with
    | challenge startup replied => cases startup
    | message unasked =>
      cases m with
      | rowDescription fields =>
        refine ih hnext fun _ h => ?_
        obtain rfl := Option.some.inj h
        exact Backend.length_of_decode hdecode
      | noData =>
        refine ih hnext fun _ h => ?_
        obtain rfl := Option.some.inj h
        exact Nat.zero_le _
      | _ => exact ih hnext hd

/-- An exchange that asks for a description gets one that a count can tell. -/
theorem Session.exchange_few {batch : List Frontend} {types : List Oid}
    {fields : List FieldDescription} {s s' : Session} (hbatch : batch ≠ [])
    (hb : s.broken = false) (hd : s.deferred = none)
    (h : s.exchange batch (.describe {}) = (.ok (), .describe ⟨types, some fields⟩, s')) :
    fields.length ≤ maxCount := by
  obtain ⟨held, events, t, -, -, hcompleted, -⟩ | ⟨e, events, hr, -⟩ :=
    exchange_cases hbatch hb hd h
  · obtain ⟨d, hreceiver, hfew⟩ := hcompleted.runs.described_few rfl nofun
    cases hreceiver
    exact hfew fields rfl
  · cases hr

end PgClient
