/-
  PgClient.Proofs.Session.Signals

  What a server sees of a client: the tags of the frames and where the writes end.
  Languages of such signals are regular expressions. A sound session has sent a
  word of its language, a broken one the beginning of a word. Its completed
  writes are cut only between two writes; a write that was refused would have
  gone on with the word, and so does any part of it that got out.
-/
import Mathlib.Computability.RegularExpressions
import PgClient.Proofs.Session.Exchange

namespace PgClient

open RegularExpression

/-! ## Signals -/

/-- What can be seen from the other side: a frame with its tag, which only the opening packets do
not have, or the end of a write. -/
inductive Signal where
  | frame (tag : Option Char)
  | flush
  deriving DecidableEq, Repr

/-- The signals of a write of messages with these tags. -/
def signalsOf (tags : List (Option Char)) : List Signal := tags.map .frame ++ [.flush]

/-- The signals of an event. -/
def Event.signals : Event → List Signal
  | .wrote batch => signalsOf (batch.map Frontend.tag?)
  | .received _ => []

/-- The signals of some events, in order. -/
def signalsIn (events : List Event) : List Signal := events.flatMap Event.signals

@[simp] theorem signalsIn_nil : signalsIn [] = [] := rfl

@[simp] theorem signalsIn_wrote (batch : List Frontend) (events : List Event) :
    signalsIn (.wrote batch :: events) = signalsOf (batch.map Frontend.tag?) ++ signalsIn events :=
  rfl

@[simp] theorem signalsIn_received (m : Backend) (events : List Event) :
    signalsIn (.received m :: events) = signalsIn events := rfl

@[simp] theorem signalsIn_append (events events' : List Event) :
    signalsIn (events ++ events') = signalsIn events ++ signalsIn events' := List.flatMap_append

/-- Messages of the server are not seen. -/
theorem signalsIn_map_received (messages : List Backend) :
    signalsIn (messages.map .received) = [] := by
  induction messages with
  | nil => rfl
  | cons m messages ih => exact ih

/-- The tags of the frames among some signals. -/
def tagsIn (signals : List Signal) : List (Option Char) :=
  signals.filterMap fun
    | .frame tag => some tag
    | .flush => none

@[simp] theorem tagsIn_nil : tagsIn [] = [] := rfl

@[simp] theorem tagsIn_frame (tag : Option Char) (signals : List Signal) :
    tagsIn (.frame tag :: signals) = tag :: tagsIn signals := rfl

@[simp] theorem tagsIn_flush (signals : List Signal) :
    tagsIn (.flush :: signals) = tagsIn signals := rfl

theorem tagsIn_append (signals signals' : List Signal) :
    tagsIn (signals ++ signals') = tagsIn signals ++ tagsIn signals' := List.filterMap_append

theorem tagsIn_signalsOf (tags : List (Option Char)) : tagsIn (signalsOf tags) = tags := by
  induction tags with
  | nil => rfl
  | cons tag tags ih => exact congrArg (tag :: ·) ih

/-- The tags that are seen are those of the messages that were written. -/
theorem tagsIn_signalsIn (events : List Event) :
    tagsIn (signalsIn events) = (writtenIn events).map Frontend.tag? := by
  induction events with
  | nil => rfl
  | cons e events ih =>
    cases e with
    | received m => exact ih
    | wrote batch =>
      rw [signalsIn_wrote, tagsIn_append, tagsIn_signalsOf, ih, writtenIn_wrote, List.map_append]

/-- What is seen of some events ends where a write ends, if anything is. -/
theorem signalsIn_ends (events : List Event) :
    signalsIn events = [] ∨ (signalsIn events).getLast? = some .flush := by
  induction events with
  | nil => exact .inl rfl
  | cons e events ih =>
    cases e with
    | received m => exact ih
    | wrote batch =>
      rw [signalsIn_wrote]
      obtain hnone | hlast := ih
      · rw [hnone, List.append_nil]
        exact .inr List.getLast?_concat
      · rw [List.getLast?_append, hlast]
        exact .inr rfl

/-- A message that was written is seen with its tag. -/
theorem frame_mem_signalsIn {f : Frontend} {events : List Event} (h : f ∈ writtenIn events) :
    .frame f.tag? ∈ signalsIn events := by
  obtain ⟨event, hevent, hf⟩ := List.mem_flatMap.1 h
  refine List.mem_flatMap.2 ⟨event, hevent, ?_⟩
  cases event with
  | received m => cases hf
  | wrote batch =>
    exact List.mem_append_left _ (List.mem_map.2 ⟨f.tag?, List.mem_map.2 ⟨f, hf, rfl⟩, rfl⟩)

/-! ## Languages -/

section Languages

variable {α : Type} {r r' : RegularExpression α} {w v : List α}

/-- A word of a language or, where the session is broken, the beginning of one. -/
def Along (r : RegularExpression α) (broken : Bool) (w : List α) : Prop :=
  if broken then ∃ rest, w ++ rest ∈ r.matches' else w ∈ r.matches'

namespace Along

theorem of_mem (broken : Bool) (h : w ∈ r.matches') : Along r broken w := by
  cases broken with
  | false => exact h
  | true => exact ⟨[], (List.append_nil w).symm ▸ h⟩

/-- In both cases it is the beginning of a word. -/
theorem begins {broken : Bool} (h : Along r broken w) : ∃ rest, w ++ rest ∈ r.matches' := by
  cases broken with
  | false => exact ⟨[], (List.append_nil w).symm ▸ h⟩
  | true => exact h

theorem mono {broken : Bool} (hle : ∀ v, v ∈ r.matches' → v ∈ r'.matches')
    (h : Along r broken w) : Along r' broken w := by
  cases broken with
  | false => exact hle _ h
  | true =>
    obtain ⟨rest, hrest⟩ := h
    exact ⟨rest, hle _ hrest⟩

/-- What follows a word of a language follows it in the product of the languages. -/
theorem append {broken : Bool} (h : w ∈ r.matches') (h' : Along r' broken v) :
    Along (r * r') broken (w ++ v) := by
  cases broken with
  | false => exact Language.append_mem_mul h h'
  | true =>
    obtain ⟨rest, hrest⟩ := h'
    refine ⟨rest, ?_⟩
    rw [List.append_assoc]
    exact Language.append_mem_mul h hrest

/-- A word may stand alone before a language that may be left out. -/
theorem alone {broken : Bool} (h : Along r broken w) (hempty : [] ∈ r'.matches') :
    Along (r * r') broken w := by
  refine h.mono fun v hv => ?_
  have hword := Language.append_mem_mul hv hempty
  rwa [List.append_nil] at hword

end Along

theorem nil_mem_star (r : RegularExpression α) : [] ∈ r.star.matches' :=
  Language.nil_mem_kstar _

theorem nil_mem_option (r : RegularExpression α) : [] ∈ (1 + r).matches' := .inl rfl

/-- A word is a row of one word. -/
theorem mem_star_of_mem (h : w ∈ r.matches') : w ∈ r.star.matches' := by
  rw [matches'_star, Language.mem_kstar]
  exact ⟨[w], by simpa using h⟩

/-- A row of words with one word more is a row. -/
theorem mem_star_of_mem_mul (h : w ∈ (r.star * r).matches') : w ∈ r.star.matches' := by
  rw [matches'_mul, matches'_star] at h
  rw [matches'_star, ← Language.one_add_kstar_mul_self_eq_kstar]
  exact .inr h

theorem append_mem_star (h : w ∈ r.star.matches') (h' : v ∈ r.star.matches') :
    w ++ v ∈ r.star.matches' := by
  rw [matches'_star] at h h' ⊢
  rw [← kstar_mul_kstar]
  exact Language.append_mem_mul h h'

/-- The letters of a regular expression. -/
def letters : RegularExpression α → List α
  | .char a => [a]
  | .plus r r' | .comp r r' => letters r ++ letters r'
  | .star r => letters r
  | .zero | .epsilon => []

/-- A word has no other letters than its expression. -/
theorem mem_letters (h : w ∈ r.matches') {a : α} (ha : a ∈ w) : a ∈ letters r := by
  induction r generalizing w with
  | zero => cases h
  | epsilon =>
    cases h
    cases ha
  | char b =>
    cases h
    exact ha
  | plus r r' ih ih' =>
    rcases h with h | h
    · exact List.mem_append_left _ (ih h ha)
    · exact List.mem_append_right _ (ih' h ha)
  | comp r r' ih ih' =>
    obtain ⟨u, hu, v, hv, rfl⟩ := Language.mem_mul.1 h
    rcases List.mem_append.1 ha with ha | ha
    · exact List.mem_append_left _ (ih hu ha)
    · exact List.mem_append_right _ (ih' hv ha)
  | star r ih =>
    obtain ⟨words, rfl, hwords⟩ := Language.mem_kstar.1 h
    obtain ⟨u, hu, ha⟩ := List.mem_flatten.1 ha
    exact ih (hwords u hu) ha

/-- Nor has the beginning of one. -/
theorem Along.letters {broken : Bool} (h : Along r broken w) {a : α} (ha : a ∈ w) :
    a ∈ PgClient.letters r := by
  obtain ⟨rest, hrest⟩ := h.begins
  exact mem_letters hrest (List.mem_append_left rest ha)

/-- Whether an expression has no words, as far as its form shows. -/
def isVoid : RegularExpression α → Bool
  | .zero => true
  | .plus r r' => isVoid r && isVoid r'
  | .comp r r' => isVoid r || isVoid r'
  | .epsilon | .char _ | .star _ => false

theorem notMem_of_isVoid (h : isVoid r = true) : w ∉ r.matches' := by
  induction r generalizing w with
  | zero => exact id
  | epsilon | char | star => cases h
  | plus r r' ih ih' =>
    obtain ⟨hr, hr'⟩ := (Bool.and_eq_true_iff ..).1 h
    exact fun hw => hw.elim (ih hr) (ih' hr')
  | comp r r' ih ih' =>
    intro hw
    obtain ⟨u, hu, v, hv, -⟩ := Language.mem_mul.1 hw
    exact ((Bool.or_eq_true_iff ..).1 h).elim (ih · hu) (ih' · hv)

/-- No word begins with letters after which the expression that is left has no words. -/
theorem notMem_of_derivs [DecidableEq α] (h : isVoid (w.foldl RegularExpression.deriv r) = true)
    (rest : List α) : w ++ rest ∉ r.matches' := by
  induction w generalizing r with
  | nil => exact notMem_of_isVoid h
  | cons a w ih =>
    intro hword
    refine ih h ((rmatch_iff_matches' _ _).1 ?_)
    exact (rmatch_iff_matches' r (a :: (w ++ rest))).2 hword

end Languages

/-- The signals of one write of messages with these tags. -/
def write : List (Option Char) → RegularExpression Signal
  | [] => char .flush
  | tag :: tags => char (.frame tag) * write tags

theorem signalsOf_mem (tags : List (Option Char)) : signalsOf tags ∈ (write tags).matches' := by
  induction tags with
  | nil => rfl
  | cons tag tags ih =>
    exact Language.append_mem_mul (a := [Signal.frame tag]) rfl ih

/-! ## Answers -/

/-- Data of a copy, sent in any number of writes. -/
def copyParts : RegularExpression Signal :=
  (char (Signal.frame 'd') * (1 + char Signal.flush)).star

/-- The answer to a copy: its data, and one message more that says whether this is all. -/
def copyAnswers : RegularExpression Signal := copyParts * (write ['c'] + write ['f'])

/-- What a receiver answers to one message, if it answers at all. -/
def Receiver.answers : Receiver → RegularExpression Signal
  | .startup _ => write ['p'] + write ['f']
  | .rows .. => copyAnswers
  | .discard | .describe _ => write ['f']

/-- A receiver answers in the same language from its first message to its last. -/
theorem Receiver.Handles.answers {s : Session} {r r' : Receiver} {m : Backend}
    {answer : List Frontend} {held : Option Error} (h : r.Handles s m answer held r') :
    r'.answers = r.answers := by
  cases h with
  | challenge startup replied =>
    rw [startup]
    rfl
  | message unasked =>
    unfold Receiver.next
    split <;> (try split) <;> rfl

/-- Nothing is sent in no write, since no write is empty. -/
theorem batches_of_flatten_nil {batches : List (List Frontend)} (hnonempty : [] ∉ batches)
    (h : batches.flatten = []) : batches = [] := by
  cases batches with
  | nil => rfl
  | cons batch batches =>
    have hempty : batch = [] := (List.append_eq_nil_iff.1 h).1
    exact absurd (hempty ▸ List.mem_cons_self) hnonempty

/-- An answer of one message is sent in one write. -/
theorem batches_of_flatten_singleton {batches : List (List Frontend)} {f : Frontend}
    (hnonempty : [] ∉ batches) (h : batches.flatten = [f]) : batches = [[f]] := by
  cases batches with
  | nil => cases h
  | cons batch batches =>
    rw [List.flatten_cons] at h
    obtain ⟨hbatch, -⟩ | ⟨hbatch, hrest⟩ := List.append_eq_singleton_iff.1 h
    · exact absurd (hbatch ▸ List.mem_cons_self) hnonempty
    · have hnone := batches_of_flatten_nil
        (fun hmem => hnonempty (List.mem_cons_of_mem _ hmem)) hrest
      rw [hbatch, hnone]

/-- Data without the end of a write. -/
theorem copyParts_data {data : List Frontend} (h : ∀ f ∈ data, f.tag? = some 'd') :
    (data.map Frontend.tag?).map .frame ∈ copyParts.matches' := by
  induction data with
  | nil => exact nil_mem_star _
  | cons f data ih =>
    have hfirst : [Signal.frame 'd'] ∈
        (char (Signal.frame 'd') * (1 + char Signal.flush)).star.matches' :=
      mem_star_of_mem (Language.append_mem_mul (a := [Signal.frame 'd']) (b := []) rfl (.inl rfl))
    have hrest := ih fun g hg => h g (List.mem_cons_of_mem _ hg)
    rw [List.map_cons, List.map_cons, h f List.mem_cons_self]
    exact append_mem_star hfirst hrest

/-- A write of data. -/
theorem copyParts_write {data : List Frontend} (hnonempty : data ≠ [])
    (h : ∀ f ∈ data, f.tag? = some 'd') :
    signalsOf (data.map Frontend.tag?) ∈ copyParts.matches' := by
  obtain ⟨front, last, rfl⟩ : ∃ front last, data = front ++ [last] :=
    ⟨_, _, (List.dropLast_append_getLast hnonempty).symm⟩
  have hfront := copyParts_data fun f hf => h f (List.mem_append_left _ hf)
  have hlast : [Signal.frame 'd', Signal.flush] ∈
      (char (Signal.frame 'd') * (1 + char Signal.flush)).star.matches' :=
    mem_star_of_mem
      (Language.append_mem_mul (a := [Signal.frame 'd']) (b := [Signal.flush]) rfl (.inr rfl))
  rw [signalsOf, List.map_append, List.map_append, List.append_assoc, List.map_singleton,
    h last (List.mem_append_right _ List.mem_cons_self)]
  exact append_mem_star hfront hlast

/-- The first write of an answer has a part of what comes before the last message, or all there
is. -/
theorem first_write_cases {batch data : List Frontend} {batches : List (List Frontend)}
    {last : Frontend} (hnonempty : [] ∉ batches)
    (h : batch ++ batches.flatten = data ++ [last]) :
    (∃ more, data = batch ++ more ∧ batches.flatten = more ++ [last]) ∨
      batch = data ++ [last] ∧ batches = [] := by
  obtain ⟨more, hmore, hrest⟩ | ⟨more, hmore, hrest⟩ := List.append_eq_append_iff.1 h
  · exact .inl ⟨more, hmore, hrest⟩
  · cases more with
    | nil => exact .inl ⟨[], by rw [hmore, List.append_nil, List.append_nil], hrest.symm⟩
    | cons f more =>
      obtain ⟨rfl, hnone⟩ := List.cons.inj hrest
      obtain ⟨hmore', hflatten⟩ := List.append_eq_nil_iff.1 hnone.symm
      exact .inr ⟨by rw [hmore, hmore'], batches_of_flatten_nil hnonempty hflatten⟩

/-- The data of a copy and its end, however they are divided between writes. -/
theorem copyAnswers_writes {batches : List (List Frontend)} (data : List Frontend)
    {last : Frontend} (hnonempty : [] ∉ batches) (hflatten : batches.flatten = data ++ [last])
    (hdata : ∀ f ∈ data, f.tag? = some 'd') (hlast : last.tag? = some 'c' ∨ last.tag? = some 'f') :
    signalsIn (batches.map .wrote) ∈ copyAnswers.matches' := by
  induction batches generalizing data with
  | nil => exact absurd hflatten.symm (List.append_ne_nil_of_right_ne_nil _ (List.cons_ne_nil _ _))
  | cons batch batches ih =>
    have hbatch : batch ≠ [] := fun hempty => hnonempty (hempty ▸ List.mem_cons_self)
    have hrest : [] ∉ batches := fun hmem => hnonempty (List.mem_cons_of_mem _ hmem)
    rw [List.map_cons, signalsIn_wrote]
    obtain ⟨more, rfl, hmore⟩ | ⟨rfl, rfl⟩ := first_write_cases hrest hflatten
    -- The first write has data alone, and the parts of the others go on after it.
    · have hfirst := copyParts_write hbatch fun f hf => hdata f (List.mem_append_left _ hf)
      obtain ⟨parts, hparts, ending, hending, hword⟩ := Language.mem_mul.1
        (ih more hrest hmore fun f hf => hdata f (List.mem_append_right _ hf))
      rw [← hword, ← List.append_assoc]
      exact Language.append_mem_mul (append_mem_star hfirst hparts) hending
    -- The first write is the only one, and ends with the last message.
    · rw [List.map_nil, signalsIn_nil, List.append_nil, signalsOf, List.map_append,
        List.map_append, List.append_assoc]
      refine Language.append_mem_mul (copyParts_data hdata) ?_
      rcases hlast with hlast | hlast
      · rw [List.map_singleton, hlast]
        exact .inl (signalsOf_mem ['c'])
      · rw [List.map_singleton, hlast]
        exact .inr (signalsOf_mem ['f'])

/-- An answer of one message with this tag. -/
theorem answer_write {batches : List (List Frontend)} {f : Frontend} {tag : Char}
    (hnonempty : [] ∉ batches) (hflatten : batches.flatten = [f]) (htag : f.tag? = some tag) :
    signalsIn (batches.map .wrote) ∈ (write [tag]).matches' := by
  rw [batches_of_flatten_singleton hnonempty hflatten, List.map_singleton, signalsIn_wrote,
    signalsIn_nil, List.append_nil, List.map_singleton, htag]
  exact signalsOf_mem [tag]

namespace Receiver.Handles

variable {s : Session} {r r' : Receiver} {m : Backend} {answer : List Frontend}
  {held : Option Error} {batches : List (List Frontend)}

/-- What answers one message is nothing or a word of the receiver's language. -/
theorem writes (h : r.Handles s m answer held r') (hnonempty : [] ∉ batches)
    (hflatten : batches.flatten = answer) :
    signalsIn (batches.map .wrote) ∈ r.answers.star.matches' := by
  have hsilent (hnone : answer = []) :
      signalsIn (batches.map .wrote) ∈ r.answers.star.matches' := by
    rw [batches_of_flatten_nil hnonempty (hflatten.trans hnone)]
    exact nil_mem_star _
  cases h with
  | challenge startup replied =>
    rw [startup]
    cases replied with
    | ok | saslFinal =>
      rw [startup] at hsilent
      exact hsilent rfl
    | cleartext | md5 | sasl | saslContinue =>
      exact mem_star_of_mem (.inl (answer_write hnonempty hflatten rfl))
  | message unasked =>
    cases m with
    | copyIn format columns =>
      refine mem_star_of_mem ?_
      cases r with
      | startup => exact .inr (answer_write hnonempty hflatten rfl)
      | discard | describe => exact answer_write hnonempty hflatten rfl
      | rows columns' outcome copy =>
        obtain ⟨_ | source, sink⟩ := copy
        · exact copyAnswers_writes [] hnonempty hflatten (fun _ hf => nomatch hf)
            (.inr rfl)
        · refine copyAnswers_writes _ hnonempty hflatten ?_ ?_
          · intro f hf
            obtain ⟨chunk, -, rfl⟩ := List.mem_map.1 hf
            rfl
          · cases source.failure with
            | none => exact .inl rfl
            | some reason => exact .inr rfl
    | _ => exact hsilent rfl

/-- What answers a message in part is the beginning of a word. -/
theorem writes_part (h : r.Handles s m answer held r') (hnonempty : [] ∉ batches)
    (hpart : batches.flatten <+: answer) :
    ∃ rest, signalsIn (batches.map .wrote) ++ rest ∈ r.answers.star.matches' := by
  obtain ⟨more, hmore⟩ := hpart
  -- The answer could have gone on with one more write.
  by_cases hnone : more = []
  · rw [hnone, List.append_nil] at hmore
    exact ⟨[], (List.append_nil _).symm ▸ h.writes hnonempty hmore⟩
  · have hall : [] ∉ batches ++ [more] := by
      intro hmem
      rcases List.mem_append.1 hmem with hmem | hmem
      · exact hnonempty hmem
      · exact hnone (List.mem_singleton.1 hmem).symm
    have hword := h.writes hall (by rw [List.flatten_append, List.flatten_singleton, hmore])
    rw [List.map_append, signalsIn_append] at hword
    exact ⟨_, hword⟩

end Receiver.Handles

/-! ## Cycles -/

namespace Cycle

variable {c c' : Cycle} {events : List Event}

theorem signalsIn_handled (m : Backend) (batches : List (List Frontend)) :
    signalsIn (handled m batches) = signalsIn (batches.map .wrote) := rfl

/-- The messages of a cycle are answered in the language of its receiver. -/
theorem Runs.signals (h : Runs c events c') :
    signalsIn events ∈ c.receiver.answers.star.matches' := by
  induction h with
  | refl c => exact nil_mem_star _
  | step first rest ih =>
    obtain ⟨held, -, hhandles⟩ := first.handles
    rw [hhandles.answers] at ih
    rw [signalsIn_append, signalsIn_handled]
    exact append_mem_star (hhandles.writes first.nonempty rfl) ih

/-- Those of a cycle that ends early are answered in part, also with the write that was refused. -/
theorem Stops.signals {torn : Option (List Frontend)} (h : Stops c events torn) :
    ∃ rest, signalsIn (events ++ torn.toList.map .wrote) ++ rest ∈
      c.receiver.answers.star.matches' := by
  induction h with
  | unread c => exact ⟨[], nil_mem_star _⟩
  | unmet c m => exact ⟨[], nil_mem_star _⟩
  | partly handles nonempty part =>
    rw [handled, List.cons_append, signalsIn_received, ← List.map_append]
    exact handles.writes_part nonempty part
  | step first rest ih =>
    obtain ⟨held, -, hhandles⟩ := first.handles
    obtain ⟨rest, hrest⟩ := ih
    rw [hhandles.answers] at hrest
    refine ⟨rest, ?_⟩
    rw [List.append_assoc, signalsIn_append, signalsIn_handled, List.append_assoc]
    exact append_mem_star (hhandles.writes first.nonempty rfl) hrest

end Cycle

/-! ## What is said -/

namespace Session

variable {l l' : RegularExpression Signal} {s t u : Session}

/-- What a session has said since an earlier state of it: these events, and the write of a batch
that was refused after them, if there was one, which broke the session. With that batch it would
have been a word of the language, or the beginning of one if the session is broken. -/
structure Said (l : RegularExpression Signal) (events : List Event)
    (torn : Option (List Frontend)) (s s' : Session) : Prop where
  events_eq : s'.events = s.events ++ events
  carried : s.stream.Carried events torn s'.stream
  broken : torn.isSome = true → s'.broken = true
  along : Along l s'.broken (signalsIn (events ++ torn.toList.map .wrote))

/-- All that was sent has a tag of the language, also what was sent in a write that was refused. -/
theorem Said.letters {events : List Event} {torn : Option (List Frontend)}
    (h : Said l events torn s t) {f : Frontend} (hf : f ∈ writtenIn events ++ torn.getD []) :
    .frame f.tag? ∈ PgClient.letters l := by
  refine h.along.letters (frame_mem_signalsIn ?_)
  cases torn with
  | none => simpa using hf
  | some batch => simpa using hf

/-- A session has said something along a language since an earlier state of it. -/
def Speaks (l : RegularExpression Signal) (s s' : Session) : Prop :=
  ∃ events torn, Said l events torn s s'

/-- Nothing is said between two states. -/
structure Silent (s s' : Session) : Prop where
  events : s'.events = s.events
  stream : s'.stream = s.stream
  broken : s'.broken = s.broken

namespace Speaks

/-- What was said without a write that was refused. -/
theorem of_carried {events : List Event} (hevents : t.events = s.events ++ events)
    (hcarried : s.stream.Carried events none t.stream) (h : Along l t.broken (signalsIn events)) :
    Speaks l s t :=
  ⟨events, none, hevents, hcarried, nofun, by simpa using h⟩

theorem of_silent (hempty : [] ∈ l.matches') (h : s.Silent t) : Speaks l s t := by
  have hcarried : s.stream.Carried [] none t.stream := h.stream ▸ .refl _
  exact of_carried (by rw [h.events, List.append_nil]) hcarried (.of_mem _ hempty)

/-- What is said is the same from a state and to a state between which nothing is said. -/
theorem before (h : s.Silent t) (h' : Speaks l t u) : Speaks l s u := by
  obtain ⟨events, torn, hevents, hcarried, hbroken, halong⟩ := h'
  exact ⟨events, torn, by rw [hevents, h.events], h.stream ▸ hcarried, hbroken, halong⟩

theorem after (h : Speaks l s t) (h' : t.Silent u) : Speaks l s u := by
  obtain ⟨events, torn, hevents, hcarried, hbroken, halong⟩ := h
  exact ⟨events, torn, h'.events.trans hevents, h'.stream ▸ hcarried,
    fun htorn => h'.broken.trans (hbroken htorn), h'.broken ▸ halong⟩

theorem mono (hle : ∀ w, w ∈ l.matches' → w ∈ l'.matches') (h : Speaks l s t) : Speaks l' s t := by
  obtain ⟨events, torn, hevents, hcarried, hbroken, halong⟩ := h
  exact ⟨events, torn, hevents, hcarried, hbroken, halong.mono hle⟩

theorem left (h : Speaks l s t) : Speaks (l + l') s t := h.mono fun _ hw => .inl hw

theorem right (h : Speaks l' s t) : Speaks (l + l') s t := h.mono fun _ hw => .inr hw

theorem alone (h : Speaks l s t) (hempty : [] ∈ l'.matches') : Speaks (l * l') s t := by
  obtain ⟨events, torn, hevents, hcarried, hbroken, halong⟩ := h
  exact ⟨events, torn, hevents, hcarried, hbroken, halong.alone hempty⟩

/-- A sound session goes on with another part of its word. -/
theorem append (h : Speaks l s t) (hb : t.broken = false) (h' : Speaks l' t u) :
    Speaks (l * l') s u := by
  obtain ⟨events, torn, hevents, hcarried, hbroken, halong⟩ := h
  obtain ⟨events', torn', hevents', hcarried', hbroken', halong'⟩ := h'
  -- In a sound session no write was refused.
  obtain rfl : torn = none := by
    cases torn with
    | none => rfl
    | some batch =>
      rw [hbroken rfl] at hb
      cases hb
  refine ⟨events ++ events', torn', ?_, hcarried.trans hcarried', hbroken', ?_⟩
  · rw [hevents', hevents, List.append_assoc]
  · rw [hb, Option.toList_none, List.map_nil, List.append_nil] at halong
    rw [List.append_assoc, signalsIn_append]
    exact .append halong halong'

/-- A broken session says nothing more. -/
theorem trans (h : Speaks l s t) (hnext : Speaks l' t u) (hempty : [] ∈ l'.matches')
    (hquiet : t.broken = true → t.Silent u) : Speaks (l * l') s u := by
  cases hb : t.broken with
  | false => exact h.append hb hnext
  | true => exact (h.alone hempty).after (hquiet hb)

/-- One more word after some words of a language. -/
theorem star (h : Speaks l.star s t) (hb : t.broken = false) (h' : Speaks l t u) :
    Speaks l.star s u := (h.append hb h').mono fun _ => mem_star_of_mem_mul

end Speaks

/-! ## Exchanges -/

/-- An exchange says its batch, and then the answers. -/
theorem exchange_speaks {batch : List Frontend} {receiver receiver' : Receiver} {s s' : Session}
    {r : Except Error Unit} {first : RegularExpression Signal} (hbatch : batch ≠ [])
    (hfirst : signalsOf (batch.map Frontend.tag?) ∈ first.matches') (hb : s.broken = false)
    (h : s.exchange batch receiver = (r, receiver', s')) :
    Speaks (first * receiver.answers.star) s s' := by
  unfold exchange at h
  obtain ⟨t, ht, hsent, hs, hsame⟩ | ⟨f, t, ht, hsent, hs, hbroken⟩ := send_cases hbatch s
  -- The batch is taken, and then the cycle answers what the server asks.
  · rw [ht] at h
    have hsound : t.broken = false := hsame.trans hb
    have hfirst : Speaks first s t :=
      .of_carried (events_of_known hsent.known) hsent.carried (.of_mem _ (by simpa using hfirst))
    refine hfirst.append hsound ?_
    obtain ⟨held, events, -, hcompleted⟩ | ⟨e, events, -, haborted⟩ := cycle_cases hs hsound h
    · exact .of_carried (hcompleted.answering hs).2 hcompleted.runs.carried
        (.of_mem _ hcompleted.runs.signals)
    · obtain ⟨torn, hstops, hcarried⟩ := haborted.stops
      refine ⟨events, torn, events_of_known haborted.ran.known, hcarried,
        fun _ => haborted.broken, ?_⟩
      rw [haborted.broken]
      exact hstops.signals
  -- The batch is refused, and would have been the first word.
  · rw [ht] at h
    simp only [Prod.mk.injEq] at h
    obtain ⟨-, -, rfl⟩ := h
    refine ⟨[], some batch, events_of_known hsent.known, hsent.carried, fun _ => hbroken, ?_⟩
    exact (Along.of_mem _ (by simpa using hfirst)).alone (nil_mem_star _)

end Session

end PgClient
