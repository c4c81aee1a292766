/-
  PgClient.Proofs.Auth.Verification

  What a client knows that has accepted a server's last message. Whatever the
  order of the calls on it, and whatever the server has sent, the message holds
  the signature over the exchange with the one first message that the client
  took last.
-/
import Mathlib.Data.List.Induction
import PgClient.Proofs.Auth.Moves

namespace PgClient.Scram

/-! ## What a server must know -/

/-- The first attribute of a letter has this value in a message. -/
def Gives (data : Bytes) (key : Char) (value : String) : Prop :=
  ∃ message, Utf8.encode message = data ∧ attribute? message key = some value

/-- A first message of a server states a challenge that goes on from the client's nonce. -/
structure Challenge.Stated (challenge : Challenge) (clientNonce : String) (first : Bytes) :
    Prop where
  nonce : Gives first 'r' challenge.nonce
  longer : ∃ more, more ≠ "" ∧ challenge.nonce = clientNonce ++ more
  salt : ∃ text, Gives first 's' text ∧ Base64.decode text = some challenge.salt
  iterations : ∃ text, Gives first 'i' text ∧
    Integer.readUInt32 text.toList = .ok challenge.iterations
  positive : 0 < challenge.iterations

namespace Client

/-- What both sides sign: the client's first message, the server's as it came, and the client's
last one without its proof. -/
def signed (c : Client) (first : Bytes) (nonce : String) : Bytes :=
  Utf8.encode c.firstBare ++ Utf8.encode "," ++ first ++ Utf8.encode "," ++
    Utf8.encode ("c=biws,r=" ++ nonce)

/-- The signature of a server that knows the password of a client. -/
def signature (c : Client) (p : Primitives) (first : Bytes) (challenge : Challenge) : Bytes :=
  let salted := p.stretch c.password challenge.salt challenge.iterations
  p.hmac (p.hmac salted (Utf8.encode "Server Key")) (c.signed first challenge.nonce)

end Client

/-! ## Calls and their history -/

/-- A call on a client. -/
inductive Call where
  | clientFirst
  | serverFirst (data : Bytes)
  | serverFinal (data : Bytes)

/-- A call that was made, with what it gave. -/
inductive Event where
  | sent (first : Bytes)
  | answered (data : Bytes) (outcome : Except Fault Bytes)
  | checked (data : Bytes) (outcome : Except Fault Unit)
  deriving DecidableEq

/-- The call gave a fault. -/
def Event.Refused : Event → Prop
  | sent _ => False
  | answered _ outcome => ∃ f, outcome = .error f
  | checked _ outcome => ∃ f, outcome = .error f

/-- Among events that are listed backwards, the last call that gave no fault. -/
def LastAccepted (events : List Event) (e : Event) : Prop :=
  ∃ between before, events = between ++ e :: before ∧ ∀ e' ∈ between, e'.Refused

theorem lastAccepted_cons (e : Event) (events : List Event) : LastAccepted (e :: events) e :=
  ⟨[], events, rfl, nofun⟩

/-- A call that is refused does not change which one was accepted last. -/
theorem LastAccepted.cons {events : List Event} {e e' : Event} (hrefused : e'.Refused)
    (h : LastAccepted events e) : LastAccepted (e' :: events) e := by
  obtain ⟨between, before, rfl, hbetween⟩ := h
  exact ⟨e' :: between, before, rfl, List.forall_mem_cons.2 ⟨hrefused, hbetween⟩⟩

/-- A move of a client that is kept: its new state counts only if the move gives no fault. -/
def Client.keep {α : Type} (move : Client → Except Fault (α × Client)) :
    ExceptT Fault (StateM Client) α := do
  let (a, c) ← MonadExcept.ofExcept (move (← get))
  set c
  return a

/-- A client with the calls that were made on it, the last one first. -/
structure Exchange where
  events : List Event := []
  client : Client

namespace Exchange

variable (p : Primitives)

def call (x : Exchange) : Call → Exchange
  | .clientFirst =>
    let (first, c) := x.client.clientFirst
    ⟨.sent first :: x.events, c⟩
  | .serverFirst data =>
    let (outcome, c) := (Client.keep fun c => c.serverFirst p data).run x.client
    ⟨.answered data outcome :: x.events, c⟩
  | .serverFinal data =>
    let (outcome, c) := (Client.keep fun c => (c.serverFinal data).map ((), ·)).run x.client
    ⟨.checked data outcome :: x.events, c⟩

/-- What a client comes to with calls. -/
def after (c : Client) (calls : List Call) : Exchange :=
  calls.foldl (call p) { client := c }

end Exchange

/-! ## What the moves tell -/

namespace Client

variable {p : Primitives} {c c' : Client} {data reply : Bytes}

/-- The text that is signed is made of the messages as they went over the wire. -/
theorem encode_authMessage (c : Client) (message nonce : String) :
    authMessage c.firstBare message nonce = c.signed (Utf8.encode message) nonce := by
  unfold authMessage signed withoutProof
  simp only [Utf8.encode_append]

/-- A client goes on from a message that states a challenge, and waits for the signature. -/
theorem stated_of_serverFirst (h : c.serverFirst p data = .ok (reply, c')) :
    c.stage = .sentFirst ∧ ∃ challenge, challenge.Stated c.nonce data ∧
      c' = { c with stage := .sentFinal (c.signature p data challenge) } := by
  obtain ⟨hstage, message, challenge, rfl, hread, -, rfl⟩ := serverFirst_eq_ok_iff.1 h
  obtain ⟨as, has, hnonce, ⟨hlead, hlonger⟩, ⟨salt, hsalt, hbytes⟩, count, hcount, hiterations,
    hpositive⟩ := Challenge.read_eq_ok_iff.1 hread
  have gives {key : Char} {value : String} (hlookup : as.lookup key = some value) :
      Gives (Utf8.encode message) key value :=
    ⟨message, rfl, lookup_of_attributes has key ▸ hlookup⟩
  refine ⟨hstage, challenge, ⟨gives hnonce, ?_, ⟨salt, gives hsalt, hbytes⟩,
    ⟨count, gives hcount, hiterations⟩, ?_⟩, ?_⟩
  · obtain ⟨more, hmore⟩ := hlead
    have hnonce : challenge.nonce = c.nonce ++ String.ofList more := by
      rw [← String.toList_inj, String.toList_append, String.toList_ofList, hmore]
    refine ⟨String.ofList more, fun hempty => hlonger ?_, hnonce⟩
    rw [hnonce, hempty, String.append_empty]
  · exact UInt32.pos_iff_ne_zero.2 hpositive
  · rw [encode_authMessage]
    rfl

theorem gives_of_serverFinal (h : c.serverFinal data = .ok c') :
    ∃ expected text, c.stage = .sentFinal expected ∧ Gives data 'v' text ∧
      Base64.decode text = some expected ∧ c' = { c with stage := .finished } := by
  obtain ⟨expected, hstage, message, as, rfl, has, -, ⟨text, htext, hbytes⟩, rfl⟩ :=
    serverFinal_eq_ok_iff.1 h
  exact ⟨expected, text, hstage, ⟨message, rfl, lookup_of_attributes has 'v' ▸ htext⟩, hbytes, rfl⟩

/-- A move that is refused leaves the client as it was. -/
theorem keep_run {α : Type} (move : Client → Except Fault (α × Client)) (c : Client) :
    (keep move).run c = match move c with
      | .ok (a, c') => (.ok a, c')
      | .error f => (.error f, c) := by
  unfold keep
  rw [Steps.run_bind, Steps.run_get]
  dsimp only
  rw [Steps.run_bind, Steps.run_ofExcept]
  cases move c with
  | error f => rfl
  | ok r => rfl

end Client

/-! ## What one call does -/

namespace Exchange

variable {p : Primitives} {c : Client} {x x' : Exchange}

/-- What the exchange comes to with a call: one of the three moves, or nothing. -/
inductive Moves (p : Primitives) (x : Exchange) : Exchange → Prop
  | sent (first : Bytes) :
    Moves p x ⟨.sent first :: x.events, { x.client with stage := .sentFirst }⟩
  | answered {data reply : Bytes} {challenge : Challenge} (stage : x.client.stage = .sentFirst)
    (stated : challenge.Stated x.client.nonce data) :
    Moves p x ⟨.answered data (.ok reply) :: x.events,
      { x.client with stage := .sentFinal (x.client.signature p data challenge) }⟩
  | checked {data expected : Bytes} {text : String} (stage : x.client.stage = .sentFinal expected)
    (gives : Gives data 'v' text) (bytes : Base64.decode text = some expected) :
    Moves p x ⟨.checked data (.ok ()) :: x.events, { x.client with stage := .finished }⟩
  | refused {e : Event} (refused : e.Refused) : Moves p x ⟨e :: x.events, x.client⟩

theorem moves_call (p : Primitives) (x : Exchange) (k : Call) : Moves p x (x.call p k) := by
  cases k with
  | clientFirst => exact .sent _
  | serverFirst data =>
    rw [call, Client.keep_run]
    cases hfirst : x.client.serverFirst p data with
    | error f => exact .refused ⟨f, rfl⟩
    | ok r =>
      obtain ⟨hstage, challenge, hstated, hclient⟩ := Client.stated_of_serverFirst hfirst
      dsimp only
      rw [hclient]
      exact .answered hstage hstated
  | serverFinal data =>
    rw [call, Client.keep_run]
    cases hfinal : x.client.serverFinal data with
    | error f => exact .refused ⟨f, rfl⟩
    | ok c' =>
      obtain ⟨expected, text, hstage, hgives, hbytes, rfl⟩ := Client.gives_of_serverFinal hfinal
      exact .checked hstage hgives hbytes

/-- A call that is refused leaves the client as it was. -/
theorem Moves.client_eq {e : Event} (h : Moves p x x') (hevents : x'.events = e :: x.events)
    (hrefused : e.Refused) : x'.client = x.client := by
  cases h with
  | refused => rfl
  | sent first =>
    obtain rfl := (List.cons.inj hevents).1
    exact hrefused.elim
  | answered =>
    obtain rfl := (List.cons.inj hevents).1
    exact nomatch hrefused
  | checked =>
    obtain rfl := (List.cons.inj hevents).1
    exact nomatch hrefused

/-! ## Exchanges told from their history -/

/-- What must have gone before a call that was accepted: the client's first message before the
server's, and the server's before a signature that is the right one for it. -/
def Founded (p : Primitives) (c : Client) (earlier : List Event) : Event → Prop
  | .answered _ (.ok _) => ∃ first, LastAccepted earlier (.sent first)
  | .checked data (.ok _) => ∃ first reply challenge text,
      LastAccepted earlier (.answered first (.ok reply)) ∧ challenge.Stated c.nonce first ∧
      Gives data 'v' text ∧ Base64.decode text = some (c.signature p first challenge)
  | _ => True

theorem founded_of_refused {earlier : List Event} {e : Event} (h : e.Refused) :
    Founded p c earlier e := by
  cases e with
  | sent first => trivial
  | answered data outcome =>
    obtain ⟨f, rfl⟩ := h
    trivial
  | checked data outcome =>
    obtain ⟨f, rfl⟩ := h
    trivial

/-- What a client remembers of its exchange: the last call that was accepted. -/
def Remembers (p : Primitives) (c : Client) (events : List Event) : Stage → Prop
  | .sentFirst => ∃ first, LastAccepted events (.sent first)
  | .sentFinal expected => ∃ first reply challenge,
      LastAccepted events (.answered first (.ok reply)) ∧ challenge.Stated c.nonce first ∧
      expected = c.signature p first challenge
  | .start | .finished => True

theorem Remembers.cons {events : List Event} {e : Event} {stage : Stage} (hrefused : e.Refused)
    (h : Remembers p c events stage) : Remembers p c (e :: events) stage := by
  cases stage with
  | start => trivial
  | finished => trivial
  | sentFirst =>
    obtain ⟨first, hlast⟩ := h
    exact ⟨first, hlast.cons hrefused⟩
  | sentFinal expected =>
    obtain ⟨first, reply, challenge, hlast, hsignature⟩ := h
    exact ⟨first, reply, challenge, hlast.cons hrefused, hsignature⟩

/-- Every call that was accepted is founded on those before it, and the client remembers. -/
structure Sound (p : Primitives) (c : Client) (x : Exchange) : Prop where
  remembers : ∃ stage, x.client = { c with stage } ∧ Remembers p c x.events stage
  founded : ∀ later e earlier, x.events = later ++ e :: earlier → Founded p c earlier e

/-- One more call keeps an exchange sound if it is founded itself. -/
theorem Sound.cons {e : Event} {stage : Stage} (h : Sound p c x) (hfounded : Founded p c x.events e)
    (hremembers : Remembers p c (e :: x.events) stage) :
    Sound p c ⟨e :: x.events, { c with stage }⟩ := by
  refine ⟨⟨stage, rfl, hremembers⟩, fun later e' earlier hevents => ?_⟩
  cases later with
  | nil =>
    obtain ⟨rfl, rfl⟩ := List.cons.inj hevents
    exact hfounded
  | cons _ later => exact h.founded later e' earlier (List.cons.inj hevents).2

theorem Sound.of_moves (hmoves : Moves p x x') (h : Sound p c x) : Sound p c x' := by
  obtain ⟨events, client⟩ := x
  obtain ⟨stage, rfl, hremembers⟩ := h.remembers
  cases hmoves with
  | sent first => exact h.cons trivial ⟨first, lastAccepted_cons _ _⟩
  | @answered data reply challenge hstage hstated =>
    obtain rfl : stage = .sentFirst := hstage
    exact h.cons hremembers ⟨data, reply, challenge, lastAccepted_cons _ _, hstated, rfl⟩
  | @checked data expected text hstage hgives hbytes =>
    obtain rfl : stage = .sentFinal expected := hstage
    obtain ⟨first, reply, challenge, hlast, hstated, rfl⟩ := hremembers
    exact h.cons ⟨first, reply, challenge, text, hlast, hstated, hgives, hbytes⟩ trivial
  | refused hrefused => exact h.cons (founded_of_refused hrefused) (hremembers.cons hrefused)

theorem sound_after (p : Primitives) (user : String) (password : Bytes) (nonce : String)
    (calls : List Call) :
    Sound p { user, password, nonce } (after p { user, password, nonce } calls) := by
  induction calls using List.reverseRecOn with
  | nil => exact ⟨⟨.start, rfl, trivial⟩, fun later e earlier h => by simp [after] at h⟩
  | append_singleton calls k ih =>
    unfold after at ih ⊢
    rw [List.foldl_append, List.foldl_cons, List.foldl_nil]
    exact ih.of_moves (moves_call p _ k)

/-- Whatever calls are made on a new client and whatever they bring, a server's first message is
taken only right after the client's, a last message only if it has the signature for the first
message that was taken last, and a call that is refused leaves the client as it was. -/
theorem signature_verified (p : Primitives) (user : String) (password : Bytes) (nonce : String)
    (calls : List Call) :
    let c : Client := { user, password, nonce }
    let x := after p c calls
    (∀ later e earlier, x.events = later ++ e :: earlier → Founded p c earlier e) ∧
      ∀ k e, (x.call p k).events = e :: x.events → e.Refused →
        (x.call p k).client = x.client := by
  intro c x
  have hsound : Sound p c x := sound_after p user password nonce calls
  refine ⟨hsound.founded, ?_⟩
  intro k e hevents hrefused
  have hmoves := moves_call p x k
  exact hmoves.client_eq hevents hrefused

/-- With a keyed digest that only counts: a message that does not go on from the nonce, the second
of two good ones and a wrong signature are refused, the last of them without a change of the client,
and the signature for the first is taken. -/
theorem signature_verified_counting :
    let p : Primitives :=
      ⟨id, fun _ message => [UInt8.ofNat message.length], fun password _ _ => password⟩
    let c : Client := { user := "u", password := [1], nonce := "x" }
    let calls := [.clientFirst, .serverFirst (Utf8.encode "r=y,s=,i=1"),
      .serverFirst (Utf8.encode "r=xy,s=,i=1"), .serverFirst (Utf8.encode "r=xyz,s=,i=1"),
      .serverFinal (Utf8.encode "v=Hg=="), .serverFinal (Utf8.encode "v=Hw==")]
    let x := after p c calls
    x.events.take 3 = [.checked (Utf8.encode "v=Hw==") (.ok ()),
      .checked (Utf8.encode "v=Hg==") (.error .signatureMismatch),
      .answered (Utf8.encode "r=xyz,s=,i=1") (.error .outOfOrder)] ∧
      (∀ later e earlier, x.events = later ++ e :: earlier → Founded p c earlier e) ∧
      let y := after p c (calls.take 4)
      let z := y.call p (.serverFinal (Utf8.encode "v=Hg=="))
      z.events = .checked (Utf8.encode "v=Hg==") (.error .signatureMismatch) :: y.events ∧
        z.client = y.client := by
  intro p c calls x
  have hwrong : ((after p c (calls.take 4)).call p (.serverFinal (Utf8.encode "v=Hg=="))).events =
      .checked (Utf8.encode "v=Hg==") (.error .signatureMismatch) ::
        (after p c (calls.take 4)).events := by decide +kernel
  refine ⟨by decide +kernel, (signature_verified p "u" [1] "x" calls).1, hwrong, ?_⟩
  exact (signature_verified p "u" [1] "x" (calls.take 4)).2 _ _ hwrong ⟨_, rfl⟩

end Exchange

end PgClient.Scram
