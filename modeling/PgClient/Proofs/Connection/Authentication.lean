/-
  PgClient.Proofs.Connection.Authentication

  What the startup proves. Every request of the server that is answered is one
  that the handshake could answer, so that a last SASL message was accepted
  wherever one was sent. But the end of the startup asks for neither an
  AuthenticationOk nor the end of a SASL exchange that was begun.
-/
import PgClient.Proofs.Connection.Opening

namespace PgClient

open ConnectionM Steps

/-! ## Requests -/

/-- The request that a message makes, if it is one for authentication. -/
def Backend.request? : Backend → Option AuthRequest
  | .authentication request => some request
  | _ => none

/-- The requests for authentication among some messages, in order. -/
def requested (messages : List Backend) : List AuthRequest :=
  messages.filterMap Backend.request?

theorem requested_append (messages messages' : List Backend) :
    requested (messages ++ messages') = requested messages ++ requested messages' :=
  List.filterMap_append

theorem mem_requested {request : AuthRequest} {messages : List Backend} :
    request ∈ requested messages ↔ .authentication request ∈ messages := by
  constructor
  · intro h
    obtain ⟨m, hm, hrequest⟩ := List.mem_filterMap.1 h
    cases m with
    | authentication request' =>
      cases hrequest
      exact hm
    | _ => cases hrequest
  · intro h
    exact List.mem_filterMap.2 ⟨_, h, rfl⟩

/-! ## Handshakes -/

namespace Handshake

/-- A handshake goes through some requests, each of which it can answer. -/
inductive Answers : Handshake → List AuthRequest → Handshake → Prop
  | nil (h : Handshake) : Answers h [] h
  | cons {h h₁ h₂ : Handshake} {request : AuthRequest} {reply : Option Frontend}
    {requests : List AuthRequest} (first : h.Replies request reply h₁)
    (rest : Answers h₁ requests h₂) : Answers h (request :: requests) h₂

/-- A handshake that can answer some requests can answer each when it comes. -/
theorem Answers.split {h h' : Handshake} {before after : List AuthRequest}
    {request : AuthRequest} (hall : h.Answers (before ++ request :: after) h') :
    ∃ h₁ reply h₂, h.Answers before h₁ ∧ h₁.Replies request reply h₂ ∧ h₂.Answers after h' := by
  induction before generalizing h with
  | nil =>
    cases hall with
    | cons first rest => exact ⟨h, _, _, .nil h, first, rest⟩
  | cons request' before ih =>
    cases hall with
    | cons first rest =>
      obtain ⟨h₁, reply, h₂, hbefore, hrequest, hafter⟩ := ih rest
      exact ⟨h₁, reply, h₂, .cons first hbefore, hrequest, hafter⟩

/-- Among some requests there is a last SASL message that the client of that moment accepts. -/
def Accepts (h : Handshake) (requests : List AuthRequest) : Prop :=
  ∃ before data after h₁ client client', requests = before ++ .saslFinal data :: after ∧
    h.Answers before h₁ ∧ h₁.sasl = some client ∧ client.serverFinal data = .ok client'

/-- Some messages authenticate both sides: an AuthenticationOk is among them and, where SASL was
asked for, a last SASL message was accepted before it. -/
def Authenticates (h : Handshake) (messages : List Backend) : Prop :=
  ∃ before after, messages = before ++ .authentication .ok :: after ∧
    ((∃ offered, .authentication (.sasl offered) ∈ messages) → h.Accepts (requested before))

/-- What answers all requests has accepted every last SASL message among them. -/
theorem Answers.accepts {h h' : Handshake} {requests later : List AuthRequest} {data : Bytes}
    (hall : h.Answers (requests ++ later) h') (hfinal : .saslFinal data ∈ requests) :
    h.Accepts requests := by
  obtain ⟨before, after, rfl⟩ := List.append_of_mem hfinal
  rw [List.append_assoc, List.cons_append] at hall
  obtain ⟨h₁, reply, h₂, hbefore, hrequest, -⟩ := hall.split
  cases hrequest with
  | saslFinal started accepted =>
    exact ⟨before, data, after, h₁, _, _, rfl, hbefore, started, accepted⟩

end Handshake

/-! ## Startups -/

/-- Only a request moves the receiver of a startup. -/
theorem Receiver.next_startup (s : Session) (h : Handshake) (m : Backend) :
    (startup h).next s m = startup h := by
  cases m <;> rfl

/-- A startup goes on only while its handshake can answer. -/
theorem Cycle.Runs.answers {c c' : Cycle} {events : List Event} {h : Handshake}
    (hruns : Runs c events c') (hreceiver : c.receiver = .startup h) :
    ∃ h', c'.receiver = .startup h' ∧ h.Answers (requested (receivedIn events)) h' := by
  induction hruns generalizing h with
  | refl c => exact ⟨h, hreceiver, .nil h⟩
  | @step c c₁ c₂ m batches events first rest ih =>
    rw [receivedIn_append, receivedIn_handled, requested_append]
    obtain ⟨held, -, hhandles⟩ := first.handles
    rw [hreceiver] at hhandles
    generalize hafter : c₁.receiver = after at hhandles
    generalize batches.flatten = answer at hhandles
    cases hhandles with
    | challenge startup replied =>
      cases startup
      obtain ⟨h', hlast, hanswers⟩ := ih hafter
      exact ⟨h', hlast, .cons replied hanswers⟩
    -- A message that is no request leaves the handshake alone.
    | message unasked =>
      rw [Receiver.next_startup] at hafter
      obtain ⟨h', hlast, hanswers⟩ := ih hafter
      have hnone : requested [m] = [] := by
        cases m with
        | authentication request => exact absurd rfl (unasked request)
        | _ => rfl
      rw [hnone]
      exact ⟨h', hlast, hanswers⟩

namespace Connection

variable {c : Connection}

/-- A connection that is opened has received messages that its handshake could answer, and after
them the first ReadyForQuery. -/
theorem answers_of_connect {stream : Stream} {config : Config} {options : ConnectOptions}
    (h : connect stream config options = (.ok (), c)) :
    ∃ source messages status h',
      options.credentials.resolve config.credentialProvider config = .ok source ∧
        c.session.received = messages ++ [.readyForQuery status] ∧
        (∀ m ∈ messages, m.isReady = false) ∧
        (handshake source config options).Answers (requested messages) h' := by
  obtain ⟨source, receiver, s, hsource, hexchange, rfl⟩ := connect_ok h
  obtain ⟨held, events, t, -, -, hcompleted, hexchanged⟩ | ⟨e, events, hr, -⟩ :=
    Session.exchange_cases (List.cons_ne_nil _ _) rfl rfl hexchange
  · obtain ⟨body, status, rfl, hbody⟩ := hcompleted.ready
    obtain ⟨h', -, hanswers⟩ := hcompleted.runs.answers rfl
    have hreceived : s.received = receivedIn body ++ [.readyForQuery status] := by
      rw [Session.received_eq, hexchanged.events_eq, receivedIn_append, receivedIn_wrote,
        receivedIn_append]
      rfl
    rw [receivedIn_append, requested_append] at hanswers
    exact ⟨source, receivedIn body, status, h', hsource, hreceived, hbody,
      (List.append_nil (requested (receivedIn body))) ▸ hanswers⟩
  · cases hr

/-- The startup of an opened connection has authenticated both sides exactly if the server has
sent an AuthenticationOk and, where it asked for SASL, a last SASL message before that: whatever
is sent is checked, and that it is sent is not. -/
theorem authenticates_iff {stream : Stream} {config : Config} {options : ConnectOptions}
    (h : connect stream config options = (.ok (), c)) :
    ∃ source messages status,
      options.credentials.resolve config.credentialProvider config = .ok source ∧
        c.session.received = messages ++ [.readyForQuery status] ∧
        (∀ m ∈ messages, m.isReady = false) ∧
        ((handshake source config options).Authenticates messages ↔
          ∃ before after, messages = before ++ .authentication .ok :: after ∧
            ((∃ offered, .authentication (.sasl offered) ∈ messages) →
              ∃ data, .authentication (.saslFinal data) ∈ before)) := by
  obtain ⟨source, messages, status, h', hsource, hreceived, hunready, hanswers⟩ :=
    answers_of_connect h
  refine ⟨source, messages, status, hsource, hreceived, hunready, ?_, ?_⟩
  · rintro ⟨before, after, hmessages, haccepts⟩
    refine ⟨before, after, hmessages, fun hsasl => ?_⟩
    obtain ⟨past, data, future, -, -, -, hrequests, -⟩ := haccepts hsasl
    refine ⟨data, mem_requested.1 ?_⟩
    rw [hrequests]
    exact List.mem_append_right _ List.mem_cons_self
  · rintro ⟨before, after, hmessages, hfinal⟩
    refine ⟨before, after, hmessages, fun hsasl => ?_⟩
    obtain ⟨data, hdata⟩ := hfinal hsasl
    rw [hmessages, requested_append] at hanswers
    exact hanswers.accepts (mem_requested.2 hdata)

/-- The messages of a SASL exchange with a client whose keyed digest only counts. -/
def provenMessages : List Backend :=
  [.authentication (.sasl [Scram.mechanism]),
    .authentication (.saslContinue (Utf8.encode "r=y,s=,i=1")),
    .authentication (.saslFinal (Utf8.encode "v=Ig=="))]

/-- The options of that client. -/
def countingOptions : ConnectOptions where
  primitives := ⟨id, fun _ message => [UInt8.ofNat message.length], fun password _ _ => password⟩

/-- A connection of that client to a server that sends them before it lets everybody in. -/
def proven : Except Error Unit × Connection :=
  connect
    { incoming :=
        ⟨[0x52, 0, 0, 0, 23, 0, 0, 0, 10, 0x53, 0x43, 0x52, 0x41, 0x4D, 0x2D, 0x53, 0x48, 0x41,
            0x2D, 0x32, 0x35, 0x36, 0, 0] ++
          [0x52, 0, 0, 0, 18, 0, 0, 0, 11] ++ Utf8.encode "r=y,s=,i=1" ++
          [0x52, 0, 0, 0, 14, 0, 0, 0, 12] ++ Utf8.encode "v=Ig==" ++ greeting, .closed⟩ }
    { password := some "secret" } countingOptions

/-- The case of a server that asks for SASL and proves that it knows the password: it has sent its
last message before the AuthenticationOk, so that the startup has authenticated both sides. -/
theorem authenticates_iff_proven :
    proven.1 = .ok () ∧
      ∃ source messages status,
        CredentialRegistry.builtins.resolve "password" { password := some "secret" } =
            .ok source ∧
          proven.2.session.received = messages ++ [.readyForQuery status] ∧
          (∀ m ∈ messages, m.isReady = false) ∧
          messages = provenMessages ++ [.authentication .ok] ∧
          (handshake source { password := some "secret" } countingOptions).Authenticates
            messages := by
  have hok : proven.1 = .ok () := by decide +kernel
  have hall : proven.2.session.received =
      provenMessages ++ [.authentication .ok] ++ [.readyForQuery .idle] := by decide +kernel
  obtain ⟨source, messages, status, hsource, hreceived, hunready, hiff⟩ :=
    authenticates_iff (Prod.ext hok rfl)
  obtain ⟨rfl, -⟩ := List.append_inj' (hreceived.symm.trans hall) rfl
  refine ⟨hok, source, _, status, hsource, hreceived, hunready, rfl, hiff.2 ?_⟩
  refine ⟨provenMessages, [], rfl, fun _ => ⟨Utf8.encode "v=Ig==", ?_⟩⟩
  exact List.mem_cons_of_mem _ (List.mem_cons_of_mem _ List.mem_cons_self)

/-- What a server sends that asks for SASL and does not go on with it. -/
def unproven : Bytes :=
  [0x52, 0, 0, 0, 23, 0, 0, 0, 10, 0x53, 0x43, 0x52, 0x41, 0x4D, 0x2D, 0x53, 0x48, 0x41, 0x2D,
    0x32, 0x35, 0x36, 0, 0] ++ greeting

/-- A server that begins a SASL exchange and drops it is not refused. -/
theorem connect_unproven :
    ∃ c messages, connect { incoming := ⟨unproven, .closed⟩ } { password := some "secret" } {} =
        (.ok (), c) ∧
      c.session.received = messages ++ [.readyForQuery .idle] ∧
      ∀ h : Handshake, ¬ h.Authenticates messages := by
  refine ⟨(connect { incoming := ⟨unproven, .closed⟩ } { password := some "secret" } {}).2,
    [.authentication (.sasl [Scram.mechanism]), .authentication .ok], Prod.ext ?_ rfl, ?_, ?_⟩
  · decide +kernel
  · decide +kernel
  · rintro h ⟨before, after, hmessages, haccepts⟩
    obtain ⟨past, data, future, -, -, -, hrequests, -⟩ :=
      haccepts ⟨[Scram.mechanism], List.mem_cons_self⟩
    -- Had the exchange been finished, its last message would be among the two.
    have hfinal : .authentication (.saslFinal data) ∈ before := by
      refine mem_requested.1 ?_
      rw [hrequests]
      exact List.mem_append_right _ List.mem_cons_self
    have hmem : Backend.authentication (.saslFinal data) ∈
        [.authentication (.sasl [Scram.mechanism]), .authentication .ok] := by
      rw [hmessages]
      exact List.mem_append_left _ hfinal
    simp only [List.mem_cons, List.not_mem_nil, or_false, Backend.authentication.injEq] at hmem
    rcases hmem with hmem | hmem <;> cases hmem

end Connection

end PgClient
