/-
  PgClient.Proofs.Connection.Opening

  How a connection is opened: by one exchange, whose batch is the startup packet
  and in whose cycle the challenges of the server are answered.
-/
import PgClient.Connection.Lifetime
import PgClient.Proofs.Connection.Parts

namespace PgClient

open ConnectionM Steps

namespace Connection

/-- The handshake of a connection with a source of secrets. -/
def handshake (source : CredentialSource) (config : Config) (options : ConnectOptions) :
    Handshake where
  user := config.user
  source := source
  environment := options.environment
  random := options.random
  primitives := options.primitives

/-- The packet that opens a connection. -/
def startupBatch (config : Config) : List Frontend :=
  [.startup Wire.protocolVersion config.startupParams]

theorem startup_run (hs : Handshake) {c : Connection} (h : c.session.staged = []) :
    (startup hs).run c =
      let out := c.session.exchange (startupBatch c.config) (.startup hs)
      (out.1, { c with session := out.2.2 }) := by
  rw [startup, run_bind, run_get]
  dsimp only
  rw [run_bind, stage_run, h]
  dsimp only
  rw [flush_cycle_run _ (by simp)]
  rfl

/-- A connection with a source of secrets is opened by one exchange, and closed at once if that
fails. -/
theorem connect_run (stream : Stream) {config : Config} {options : ConnectOptions}
    {source : CredentialSource} (hsource :
      options.credentials.resolve config.credentialProvider config = .ok source) :
    connect stream config options =
      let out := (fresh stream config options).session.exchange (startupBatch config)
        (.startup (handshake source config options))
      let c := { fresh stream config options with session := out.2.2 }
      (out.1, if out.1.isOk then c else c.close.2) := by
  have hrun := startup_run (handshake source config options)
    (c := fresh stream config options) rfl
  rw [show startupBatch (fresh stream config options).config = startupBatch config from rfl,
    handshake] at hrun
  rw [connect, hsource]
  dsimp only
  rw [hrun, handshake]
  dsimp only
  split
  · rename_i hout
    obtain ⟨hok, rfl⟩ := Prod.mk.inj hout
    rw [hok]
    rfl
  · rename_i hout
    obtain ⟨herror, rfl⟩ := Prod.mk.inj hout
    rw [herror]
    rfl

/-- A connection that is opened has gone through the exchange of its startup without an error. -/
theorem connect_ok {stream : Stream} {config : Config} {options : ConnectOptions}
    {c : Connection} (h : connect stream config options = (.ok (), c)) :
    ∃ source receiver s,
      options.credentials.resolve config.credentialProvider config = .ok source ∧
        (fresh stream config options).session.exchange (startupBatch config)
          (.startup (handshake source config options)) = (.ok (), receiver, s) ∧
        c = { fresh stream config options with session := s } := by
  cases hsource : options.credentials.resolve config.credentialProvider config with
  | error e =>
    rw [connect, hsource] at h
    obtain ⟨hr, -⟩ := Prod.mk.inj h
    cases hr
  | ok source =>
    rw [connect_run stream hsource] at h
    rcases hout : (fresh stream config options).session.exchange (startupBatch config)
      (.startup (handshake source config options)) with ⟨r, receiver, s⟩
    rw [hout] at h
    obtain ⟨rfl, rfl⟩ := Prod.mk.inj h
    exact ⟨source, receiver, s, rfl, hout, rfl⟩

/-- The exchange of the startup has come to its end, and nothing beside the session has changed
since the connection was fresh. -/
theorem opened_of_connect {stream : Stream} {config : Config} {options : ConnectOptions}
    {c : Connection} (h : connect stream config options = (.ok (), c)) :
    ∃ events s, c = { fresh stream config options with session := s } ∧ s.broken = false ∧
      (fresh stream config options).session.Exchanged (startupBatch config) events s := by
  obtain ⟨source, receiver, s, -, hexchange, rfl⟩ := connect_ok h
  obtain ⟨body, status, hsound, hexchanged, -⟩ := Session.exchange_ok
    (List.cons_ne_nil _ _) rfl rfl hexchange
  exact ⟨_, s, rfl, hsound, hexchanged⟩

theorem settled_of_connect {stream : Stream} {config : Config} {options : ConnectOptions}
    {c : Connection} (h : connect stream config options = (.ok (), c)) : c.session.Settled := by
  obtain ⟨events, s, rfl, -, hexchanged⟩ := opened_of_connect h
  exact hexchanged.settled

/-- What a server sends that lets everybody in: AuthenticationOk and ReadyForQuery. -/
def greeting : Bytes := [0x52, 0, 0, 0, 8, 0, 0, 0, 0, 0x5A, 0, 0, 0, 5, 0x49]

/-- A connection to a server that lets everybody in and then sends some bytes. -/
def greeted (bytes : Bytes) : Except Error Unit × Connection :=
  connect { incoming := ⟨greeting ++ bytes, .closed⟩ } { password := some "secret" } {}

theorem greeted_nil : (greeted []).1 = .ok () := by decide +kernel

end Connection

end PgClient
