/-
  PgClient.Proofs.Connection.Mistakes

  Calls that cannot be made as they stand. Placeholders and arguments are looked
  at before anything is done. Types and encodings are looked at after the implicit
  BEGIN, so that a mistake in them leaves a transaction open where one was due;
  only where none was due is nothing sent.
-/
import PgClient.Proofs.Connection.BindSafety

namespace PgClient

open ConnectionM Steps

namespace ConnectionM

open Connection

/-! ## Mistakes -/

/-- Why a statement and its arguments do not make a call, whatever their types. -/
inductive Malformed (sql : String) (args : Placeholder.Arguments) (c : Connection) : Error → Prop
  | placeholders {f : Placeholder.Fault}
    (converted : Placeholder.convert c.config.style sql = .error f) :
    Malformed sql args c (.placeholder f)
  | arguments {f : Placeholder.Fault} {text : String} {order : Placeholder.Order}
    (converted : Placeholder.convert c.config.style sql = .ok (text, order))
    (arranged : order.arrange args = .error f) : Malformed sql args c (.placeholder f)
  | many {text : String} {order : Placeholder.Order} {values : List Value}
    (converted : Placeholder.convert c.config.style sql = .ok (text, order))
    (arranged : order.arrange args = .ok values)
    (exceeds : Error.maxParameters < values.length) :
    Malformed sql args c (.tooManyParameters values.length)

/-- Why a call cannot be put into bytes: a value has no encoder or does not suit its own, or the
text of a statement that is not cached has a character outside the client encoding. -/
inductive Unsendable (k : Call) (c : Connection) : Error → Prop
  | unmapped {e : Error} (inspected : k.values.mapM c.codec.inspect = .error e) : Unsendable k c e
  | unencoded {encoders : List ParamEncoder} {e : Error}
    (inspected : k.values.mapM c.codec.inspect = .ok encoders)
    (encoded : (k.values.zip encoders).mapM (encodeParam c.session.context) = .error e) :
    Unsendable k c e
  | text {encoders : List ParamEncoder} {params : List (Option Bytes)} {e : Error}
    (inspected : k.values.mapM c.codec.inspect = .ok encoders)
    (encoded : (k.values.zip encoders).mapM (encodeParam c.session.context) = .ok params)
    (missing : c.cache.capacity ≠ 0 → c.cache.peek? (.of k.sql encoders) = none)
    (encoding : c.session.context.encodeText k.sql = .error e) : Unsendable k c e

/-- The connection on which a call is put into bytes: the one after the implicit BEGIN, where one
is due. -/
def Opened (implicitBegin : Bool) (c d : Connection) : Prop :=
  if implicitBegin = true ∧ c.session.status = .idle then beginTransaction.run c = (.ok (), d)
  else d = c

/-! ## Before anything is done -/

variable {sql : String} {args : Placeholder.Arguments} {c d : Connection} {k : Call} {e : Error}

/-- The look at a call on a connection that is fit for use. -/
theorem call_run (h : (c.session.broken || c.terminated) = false) :
    (call sql args).run c =
      (match Placeholder.convert c.config.style sql with
        | .error f => .error (.placeholder f)
        | .ok (text, order) =>
          match order.arrange args with
          | .error f => .error (.placeholder f)
          | .ok values =>
            if Error.maxParameters < values.length then .error (.tooManyParameters values.length)
            else .ok ⟨text, values⟩, c) := by
  rw [call, run_bind, run_get]
  dsimp only
  rw [if_neg (Bool.eq_false_iff.1 h), run_bind, run_ofExcept]
  rcases Placeholder.convert c.config.style sql with f | ⟨text, order⟩
  · rfl
  · dsimp only [Bind.bind, Except.bind]
    rcases order.arrange args with f | values
    · rfl
    · dsimp only [pure, Except.pure]
      rw [mapError_ok]
      dsimp only
      by_cases exceeds : Error.maxParameters < values.length
      · rw [if_pos exceeds, if_pos exceeds]
        rfl
      · rw [if_neg exceeds, if_neg exceeds]
        rfl

/-- A call passes when its placeholders and its arguments are sound and can be counted. -/
theorem call_eq_ok_iff (h : (c.session.broken || c.terminated) = false) :
    ((call sql args).run c).1 = .ok k ↔
      ∃ order, Placeholder.convert c.config.style sql = .ok (k.sql, order) ∧
        order.arrange args = .ok k.values ∧ k.values.length ≤ Error.maxParameters := by
  rw [call_run h]
  rcases hconvert : Placeholder.convert c.config.style sql with f | ⟨text, order⟩
  · exact ⟨nofun, fun ⟨_, hother, _⟩ => nomatch hother⟩
  dsimp only
  cases harrange : order.arrange args with
  | error f =>
    refine ⟨nofun, fun ⟨order', hother, harranged, _⟩ => ?_⟩
    cases hother
    rw [harrange] at harranged
    cases harranged
  | ok values =>
    dsimp only
    by_cases exceeds : Error.maxParameters < values.length
    · rw [if_pos exceeds]
      refine ⟨nofun, fun ⟨order', hother, harranged, hcount⟩ => ?_⟩
      cases hother
      cases harrange.symm.trans harranged
      exact absurd exceeds (Nat.not_lt.2 hcount)
    · rw [if_neg exceeds]
      constructor
      · intro hcall
        cases hcall
        exact ⟨order, rfl, harrange, Nat.not_lt.1 exceeds⟩
      · rintro ⟨order', hother, harranged, -⟩
        cases hother
        cases harrange.symm.trans harranged
        rfl

/-- A malformed call fails when it is looked at. -/
theorem Malformed.call (h : Malformed sql args c e)
    (hopen : (c.session.broken || c.terminated) = false) :
    (ConnectionM.call sql args).run c = (.error e, c) := by
  rw [call_run hopen]
  cases h with
  | placeholders converted => rw [converted]
  | arguments converted arranged => simp only [converted, arranged]
  | many converted arranged exceeds => simp only [converted, arranged, if_pos exceeds]

/-! ## Before the call is sent -/

/-- A call that cannot be put into bytes changes nothing but the number of the next statement. -/
theorem Unsendable.bind (h : Unsendable k c e) (hs : c.session.staged = []) :
    ∃ n, (ConnectionM.bind k).run c = (.error e, { c with sequence := n }) := by
  rw [bindCall_run]
  cases h with
  | unmapped inspected =>
    rw [inspected]
    exact ⟨c.sequence, rfl⟩
  | unencoded inspected encoded =>
    simp only [inspected, encoded]
    exact ⟨c.sequence, rfl⟩
  | @text encoders params e inspected encoded missing encoding =>
    simp only [inspected, encoded]
    have hprepare : (prepare c.cache.isEnabled k.sql encoders).run c =
        (.error e, { c with sequence := c.sequence + 1 }) := by
      rw [prepare_run _ _ _ _ hs, encoding]
    rcases hobtain : (obtain (.of k.sql encoders) encoders).run c with ⟨r, d⟩
    obtain ⟨statement, enabled, found, -⟩ |
      ⟨-, ⟨e', rfl, hprepare'⟩ | ⟨statement, d', -, hprepare', -⟩⟩ := obtain_split hobtain
    · rw [missing enabled] at found
      cases found
    · obtain ⟨he, rfl⟩ := Prod.mk.inj (hprepare.symm.trans hprepare')
      cases he
      exact ⟨c.sequence + 1, rfl⟩
    · cases (Prod.mk.inj (hprepare.symm.trans hprepare')).1

theorem Unsendable.perform (h : Unsendable k c e) (hs : c.session.staged = [])
    (copy : CopyStreams) :
    ∃ n, ConnectionM.perform k copy c = ((.error e, copy), { c with sequence := n }) := by
  obtain ⟨n, hbind⟩ := h.bind hs
  exact ⟨n, perform_error copy hbind⟩

/-! ## The implicit BEGIN -/

/-- An execution that succeeds has written something. -/
theorem Performed.wrote {copy copy' : CopyStreams} {value : Statement × Outcome}
    (hs : c.session.Settled) (hb : c.session.broken = false)
    (h : Performed k copy c (.ok value, copy') d) :
    c.session.written.length < d.session.written.length := by
  generalize hr : (Except.ok value : Except Error (Statement × Outcome)) = result at h
  cases h with
  | rejected rejected => cases hr
  | refused readied sent obtaining => cases hr
  | @executed encoders params statement d₀ c₁ c₂ r r₁ r₂ receiver s t readied sent cycled released
      invalidated obtaining =>
    obtain ⟨before, -, hbefore⟩ := readied.obtained.bindless hs hb
    obtain ⟨hsent, -, -, ht, body, -, hbody⟩ := readied.obtained.cycled hb sent cycled
    obtain ⟨rest, -, hrest⟩ := bindless_after ht released invalidated
    have hbatch := List.length_pos_of_ne_nil (executeBatch_ne_nil statement params d₀)
    rw [Session.written_eq, Session.written_eq, hrest, hbody, hsent, hbefore]
    simp only [writtenIn_append, writtenIn_wrote, writtenIn_nil, List.append_nil,
      List.length_append]
    omega

/-- An implicit BEGIN is sent, and leaves the connection fit for the call. -/
theorem beginTransaction_wrote (hc : c.Usable) (h : beginTransaction.run c = (.ok (), d)) :
    c.session.written.length < d.session.written.length ∧ d.Usable ∧ Kept c d := by
  rw [beginTransaction_run] at h
  rcases hcall : ((ConnectionM.call "BEGIN TRANSACTION" .none).run c).1 with e | opening
  · rw [hcall] at h
    cases (Prod.mk.inj h).1
  rw [hcall] at h
  obtain ⟨hr, rfl⟩ := Prod.mk.inj h
  generalize hx : ({ before := c, call := opening } : Execution) = x
  have hbefore : x.before = c := by rw [← hx]
  have husable : x.before.Usable := hbefore ▸ hc
  have hafter : (ConnectionM.perform opening {} c).2 = x.after := by rw [← hx]; rfl
  have hresult : x.result = (ConnectionM.perform opening {} c).1.1 := by rw [← hx]; rfl
  cases hvalue : (ConnectionM.perform opening {} c).1.1 with
  | error e =>
    rw [hvalue] at hr
    cases hr
  | ok value =>
    have hok : x.result = .ok value := hresult.trans hvalue
    have hperformed := x.performed husable
    rw [show (ConnectionM.perform x.call x.copy x.before).1 = (.ok value, _) from
      Prod.ext hok rfl] at hperformed
    have hwrote := hperformed.wrote husable.settled husable.sound
    have hkept := (x.moves husable).kept
    rw [hbefore] at hwrote hkept
    rw [hafter]
    exact ⟨hwrote, x.usable_after husable hok, hkept⟩

end ConnectionM

namespace Connection

variable {c : Connection}

/-- On a connection that is fit for use, a malformed call changes nothing. A call that cannot be
put into bytes fails after the implicit BEGIN, if one is due, and changes nothing more than the
number of the next statement. So it has written nothing, and left the transaction status and the
cache as they were, just where no BEGIN was due. -/
theorem mistake_silent_iff (hc : c.Usable) (sql : String) (args : Placeholder.Arguments)
    (copy : CopyStreams) (implicitBegin : Bool) :
    (∀ e, Malformed sql args c e →
        execute sql args copy implicitBegin c = ((.error e, copy), c)) ∧
      ∀ k d e, (call sql args).run c = (.ok k, c) → Opened implicitBegin c d → Unsendable k d e →
        ∃ n, execute sql args copy implicitBegin c =
            ((.error e, copy), { d with sequence := n }) ∧
          (d.session.written = c.session.written ∧ d.session.status = c.session.status ∧
              d.cache = c.cache ↔ ¬ (implicitBegin = true ∧ c.session.status = .idle)) := by
  have hopen : (c.session.broken || c.terminated) = false := by
    rw [hc.sound, hc.opened]
    rfl
  have hdue : (implicitBegin && c.session.status = .idle) = true ↔
      implicitBegin = true ∧ c.session.status = .idle := by
    rw [Bool.and_eq_true, decide_eq_true_iff]
  constructor
  · intro e hmalformed
    rw [execute_run, hmalformed.call hopen]
  · intro k d e hcall hopened hunsendable
    rw [execute_run, hcall]
    unfold Opened at hopened
    by_cases due : implicitBegin = true ∧ c.session.status = .idle
    · rw [if_pos due] at hopened
      obtain ⟨hwrote, hd, -⟩ := beginTransaction_wrote hc hopened
      obtain ⟨n, hperform⟩ := hunsendable.perform hd.settled.staged copy
      refine ⟨n, ?_, iff_of_false ?_ (not_not_intro due)⟩
      · dsimp only
        rw [if_pos (hdue.2 due), hopened]
        exact hperform
      -- The BEGIN itself was written.
      · rintro ⟨hsame, -⟩
        rw [hsame] at hwrote
        exact Nat.lt_irrefl _ hwrote
    · rw [if_neg due] at hopened
      obtain rfl := hopened
      obtain ⟨n, hperform⟩ := hunsendable.perform hc.settled.staged copy
      refine ⟨n, ?_, iff_of_true ⟨rfl, rfl, rfl⟩ due⟩
      dsimp only
      rw [if_neg (mt hdue.1 due)]
      exact hperform

/-- What a server sends that describes one statement as one without rows, and whose transaction is
open when it was executed. -/
def begun : Bytes := [0x6E, 0, 0, 0, 4, 0x5A, 0, 0, 0, 5, 0x49, 0x5A, 0, 0, 0, 5, 0x54]

theorem usable_of_connect {stream : Stream} {config : Config} {options : ConnectOptions}
    (h : connect stream config options = (.ok (), c)) : c.Usable := by
  obtain ⟨events, s, rfl, hsound, hexchanged⟩ := opened_of_connect h
  exact ⟨hexchanged.settled, hsound, rfl⟩

/-- The case of a server that answers a BEGIN, and of a value of a kind that no encoder is for:
the call fails, and something was written. -/
theorem mistake_silent_iff_begun :
    ∃ d n, (greeted begun).2.Usable ∧
      (call "SELECT %s" (.positional [.array [.bool true]])).run (greeted begun).2 =
        (.ok ⟨"SELECT $1", [.array [.bool true]]⟩, (greeted begun).2) ∧
      Opened true (greeted begun).2 d ∧
      Unsendable ⟨"SELECT $1", [.array [.bool true]]⟩ d (.notMapped .array) ∧
      execute "SELECT %s" (.positional [.array [.bool true]]) {} true (greeted begun).2 =
        ((.error (.notMapped .array), {}), { d with sequence := n }) ∧
      ¬ (d.session.written = (greeted begun).2.session.written ∧
        d.session.status = (greeted begun).2.session.status ∧
        d.cache = (greeted begun).2.cache) := by
  have hgreeted : (greeted begun).1 = .ok () := by decide +kernel
  have hbegun : (beginTransaction.run (greeted begun).2).1 = .ok () := by decide +kernel
  have hidle : (greeted begun).2.session.status = .idle := by decide +kernel
  have hconvert : Placeholder.convert .format "SELECT %s" = .ok ("SELECT $1", .positional) := by
    decide +kernel
  have hconnect : connect { incoming := ⟨greeting ++ begun, .closed⟩ } { password := some "secret" }
      {} = (.ok (), (greeted begun).2) := Prod.ext hgreeted rfl
  obtain ⟨events, s, hfresh, -, -⟩ := opened_of_connect hconnect
  have husable := usable_of_connect hconnect
  have hopen : ((greeted begun).2.session.broken || (greeted begun).2.terminated) = false := by
    rw [husable.sound, husable.opened]
    rfl
  have hopened : Opened true (greeted begun).2 (beginTransaction.run (greeted begun).2).2 := by
    rw [Opened, if_pos ⟨rfl, hidle⟩]
    exact Prod.ext hbegun rfl
  have hcall : (call "SELECT %s" (.positional [.array [.bool true]])).run (greeted begun).2 =
      (.ok ⟨"SELECT $1", [.array [.bool true]]⟩, (greeted begun).2) := by
    rw [call_run hopen, congrArg (fun c : Connection => c.config.style) hfresh]
    dsimp only [fresh]
    rw [hconvert]
    rfl
  have hunsendable : Unsendable ⟨"SELECT $1", [.array [.bool true]]⟩
      (beginTransaction.run (greeted begun).2).2 (.notMapped .array) := by
    have hkept := (beginTransaction_wrote husable (Prod.ext hbegun rfl)).2.2
    refine .unmapped ?_
    rw [congrArg Connection.codec hkept.rest]
    dsimp only
    rw [congrArg Connection.codec hfresh]
    rfl
  obtain ⟨n, hexecute, hsilent⟩ := (mistake_silent_iff husable "SELECT %s"
    (.positional [.array [.bool true]]) {} true).2 _ _ _ hcall hopened hunsendable
  exact ⟨_, n, husable, hcall, hopened, hunsendable, hexecute,
    mt hsilent.1 (not_not_intro ⟨rfl, hidle⟩)⟩

/-- A statement with such a value is refused after a transaction was opened for it. -/
theorem opened_for_mistake :
    (greeted begun).1 = .ok () ∧
      ((greeted begun).2.query "SELECT %s" (.positional [.array [.bool true]])).1 =
        .error (.notMapped .array) ∧
      ((greeted begun).2.query "SELECT %s" (.positional [.array [.bool true]])).2.session.status =
        .inTransaction ∧
      (greeted begun).2.session.status = .idle ∧
      ((greeted begun).2.query "SELECT %s"
          (.positional [.array [.bool true]])).2.session.written.length =
        (greeted begun).2.session.written.length + 6 ∧
      cachedNames
          ((greeted begun).2.query "SELECT %s" (.positional [.array [.bool true]])).2.cache =
        [Statement.nameOf "" 1] ∧
      cachedNames (greeted begun).2.cache = [] := by
  have hresult : ((greeted begun).2.query "SELECT %s"
      (.positional [.array [.bool true]])).1.map (fun _ => ()) = .error (.notMapped .array) := by
    decide +kernel
  refine ⟨by decide +kernel, ?_, by decide +kernel, by decide +kernel, by decide +kernel,
    by decide +kernel, by decide +kernel⟩
  cases hquery : ((greeted begun).2.query "SELECT %s" (.positional [.array [.bool true]])).1 with
  | error e =>
    rw [hquery] at hresult
    cases hresult
    rfl
  | ok rows =>
    rw [hquery] at hresult
    cases hresult

end Connection

end PgClient
