/-
  PgClient.Proofs.Auth.Agreement

  A client and a server that know the same password agree. Whatever the name, the
  password, the salt and the nonces are, each side reads what the other has
  written, both sign the same text, and the exchange comes to its end.
-/
import PgClient.Proofs.Auth.Moves
import PgClient.Proofs.Auth.Server
import PgClient.Text.Integer.Lemmas

namespace PgClient.Scram

/-! ## Names -/

theorem unescapeName_cons {c : Char} (hc : c ≠ '=') (rest : List Char) :
    unescapeName (c :: rest) = (unescapeName rest).map (c :: ·) := by
  rw [unescapeName]
  all_goals simp [hc]

/-- A name is read back from its escaped form. -/
theorem unescapeName_escapeName (name : String) :
    unescapeName (escapeName name).toList = some name.toList := by
  rw [escapeName, String.toList_ofList]
  induction name.toList with
  | nil => rfl
  | cons c cs ih =>
    rw [List.flatMap_cons]
    by_cases hequals : c = '='
    · rw [hequals, if_pos rfl]
      simp only [List.cons_append, List.nil_append, unescapeName, ih, Option.map_some]
    by_cases hcomma : c = ','
    · rw [hcomma, if_neg (by decide), if_pos rfl]
      simp only [List.cons_append, List.nil_append, unescapeName, ih, Option.map_some]
    · rw [if_neg hequals, if_neg hcomma, List.cons_append, List.nil_append,
        unescapeName_cons hequals, ih, Option.map_some]

theorem comma_notMem_escapeName (name : String) : ',' ∉ (escapeName name).toList := by
  rw [escapeName, String.toList_ofList]
  intro h
  obtain ⟨c, -, hc⟩ := List.mem_flatMap.1 h
  by_cases hcomma : c = ','
  · subst hcomma
    exact absurd hc (by decide)
  by_cases hequals : c = '='
  · subst hequals
    exact absurd hc (by decide)
  · rw [if_neg hequals, if_neg hcomma, List.mem_singleton] at hc
    exact hcomma hc.symm

/-! ## What each side reads -/

/-- An attribute stands between commas if its value has none. -/
theorem comma_notMem_spelled {key : Char} {value : String} (hkey : key ≠ ',')
    (h : ',' ∉ value.toList) : ',' ∉ spelled (key, value) := by
  simp [spelled, h, hkey.symm]

/-- The server reads the name and the nonce from the client's first message. -/
theorem opening_read (c : Client) (hnonce : ',' ∉ c.nonce.toList) :
    Opening.read c.clientFirst.1 = some ⟨c.firstBare, c.user, c.nonce⟩ := by
  have hbare : c.firstBare.toList =
      spelled ('n', escapeName c.user) ++ ',' :: spelled ('r', c.nonce) := by
    simp [Client.firstBare, spelled]
  have hparts : Text.splitAt ',' c.firstBare.toList =
      [spelled ('n', escapeName c.user), spelled ('r', c.nonce)] := by
    rw [hbare, Text.splitAt_append (comma_notMem_spelled (by decide) (comma_notMem_escapeName _)),
      Text.splitAt_eq_singleton (comma_notMem_spelled (by decide) hnonce)]
  have hlead : Text.stripLead header.toList ("n,," ++ c.firstBare).toList =
      some c.firstBare.toList := by
    rw [String.toList_append]
    exact Text.stripLead_append _ _
  unfold Opening.read Client.clientFirst
  simp only [Utf8.decode_encode, Except.toOption, hlead, hparts, stripLead_spelled,
    Option.bind_eq_bind, Option.bind_some, if_true, unescapeName_escapeName, String.ofList_toList]
  rfl

/-- The client reads the server's first message. -/
theorem attributes_first (s : Server) (hnonce : ',' ∉ s.nonce.toList) :
    attributes s.first = .ok [('r', s.nonce), ('s', Base64.encode s.account.salt),
      ('i', String.ofList (Integer.natural s.account.iterations.toNat))] := by
  have hfirst : s.first.toList = spelled ('r', s.nonce) ++ ',' ::
      (spelled ('s', Base64.encode s.account.salt) ++ ',' ::
        spelled ('i', String.ofList (Integer.natural s.account.iterations.toNat))) := by
    simp [Server.first, spelled]
  have hcount : ',' ∉ (String.ofList (Integer.natural s.account.iterations.toNat)).toList := by
    rw [String.toList_ofList]
    exact (Integer.Numeral.natural _).notMem (by decide)
  rw [attributes_eq_ok_iff, hfirst, Text.splitAt_append (comma_notMem_spelled (by decide) hnonce),
    Text.splitAt_append (comma_notMem_spelled (by decide) (Base64.comma_notMem_encode _)),
    Text.splitAt_eq_singleton (comma_notMem_spelled (by decide) hcount)]
  rfl

theorem challenge_read_first (s : Server) (hnonce : ',' ∉ s.nonce.toList) (hsuffix : s.suffix ≠ "")
    (hiterations : s.account.iterations ≠ 0) :
    Challenge.read s.opening.nonce s.first =
      .ok ⟨s.nonce, s.account.salt, s.account.iterations⟩ := by
  refine Challenge.read_eq_ok_iff.2 ⟨_, attributes_first s hnonce, rfl, ⟨?_, ?_⟩,
    ⟨_, rfl, Base64.decode_encode _⟩, _, rfl, ?_, hiterations⟩
  · rw [Server.nonce, String.toList_append]
    exact List.prefix_append _ _
  · intro h
    have hlength := congrArg String.length h
    rw [Server.nonce, String.length_append] at hlength
    exact hsuffix (String.length_eq_zero_iff.1 (by omega))
  · rw [String.toList_ofList]
    exact Integer.readUInt32_spelled (.plain (.natural _))

/-- The server reads the client's last message. -/
theorem closing_read (nonce : String) (proof : Bytes) (hnonce : ',' ∉ nonce.toList) :
    Closing.read (Utf8.encode (withoutProof nonce ++ ",p=" ++ Base64.encode proof)) =
      some ⟨withoutProof nonce, Utf8.encode header, nonce, proof⟩ := by
  have hwithout : (withoutProof nonce).toList =
      spelled ('c', "biws") ++ ',' :: spelled ('r', nonce) := by
    simp [withoutProof, spelled]
  have hmessage : (withoutProof nonce ++ ",p=" ++ Base64.encode proof).toList =
      (withoutProof nonce).toList ++ ',' :: spelled ('p', Base64.encode proof) := by
    simp [spelled]
  have hparts : Text.splitAt ',' (withoutProof nonce).toList =
      [spelled ('c', "biws"), spelled ('r', nonce)] := by
    rw [hwithout, Text.splitAt_append (comma_notMem_spelled (by decide) (by decide)),
      Text.splitAt_eq_singleton (comma_notMem_spelled (by decide) hnonce)]
  have hproof : ',' ∉ spelled ('p', Base64.encode proof) :=
    comma_notMem_spelled (by decide) (Base64.comma_notMem_encode proof)
  have hbinding : Base64.decode "biws" = some (Utf8.encode header) := by decide
  unfold Closing.read
  simp only [Utf8.decode_encode, Except.toOption, hmessage, Text.cutLast_append hproof, hparts,
    stripLead_spelled, Option.bind_eq_bind, Option.bind_some, if_true, String.ofList_toList,
    hbinding, Base64.decode_encode]
  rfl

theorem attributes_last (signature : Bytes) :
    attributes ("v=" ++ Base64.encode signature) = .ok [('v', Base64.encode signature)] := by
  have hlast : ("v=" ++ Base64.encode signature).toList =
      spelled ('v', Base64.encode signature) := by
    simp [spelled]
  rw [attributes_eq_ok_iff, hlast,
    Text.splitAt_eq_singleton (comma_notMem_spelled (by decide) (Base64.comma_notMem_encode _))]
  rfl

/-! ## The exchange -/

/-- A proof made with the stretched password is accepted where the key of the same is stored. -/
theorem accepts_proof {p : Primitives} (hhmac : ∀ key message, (p.hmac key message).length = 32)
    {s : Server} {closing : Closing} {salted : Bytes}
    (hstored : s.account.storedKey = p.hash (p.clientKey salted))
    (hproof : closing.proof = p.proof salted (s.auth closing)) : s.Accepts p closing := by
  have hlength : (p.clientKey salted).length =
      (p.hmac (p.hash (p.clientKey salted)) (s.auth closing)).length := by
    rw [Primitives.clientKey, hhmac, hhmac]
  unfold Server.Accepts
  rw [hproof, Primitives.proof, hstored, Sha256.xor_xor hlength]

/-- A server that accepts the proof answers with its signature. -/
theorem last_of_accepts {p : Primitives} {s : Server} {data : Bytes} {closing : Closing}
    (hread : Closing.read data = some closing) (hbinding : closing.binding = Utf8.encode header)
    (hnonce : closing.nonce = s.nonce) (haccepts : s.Accepts p closing) :
    s.last p data = some ("v=" ++ Base64.encode (p.hmac s.account.serverKey (s.auth closing))) := by
  unfold Server.last
  rw [hread]
  exact if_pos ⟨hbinding, hnonce, haccepts⟩

/-- A client and a server with the same password come to the end of their exchange, for any nonces
without a comma; base64 has none. The server learns the name and the nonce of the client, the
client goes on from the server's first message, the server accepts its proof, and the client
accepts the signature that the server answers with. -/
theorem exchange_agrees {p : Primitives} (hhmac : ∀ key message, (p.hmac key message).length = 32)
    (c : Client) (hnonce : ',' ∉ c.nonce.toList) (salt : Bytes) {iterations : UInt32}
    (hiterations : 0 < iterations) {suffix : String} (hsuffix : suffix ≠ "")
    (hcomma : ',' ∉ suffix.toList) :
    ∃ opening, Opening.read c.clientFirst.1 = some opening ∧
      opening.user = c.user ∧ opening.nonce = c.nonce ∧
      let s : Server := { account := .ofPassword p c.password salt iterations, opening, suffix }
      ∃ final waiting,
        c.clientFirst.2.serverFirst p (Utf8.encode s.first) = .ok (final, waiting) ∧
        (∃ closing, Closing.read final = some closing ∧ s.Accepts p closing) ∧
        ∃ last, s.last p final = some last ∧
          ∃ done, waiting.serverFinal (Utf8.encode last) = .ok done ∧ done.stage = .finished := by
  refine ⟨_, opening_read c hnonce, rfl, rfl, ?_⟩
  intro s
  have hjoined : ',' ∉ s.nonce.toList := by
    rw [Server.nonce, String.toList_append, List.mem_append, not_or]
    exact ⟨hnonce, hcomma⟩
  have hchallenge := challenge_read_first s hjoined hsuffix (UInt32.pos_iff_ne_zero.1 hiterations)
  let salted := p.stretch c.password salt iterations
  let auth := authMessage c.firstBare s.first s.nonce
  let waiting : Client := { c with stage := .sentFinal (p.serverSignature salted auth) }
  have hfirst : c.clientFirst.2.serverFirst p (Utf8.encode s.first) = .ok (Utf8.encode
      (withoutProof s.nonce ++ ",p=" ++ Base64.encode (p.proof salted auth)), waiting) :=
    Client.serverFirst_eq_ok_iff.2 ⟨rfl, s.first, _, rfl, hchallenge, rfl, rfl⟩
  have hclosing := closing_read s.nonce (p.proof salted auth) hjoined
  -- What the client has signed is what the server has seen.
  have haccepts : s.Accepts p
      ⟨withoutProof s.nonce, Utf8.encode header, s.nonce, p.proof salted auth⟩ :=
    accepts_proof hhmac rfl rfl
  have hlast := last_of_accepts hclosing rfl rfl haccepts
  have hfinal : waiting.serverFinal
      (Utf8.encode ("v=" ++ Base64.encode (p.serverSignature salted auth))) =
        .ok { c with stage := .finished } :=
    Client.serverFinal_eq_ok_iff.2 ⟨_, rfl, _, _, rfl, attributes_last _, rfl,
      ⟨_, rfl, Base64.decode_encode _⟩, rfl⟩
  exact ⟨_, _, hfirst, ⟨_, hclosing, haccepts⟩, _, hlast, _, hfinal, rfl⟩

/-- The digests in use agree on any name, here on one with both characters that are escaped. -/
theorem exchange_agrees_sha256 :
    let c := Client.ofRandom "a=b,c" [112, 119] [1, 2, 3]
    0 < (4096 : UInt32) ∧ ∃ opening, Opening.read c.clientFirst.1 = some opening ∧
      opening.user = c.user ∧ opening.nonce = c.nonce ∧
      let s : Server :=
        { account := .ofPassword sha256 c.password [4, 5] 4096, opening, suffix := "%hv" }
      ∃ final waiting,
        c.clientFirst.2.serverFirst sha256 (Utf8.encode s.first) = .ok (final, waiting) ∧
        (∃ closing, Closing.read final = some closing ∧ s.Accepts sha256 closing) ∧
        ∃ last, s.last sha256 final = some last ∧
          ∃ done, waiting.serverFinal (Utf8.encode last) = .ok done ∧ done.stage = .finished :=
  ⟨by decide, exchange_agrees Sha256.length_hmac _ (Base64.comma_notMem_encode _) [4, 5] (by decide)
    (by decide) (by decide)⟩

end PgClient.Scram
