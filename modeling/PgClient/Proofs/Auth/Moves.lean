/-
  PgClient.Proofs.Auth.Moves

  When the client of a SCRAM exchange goes on, and with what. The attributes of
  a message are told from its text alone; each move of the client then has one
  lemma that says what it takes and what it leaves.
-/
import PgClient.Auth.Scram
import PgClient.Proofs.Steps
import PgClient.Text.Utf8.Lemmas

namespace PgClient.Scram

open Steps

/-! ## Attributes -/

/-- An attribute as it stands in a message. -/
def spelled (a : Char × String) : List Char := a.1 :: '=' :: a.2.toList

theorem attributeOf_eq_ok_iff {part : List Char} {a : Char × String} :
    attributeOf part = .ok a ↔ part = spelled a := by
  obtain ⟨key, value⟩ := a
  constructor
  · intro h
    unfold attributeOf at h
    split at h
    · obtain ⟨rfl, rfl⟩ := Prod.mk.inj (Except.ok.inj h)
      simp [spelled]
    all_goals exact nomatch h
  · rintro rfl
    simp [spelled, attributeOf]

theorem mapM_attributeOf {parts : List (List Char)} {as : List (Char × String)} :
    parts.mapM attributeOf = .ok as ↔ parts = as.map spelled := by
  simp only [mapM_eq_ok_iff, attributeOf_eq_ok_iff]
  rw [← List.forall₂_map_right_iff (R := (· = ·)), List.forall₂_eq_eq_eq]

/-- A message is read as attributes if they are what stands between its commas. -/
theorem attributes_eq_ok_iff {message : String} {as : List (Char × String)} :
    attributes message = .ok as ↔ Text.splitAt ',' message.toList = as.map spelled :=
  mapM_attributeOf

/-- The value of the first part of a message that starts with a letter and an equals sign. -/
def attribute? (message : String) (key : Char) : Option String :=
  ((Text.splitAt ',' message.toList).findSome? (Text.stripLead [key, '='])).map String.ofList

theorem stripLead_spelled (key : Char) (a : Char × String) :
    Text.stripLead [key, '='] (spelled a) = if key = a.1 then some a.2.toList else none := by
  simp [spelled, Text.stripLead]

theorem lookup_of_attributes {message : String} {as : List (Char × String)}
    (h : attributes message = .ok as) (key : Char) : as.lookup key = attribute? message key := by
  unfold attribute?
  rw [attributes_eq_ok_iff.1 h]
  clear h
  induction as with
  | nil => rfl
  | cons a as ih =>
    rw [List.map_cons, List.findSome?_cons, stripLead_spelled]
    by_cases hkey : key = a.1
    · rw [List.lookup_cons, hkey, beq_self_eq_true, if_pos rfl, Option.map_some,
        String.ofList_toList]
    · rw [List.lookup_cons, beq_false_of_ne hkey, if_neg hkey]
      exact ih

theorem require_eq_ok_iff {as : List (Char × String)} {key : Char} {value : String} :
    require as key = .ok value ↔ as.lookup key = some value := by
  unfold require
  cases as.lookup key <;> simp

theorem requireBytes_eq_ok_iff {as : List (Char × String)} {key : Char} {bs : Bytes} :
    requireBytes as key = .ok bs ↔
      ∃ value, as.lookup key = some value ∧ Base64.decode value = some bs := by
  unfold requireBytes
  simp only [bind_eq_ok_iff, require_eq_ok_iff]
  refine exists_congr fun value => and_congr_right fun _ => ?_
  cases Base64.decode value <;> simp [pure, Except.pure, throw, throwThe, MonadExceptOf.throw]

theorem decodeText_eq_ok_iff {data : Bytes} {message : String} :
    decodeText data = .ok message ↔ Utf8.encode message = data := by
  constructor
  · intro h
    unfold decodeText at h
    split at h
    · rename_i hdecode
      obtain rfl := Except.ok.inj h
      exact Utf8.encode_of_decode hdecode
    · exact nomatch h
  · rintro rfl
    unfold decodeText
    rw [Utf8.decode_encode]

/-! ## Moves -/

/-- A challenge is read if the message gives all three parts of it and goes on from the nonce. -/
theorem Challenge.read_eq_ok_iff {clientNonce message : String} {challenge : Challenge} :
    Challenge.read clientNonce message = .ok challenge ↔
      ∃ as, attributes message = .ok as ∧ as.lookup 'r' = some challenge.nonce ∧
        (clientNonce.toList <+: challenge.nonce.toList ∧ challenge.nonce ≠ clientNonce) ∧
        (∃ salt, as.lookup 's' = some salt ∧ Base64.decode salt = some challenge.salt) ∧
        ∃ count, as.lookup 'i' = some count ∧
          Integer.readUInt32 count.toList = .ok challenge.iterations ∧
          challenge.iterations ≠ 0 := by
  obtain ⟨nonce, salt, iterations⟩ := challenge
  unfold Challenge.read
  simp only [bind_eq_ok_iff, require_eq_ok_iff, requireBytes_eq_ok_iff, unless_eq_ok_iff,
    List.isPrefixOf_iff_prefix]
  refine exists_congr fun as => and_congr_right fun _ => ?_
  constructor
  · rintro ⟨nonce', hnonce, hextends, salt', hsalt, count, hcount, h⟩
    split at h
    · rename_i iterations' hread
      obtain ⟨hpositive, h⟩ := when_eq_ok_iff.1 h
      obtain ⟨rfl, rfl, rfl⟩ := Challenge.mk.inj (Except.ok.inj h)
      exact ⟨hnonce, hextends, hsalt, count, hcount, hread, hpositive⟩
    · exact nomatch h
  · rintro ⟨hnonce, hextends, hsalt, count, hcount, hread, hpositive⟩
    refine ⟨nonce, hnonce, hextends, salt, hsalt, count, hcount, ?_⟩
    rw [hread]
    exact when_eq_ok_iff.2 ⟨hpositive, rfl⟩

namespace Client

variable {p : Primitives} {c c' : Client} {data reply : Bytes}

/-- The server's first message is taken, after the client's, if a challenge can be read from it. -/
theorem serverFirst_eq_ok_iff :
    c.serverFirst p data = .ok (reply, c') ↔
      c.stage = .sentFirst ∧ ∃ message challenge, Utf8.encode message = data ∧
        Challenge.read c.nonce message = .ok challenge ∧
        let salted := p.stretch c.password challenge.salt challenge.iterations
        let auth := authMessage c.firstBare message challenge.nonce
        reply = Utf8.encode
          (withoutProof challenge.nonce ++ ",p=" ++ Base64.encode (p.proof salted auth)) ∧
        c' = { c with stage := .sentFinal (p.serverSignature salted auth) } := by
  unfold serverFirst
  simp only [unless_eq_ok_iff, bind_eq_ok_iff, decodeText_eq_ok_iff]
  refine and_congr_right fun _ => exists_congr fun message => ?_
  constructor
  · rintro ⟨hdata, challenge, hread, h⟩
    obtain ⟨rfl, rfl⟩ := Prod.mk.inj (Except.ok.inj h)
    exact ⟨challenge, hdata, hread, rfl, rfl⟩
  · rintro ⟨challenge, hdata, hread, rfl, rfl⟩
    exact ⟨hdata, challenge, hread, rfl⟩

/-- The server's last message is accepted if it says no fault and has the signature. -/
theorem serverFinal_eq_ok_iff :
    c.serverFinal data = .ok c' ↔
      ∃ expected, c.stage = .sentFinal expected ∧
        ∃ message as, Utf8.encode message = data ∧ attributes message = .ok as ∧
        as.lookup 'e' = none ∧
        (∃ signature, as.lookup 'v' = some signature ∧ Base64.decode signature = some expected) ∧
        c' = { c with stage := .finished } := by
  unfold serverFinal
  cases hstage : c.stage with
  | sentFinal expected =>
    simp only [bind_eq_ok_iff, decodeText_eq_ok_iff]
    constructor
    · rintro ⟨message, hdata, as, has, h⟩
      split at h
      · exact nomatch h
      · rename_i hnone
        obtain ⟨signature, hsignature, h⟩ := bind_eq_ok_iff.1 h
        obtain ⟨hexpected, h⟩ := unless_eq_ok_iff.1 h
        exact ⟨_, rfl, message, as, hdata, has, Option.eq_none_iff_forall_ne_some.2 hnone,
          requireBytes_eq_ok_iff.1 (hexpected ▸ hsignature), (Except.ok.inj h).symm⟩
    · rintro ⟨_, hexpected, message, as, hdata, has, hnone, hsignature, rfl⟩
      obtain rfl := Stage.sentFinal.inj hexpected
      refine ⟨message, hdata, as, has, ?_⟩
      rw [hnone]
      exact bind_eq_ok_iff.2 ⟨_, requireBytes_eq_ok_iff.2 hsignature, unless_eq_ok_iff.2 ⟨rfl, rfl⟩⟩
  | start => simp [throw, throwThe, MonadExceptOf.throw]
  | sentFirst => simp [throw, throwThe, MonadExceptOf.throw]
  | finished => simp [throw, throwThe, MonadExceptOf.throw]

end Client

end PgClient.Scram
