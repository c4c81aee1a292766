/-
  PgClient.Proofs.Codec.Text

  Text in the client encoding. What was written is read back, in every encoding;
  only LATIN1 refuses a text, for its first character above U+00FF.
-/
import PgClient.Codec.Context
import PgClient.Proofs.Steps
import PgClient.Text.Utf8.Lemmas

namespace PgClient.CodecContext

open Steps

/-! ## LATIN1 -/

/-- The characters that LATIN1 does not have. -/
def aboveLatin1 (c : Char) : Bool := 256 ≤ c.toNat

theorem latin1Byte_of_above {c : Char} (hc : aboveLatin1 c = true) :
    latin1Byte c = .error (.data (.notLatin1 c)) :=
  if_neg (Nat.not_lt.2 (of_decide_eq_true hc))

theorem latin1Byte_of_not_above {c : Char} (hc : aboveLatin1 c = false) :
    latin1Byte c = .ok (UInt8.ofNat c.toNat) :=
  if_pos (Nat.not_le.1 (of_decide_eq_false hc))

/-- A byte stands for the character that it was made of. -/
theorem ofNat_of_latin1Byte {c : Char} {b : UInt8} (h : latin1Byte c = .ok b) :
    Char.ofNat b.toNat = c := by
  cases hc : aboveLatin1 c with
  | true =>
    rw [latin1Byte_of_above hc] at h
    cases h
  | false =>
    rw [latin1Byte_of_not_above hc] at h
    cases h
    rw [UInt8.toNat_ofNat_of_lt' (Nat.not_le.1 (of_decide_eq_false hc)), Char.ofNat_toNat]

/-- A text is refused for its first character that LATIN1 does not have. -/
theorem mapM_latin1Byte_eq_error_iff {cs : List Char} {e : Error} :
    cs.mapM latin1Byte = .error e ↔
      ∃ c, cs.find? aboveLatin1 = some c ∧ e = .data (.notLatin1 c) := by
  induction cs with
  | nil => exact ⟨nofun, fun ⟨_, h, _⟩ => by cases h⟩
  | cons c cs ih =>
    cases hc : aboveLatin1 c with
    | true =>
      rw [List.mapM_cons, latin1Byte_of_above hc, List.find?_cons_of_pos hc]
      constructor
      · intro h
        cases h
        exact ⟨c, rfl, rfl⟩
      · rintro ⟨_, hfirst, rfl⟩
        cases hfirst
        rfl
    | false =>
      rw [List.mapM_cons, latin1Byte_of_not_above hc, List.find?_cons_of_neg (by simp [hc]), ← ih]
      cases cs.mapM latin1Byte with
      | error => exact Iff.rfl
      | ok bs => exact ⟨nofun, nofun⟩

theorem map_ofNat_of_mapM {cs : List Char} {bs : Bytes} (h : cs.mapM latin1Byte = .ok bs) :
    bs.map (fun b => Char.ofNat b.toNat) = cs := by
  have hbytes := mapM_eq_ok_iff.1 h
  clear h
  induction hbytes with
  | nil => rfl
  | cons hc _ ih => rw [List.map_cons, ih, ofNat_of_latin1Byte hc]

/-! ## All encodings -/

variable {ctx : CodecContext} {s : String}

theorem encodeText_eq_error_iff {e : Error} :
    ctx.encodeText s = .error e ↔ ctx.encoding = .latin1 ∧
      ∃ c, s.toList.find? aboveLatin1 = some c ∧ e = .data (.notLatin1 c) := by
  unfold encodeText
  cases ctx.encoding with
  | utf8 | sqlAscii => exact ⟨nofun, fun h => by cases h.1⟩
  | latin1 => exact mapM_latin1Byte_eq_error_iff.trans (and_iff_right rfl).symm

/-- A text of characters that LATIN1 has is written in every encoding. -/
theorem encodeText_of_latin1 (h : ∀ c ∈ s.toList, aboveLatin1 c = false) :
    ∃ bs, ctx.encodeText s = .ok bs := by
  cases hbytes : ctx.encodeText s with
  | ok bs => exact ⟨bs, rfl⟩
  | error e =>
    obtain ⟨-, c, hfirst, -⟩ := encodeText_eq_error_iff.1 hbytes
    have habove := List.find?_some hfirst
    rw [h c (List.mem_of_find?_eq_some hfirst)] at habove
    cases habove

/-- Reading undoes writing. -/
theorem decodeText_encodeText {bs : Bytes} (h : ctx.encodeText s = .ok bs) :
    ctx.decodeText bs = .ok s := by
  unfold encodeText at h
  unfold decodeText
  cases hencoding : ctx.encoding with
  | utf8 =>
    rw [hencoding] at h
    cases h
    dsimp only
    rw [Utf8.decode_encode]
    rfl
  | sqlAscii =>
    rw [hencoding] at h
    cases h
    dsimp only
    rw [Utf8.decodeLossy_encode]
  | latin1 =>
    rw [hencoding] at h
    dsimp only
    rw [map_ofNat_of_mapM h, String.ofList_toList]

end PgClient.CodecContext
