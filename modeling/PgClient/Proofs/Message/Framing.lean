/-
  PgClient.Proofs.Message.Framing

  What one read takes from the incoming stream. A message that is read costs
  exactly the bytes of its frame, and what follows the frame is left alone.
-/
import PgClient.Bytes.Lemmas
import PgClient.Message.Frame
import PgClient.Message.Frontend
import PgClient.Proofs.Steps

namespace PgClient

open Steps

/-! ## Words read back -/

namespace Bytes

/-- A word that is not negative spells its own number. -/
theorem toNat_toInt32 {bs : Bytes} (size : bs.length = 4) (nonneg : 0 ≤ (toInt32 bs).toInt) :
    (toInt32 bs).toInt.toNat = value bs := by
  have small : value bs < 4294967296 := by simpa [size, capacity] using value_lt_capacity bs
  have word : (toInt32 bs).toInt = (value bs : Int).bmod (2 ^ 32) := BitVec.toInt_ofNat ..
  rw [word] at nonneg ⊢
  rw [Int.bmod_def] at nonneg ⊢
  split at nonneg <;> omega

end Bytes

/-! ## Frames -/

/-- The bytes are one frame: a tag, the length of the body with its own four bytes, and a body
that spells the message under some layout version. -/
def IsFrame (bs : Bytes) (m : Backend) : Prop :=
  ∃ tag body version, bs = Wire.pack tag body ∧ body.length + 4 ≤ maxFrameLength.toInt.toNat ∧
    Backend.decode tag body version = .ok m

namespace Receive

/-- A read that succeeds has taken as many bytes as it was asked for. -/
theorem take_eq {n : Nat} {i i' : Incoming} {bs : Bytes} (h : (take n).run i = (.ok bs, i')) :
    i.unread = bs ++ i'.unread ∧ bs.length = n ∧ i'.ending = i.ending := by
  simp only [take, run_bind, run_get, run_set, Incoming.take, Bytes.split?_eq] at h
  by_cases enough : n ≤ i.unread.length
  · simp only [enough, if_true, run_pure, outcome_eq, Except.ok.injEq] at h
    obtain ⟨rfl, rfl⟩ := h
    exact ⟨(List.take_append_drop n _).symm, List.length_take_of_le enough, rfl⟩
  · simp only [enough, if_false, run_throw, outcome_eq, reduceCtorEq, false_and] at h

/-- The header that is read is the tag and the length as they are written. -/
theorem header_eq {i i' : Incoming} {tag : UInt8} {length : Int32}
    (h : header.run i = (.ok (tag, length), i')) :
    i.unread = tag :: Wire.length length.toInt.toNat ++ i'.unread ∧
      4 ≤ length.toInt.toNat ∧ length.toInt.toNat ≤ maxFrameLength.toInt.toNat ∧
      i'.ending = i.ending := by
  obtain ⟨e, -, hr⟩ | ⟨bs, j, htake, h⟩ := bind_cases h
  · cases hr
  obtain ⟨hunread, hlength, hending⟩ := take_eq htake
  obtain ⟨b, word, rfl⟩ : ∃ b word, bs = b :: word := by
    cases bs with
    | nil => cases hlength
    | cons b word => exact ⟨b, word, rfl⟩
  have hword : word.length = 4 := by simpa using hlength
  simp only [List.headD_cons, List.drop_succ_cons, List.drop_zero] at h
  split at h
  · rename_i bounds
    simp only [run_pure, outcome_eq, Except.ok.injEq] at h
    obtain ⟨⟨rfl, rfl⟩, rfl⟩ := h
    have low : 4 ≤ (Bytes.toInt32 word).toInt := Int32.le_iff_toInt_le.1 bounds.1
    have high : (Bytes.toInt32 word).toInt ≤ maxFrameLength.toInt :=
      Int32.le_iff_toInt_le.1 bounds.2
    refine ⟨?_, by omega, by omega, hending⟩
    -- Writing the number of the word gives the word back.
    rw [hunread, Bytes.toNat_toInt32 hword (by omega), Wire.length, ← hword,
      Bytes.bigEndian_value]
  · simp only [run_bind, run_throw, outcome_eq, reduceCtorEq, false_and] at h

/-- A message that is read was the next frame of the stream. -/
theorem message_eq {version : Int32} {i i' : Incoming} {m : Backend}
    (h : (message version).run i = (.ok m, i')) :
    ∃ frame, IsFrame frame m ∧ i.unread = frame ++ i'.unread ∧ i'.ending = i.ending := by
  obtain ⟨e, -, hr⟩ | ⟨⟨tag, length⟩, j, hheader, h⟩ := bind_cases h
  · cases hr
  obtain ⟨e, -, hr⟩ | ⟨body, k, htake, h⟩ := bind_cases h
  · cases hr
  obtain ⟨hunread, low, high, hending⟩ := header_eq hheader
  obtain ⟨hbody, hlength, hending'⟩ := take_eq htake
  cases hm : Backend.decode tag body version with
  | error v => simp only [hm, run_throw, outcome_eq, reduceCtorEq, false_and] at h
  | ok m' =>
    simp only [hm, run_pure, outcome_eq, Except.ok.injEq] at h
    obtain ⟨rfl, rfl⟩ := h
    have size : length.toInt.toNat = body.length + 4 := by omega
    refine ⟨Wire.pack tag body, ⟨tag, body, version, rfl, by omega, hm⟩, ?_, by
      rw [hending', hending]⟩
    rw [hunread, hbody, Wire.pack, size, List.append_assoc]

end Receive

end PgClient
