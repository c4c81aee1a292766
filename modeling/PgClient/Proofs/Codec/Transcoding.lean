/-
  PgClient.Proofs.Codec.Transcoding

  Text and the client encoding, both ways. What UTF-8 is, is said by the free bits
  of one to four bytes and by the shortest form; the strict reader accepts exactly
  that. In UTF-8 and LATIN1 what was read is written as it was.
-/
import Mathlib.Data.Set.List
import PgClient.Proofs.Codec.Text

namespace PgClient

open Steps

/-! ## Well-formed UTF-8 -/

namespace Utf8

/-- A byte that only continues a character. -/
abbrev Continues (b : UInt8) : Prop := 0x80 ≤ b.toNat ∧ b.toNat < 0xC0

/-- A lead byte with the continuation bytes that it announces, and the number in their free bits. -/
inductive Sequence : Bytes → Nat → Prop
  | one {a : UInt8} (ha : a.toNat < 0x80) : Sequence [a] a.toNat
  | two {a b : UInt8} (ha : 0xC0 ≤ a.toNat ∧ a.toNat < 0xE0) (hb : Continues b) :
      Sequence [a, b] ((a.toNat - 0xC0) * 64 + (b.toNat - 0x80))
  | three {a b c : UInt8} (ha : 0xE0 ≤ a.toNat ∧ a.toNat < 0xF0) (hb : Continues b)
      (hc : Continues c) :
      Sequence [a, b, c]
        ((a.toNat - 0xE0) * 4096 + (b.toNat - 0x80) * 64 + (c.toNat - 0x80))
  | four {a b c d : UInt8} (ha : 0xF0 ≤ a.toNat ∧ a.toNat < 0xF8) (hb : Continues b)
      (hc : Continues c) (hd : Continues d) :
      Sequence [a, b, c, d]
        ((a.toNat - 0xF0) * 262144 + (b.toNat - 0x80) * 4096 + (c.toNat - 0x80) * 64 +
          (d.toNat - 0x80))

/-- The shortest sequence for its number, which is no surrogate and in the range of Unicode. -/
def IsCharacter (bs : Bytes) : Prop :=
  ∃ n, Sequence bs n ∧ (∀ bs', Sequence bs' n → bs.length ≤ bs'.length) ∧
    ¬ (0xD800 ≤ n ∧ n ≤ 0xDFFF) ∧ n ≤ 0x10FFFF

/-- Characters one after another. -/
def WellFormed (bs : Bytes) : Prop :=
  ∃ parts : List Bytes, (∀ part ∈ parts, IsCharacter part) ∧ bs = parts.flatten

variable {bs bs' : Bytes} {n : Nat}

/-- Sequences of one length tell numbers apart. -/
theorem Sequence.unique {n' : Nat} (h : Sequence bs n) (h' : Sequence bs' n') (hn : n = n')
    (hlength : bs.length = bs'.length) : bs = bs' := by
  cases h with
  | one ha =>
    cases h' with
    | one ha' => rw [UInt8.toNat_inj.1 hn]
    | _ => cases hlength
  | two ha hb =>
    cases h' with
    | two ha' hb' => simp only [← UInt8.toNat_inj, List.cons.injEq, and_true]; omega
    | _ => cases hlength
  | three ha hb hc =>
    cases h' with
    | three ha' hb' hc' => simp only [← UInt8.toNat_inj, List.cons.injEq, and_true]; omega
    | _ => cases hlength
  | four ha hb hc hd =>
    cases h' with
    | four ha' hb' hc' hd' => simp only [← UInt8.toNat_inj, List.cons.injEq, and_true]; omega
    | _ => cases hlength

theorem sequence_encodeChar (c : Char) : Sequence (String.utf8EncodeChar c) c.toNat := by
  have hv := toNat_lt_and_not_surrogate c
  have hc : c.val.toNat = c.toNat := rfl
  simp only [String.utf8EncodeChar, hc]
  generalize c.toNat = v at hv
  have hbyte : ∀ n, n < 256 → (UInt8.ofNat n).toNat = n := fun n h => UInt8.toNat_ofNat_of_lt' h
  -- In each of the four lengths the bytes hold the parts of the number.
  split
  · have h := @Sequence.one (UInt8.ofNat v)
    rw [hbyte v (by omega)] at h
    exact h (by omega)
  split
  · have h := @Sequence.two (UInt8.ofNat (v / 64 % 32 + 192)) (UInt8.ofNat (v % 64 + 128))
    simp only [Continues] at h
    rw [hbyte (_ + 192) (by omega), hbyte (_ + 128) (by omega)] at h
    convert h (by omega) (by omega) using 1
    omega
  split
  · have h := @Sequence.three (UInt8.ofNat (v / 4096 % 16 + 224))
      (UInt8.ofNat (v / 64 % 64 + 128)) (UInt8.ofNat (v % 64 + 128))
    simp only [Continues] at h
    rw [hbyte (_ + 224) (by omega), hbyte (v / 64 % 64 + 128) (by omega),
      hbyte (v % 64 + 128) (by omega)] at h
    convert h (by omega) (by omega) (by omega) using 1
    omega
  · have h := @Sequence.four (UInt8.ofNat (v / 262144 % 8 + 240))
      (UInt8.ofNat (v / 4096 % 64 + 128)) (UInt8.ofNat (v / 64 % 64 + 128))
      (UInt8.ofNat (v % 64 + 128))
    simp only [Continues] at h
    rw [hbyte (_ + 240) (by omega), hbyte (v / 4096 % 64 + 128) (by omega),
      hbyte (v / 64 % 64 + 128) (by omega), hbyte (v % 64 + 128) (by omega)] at h
    convert h (by omega) (by omega) (by omega) (by omega) using 1
    omega

/-- No sequence for a character is shorter than its own bytes. -/
theorem Sequence.utf8Size_le {c : Char} (h : Sequence bs n) (hn : n = c.toNat) :
    c.utf8Size ≤ bs.length := by
  have hsize : c.utf8Size = if c.toNat ≤ 0x7F then 1 else if c.toNat ≤ 0x7FF then 2 else
      if c.toNat ≤ 0xFFFF then 3 else 4 := rfl
  rw [hsize]
  clear hsize
  cases h with
  | one ha =>
    show _ ≤ 1
    split_ifs <;> omega
  | two ha hb =>
    show _ ≤ 2
    split_ifs <;> omega
  | three ha hb hc =>
    show _ ≤ 3
    split_ifs <;> omega
  | four ha hb hc hd =>
    show _ ≤ 4
    split_ifs <;> omega

theorem isCharacter_iff : IsCharacter bs ↔ ∃ c, String.utf8EncodeChar c = bs := by
  constructor
  · rintro ⟨n, hbs, hshortest, hsurrogate, hrange⟩
    have hn : (Char.ofNat n).toNat = n := toNat_ofNat (by omega)
    have hchar := sequence_encodeChar (Char.ofNat n)
    rw [hn] at hchar
    refine ⟨Char.ofNat n, hchar.unique hbs rfl ?_⟩
    refine Nat.le_antisymm ?_ (hshortest _ hchar)
    rw [String.length_utf8EncodeChar]
    exact hbs.utf8Size_le hn.symm
  · rintro ⟨c, rfl⟩
    have hrange := toNat_lt_and_not_surrogate c
    refine ⟨c.toNat, sequence_encodeChar c, fun bs' h => ?_, by omega, by omega⟩
    rw [String.length_utf8EncodeChar]
    exact h.utf8Size_le rfl

/-- The strict reader accepts well-formed bytes and no others. -/
theorem decode_eq_ok_iff : (∃ s, decode bs = .ok s) ↔ WellFormed bs := by
  constructor
  · rintro ⟨s, h⟩
    refine ⟨s.toList.map String.utf8EncodeChar, ?_, ?_⟩
    · intro part hpart
      obtain ⟨c, -, hc⟩ := List.mem_map.1 hpart
      exact isCharacter_iff.2 ⟨c, hc⟩
    · rw [← encode_of_decode h, encode, List.flatMap_def]
  · rintro ⟨parts, hparts, rfl⟩
    obtain ⟨cs, rfl⟩ : parts ∈ Set.range (List.map String.utf8EncodeChar) := by
      rw [Set.range_list_map]
      exact fun part hpart => isCharacter_iff.1 (hparts part hpart)
    refine ⟨String.ofList cs, ?_⟩
    rw [← decode_encode, encode, String.toList_ofList, List.flatMap_def]

end Utf8

namespace CodecContext

variable {ctx : CodecContext} {bs : Bytes} {s : String}

/-! ## Writing what was read -/

theorem mapM_latin1Byte_map_ofNat (bs : Bytes) :
    (bs.map fun b => Char.ofNat b.toNat).mapM latin1Byte = .ok bs := by
  have hbyte : ∀ b : UInt8, latin1Byte (Char.ofNat b.toNat) = .ok b := by
    intro b
    have hb := b.toNat_lt
    have hchar : (Char.ofNat b.toNat).toNat = b.toNat := Utf8.toNat_ofNat (.inl (by omega))
    rw [latin1Byte, hchar, if_pos hb, UInt8.ofNat_toNat]
  rw [mapM_eq_ok_iff, List.forall₂_map_left_iff, List.forall₂_same]
  exact fun b _ => hbyte b

/-- Where each byte string is read for what it is, writing undoes reading. -/
theorem encodeText_decodeText (hencoding : ctx.encoding ≠ .sqlAscii)
    (h : ctx.decodeText bs = .ok s) : ctx.encodeText s = .ok bs := by
  unfold decodeText at h
  unfold encodeText
  cases hctx : ctx.encoding with
  | sqlAscii => exact absurd hctx hencoding
  | latin1 =>
    rw [hctx] at h
    cases h
    dsimp only
    rw [String.toList_ofList, mapM_latin1Byte_map_ofNat]
  | utf8 =>
    rw [hctx] at h
    dsimp only at h ⊢
    cases hdecode : Utf8.decode bs with
    | error f =>
      rw [hdecode] at h
      cases h
    | ok s' =>
      rw [hdecode] at h
      cases h
      rw [Utf8.encode_of_decode hdecode]

/-- The lossy reader loses nothing of what the strict one accepts. -/
theorem decodeText_sqlAscii {ascii : CodecContext} (hutf8 : ctx.encoding = .utf8)
    (hascii : ascii.encoding = .sqlAscii) (h : ctx.decodeText bs = .ok s) :
    ascii.decodeText bs = .ok s := by
  have hbytes := encodeText_decodeText (by rw [hutf8]; nofun) h
  refine decodeText_encodeText ?_
  rw [encodeText, hutf8] at hbytes
  rw [encodeText, hascii]
  exact hbytes

/-! ## Which texts and bytes are accepted -/

theorem exists_encodeText_eq_error_iff :
    (∃ e, ctx.encodeText s = .error e) ↔
      ctx.encoding = .latin1 ∧ ∃ c ∈ s.toList, 0xFF < c.toNat := by
  simp only [encodeText_eq_error_iff, exists_and_left]
  refine and_congr_right fun _ => ?_
  constructor
  · rintro ⟨-, c, hfirst, -⟩
    have habove : aboveLatin1 c = true := List.find?_some hfirst
    exact ⟨c, List.mem_of_find?_eq_some hfirst, of_decide_eq_true habove⟩
  · rintro ⟨c, hc, habove⟩
    have hsome : (s.toList.find? aboveLatin1).isSome = true :=
      List.find?_isSome.2 ⟨c, hc, decide_eq_true habove⟩
    obtain ⟨c', hfirst⟩ := Option.isSome_iff_exists.1 hsome
    exact ⟨_, c', hfirst, rfl⟩

theorem exists_decodeText_utf8_iff (hencoding : ctx.encoding = .utf8) :
    (∃ s, ctx.decodeText bs = .ok s) ↔ Utf8.WellFormed bs := by
  rw [← Utf8.decode_eq_ok_iff, decodeText, hencoding]
  dsimp only
  cases Utf8.decode bs with
  | error f =>
    constructor
    · rintro ⟨s, h⟩
      cases h
    · rintro ⟨s, h⟩
      cases h
  | ok s => exact iff_of_true ⟨s, rfl⟩ ⟨s, rfl⟩

/-- Only LATIN1 refuses texts, those with a character above U+00FF, and every text that is written
is read back. In UTF-8 and LATIN1 all bytes that are read are written as they were; LATIN1 reads
all bytes, UTF-8 the well-formed ones, and these are the same text to a client that converts
nothing. -/
theorem text_transcoded :
    (∀ (ctx : CodecContext) (s : String),
      ((∃ e, ctx.encodeText s = .error e) ↔
        ctx.encoding = .latin1 ∧ ∃ c ∈ s.toList, 0xFF < c.toNat) ∧
      ∀ bs, ctx.encodeText s = .ok bs → ctx.decodeText bs = .ok s) ∧
    (∀ (ctx : CodecContext) (bs : Bytes) (s : String), ctx.encoding ≠ .sqlAscii →
      ctx.decodeText bs = .ok s → ctx.encodeText s = .ok bs) ∧
    (∀ (ctx : CodecContext) (bs : Bytes), ctx.encoding = .latin1 →
      ∃ s, ctx.decodeText bs = .ok s) ∧
    (∀ (ctx : CodecContext) (bs : Bytes), ctx.encoding = .utf8 →
      ((∃ s, ctx.decodeText bs = .ok s) ↔ Utf8.WellFormed bs)) ∧
    ∀ (ctx ascii : CodecContext) (bs : Bytes) (s : String), ctx.encoding = .utf8 →
      ascii.encoding = .sqlAscii → ctx.decodeText bs = .ok s → ascii.decodeText bs = .ok s := by
  refine ⟨fun ctx s => ⟨exists_encodeText_eq_error_iff, fun _ => decodeText_encodeText⟩,
    fun ctx bs s => encodeText_decodeText, fun ctx bs hencoding => ?_,
    fun ctx bs => exists_decodeText_utf8_iff, fun ctx ascii bs s => decodeText_sqlAscii⟩
  rw [decodeText, hencoding]
  exact ⟨_, rfl⟩

/-- A byte of LATIN1, the three bytes of a euro sign, and a surrogate. -/
theorem text_transcoded_mixed :
    (∃ s, CodecContext.decodeText { encoding := .latin1 } [0xe9] = .ok s ∧
      CodecContext.encodeText { encoding := .latin1 } s = .ok [0xe9]) ∧
    CodecContext.decodeText { encoding := .sqlAscii } [0xe2, 0x82, 0xac] = .ok "€" ∧
    ¬ Utf8.WellFormed [0xed, 0xa0, 0x80] := by
  have hsurrogate : ∀ s, CodecContext.decodeText {} [0xed, 0xa0, 0x80] ≠ .ok s := by
    intro s h
    have hfault : Utf8.decode [0xed, 0xa0, 0x80] = .error ⟨0, some 1⟩ := by decide +kernel
    rw [decodeText, hfault] at h
    cases h
  obtain ⟨s, hs⟩ := text_transcoded.2.2.1 { encoding := .latin1 } [0xe9] rfl
  refine ⟨⟨s, hs, text_transcoded.2.1 _ _ _ nofun hs⟩, ?_, fun h => ?_⟩
  · exact text_transcoded.2.2.2.2 {} _ _ _ rfl rfl (by decide +kernel)
  · obtain ⟨s, hs⟩ := (text_transcoded.2.2.2.1 {} _ rfl).2 h
    exact hsurrogate s hs

end CodecContext

end PgClient
