/-
  PgClient.Text.Utf8.Lemmas

  Written text falls into its characters again (`pieces_encode`), so both readers
  give back what was written (`decode_encode`, `decodeLossy_encode`). What the
  strict reader accepts is written as it was (`encode_of_decode`).
-/
import PgClient.Text.Utf8

namespace PgClient.Utf8

/-! ## The bytes of one character -/

/-- The continuation byte of a number below 64. -/
theorem trail_ofNat : ∀ n < 64, isTrail (UInt8.ofNat (n + 128)) = true ∧
    low (UInt8.ofNat (n + 128)) = n := by decide +kernel

/-- The lead byte of a character of two bytes; every continuation byte may follow it. -/
theorem lead_two : ∀ k < 32, 2 ≤ k → ¬ UInt8.ofNat (k + 192) < 0x80 ∧
    isLead (UInt8.ofNat (k + 192)) = true ∧ UInt8.ofNat (k + 192) < 0xE0 ∧
    (UInt8.ofNat (k + 192)).toNat % 32 = k ∧
    ∀ j < 64, follows (UInt8.ofNat (k + 192)) (UInt8.ofNat (j + 128)) = true := by decide +kernel

/-- The lead byte of a character of three bytes; the second byte is bounded below to rule out
overlong forms and above to rule out surrogates. -/
theorem lead_three : ∀ k < 16, ¬ UInt8.ofNat (k + 224) < 0x80 ∧
    isLead (UInt8.ofNat (k + 224)) = true ∧ ¬ UInt8.ofNat (k + 224) < 0xE0 ∧
    UInt8.ofNat (k + 224) < 0xF0 ∧ (UInt8.ofNat (k + 224)).toNat % 16 = k ∧
    ∀ j < 64, (k = 0 → 32 ≤ j) → (k = 13 → j < 32) →
      follows (UInt8.ofNat (k + 224)) (UInt8.ofNat (j + 128)) = true := by decide +kernel

/-- The lead byte of a character of four bytes; the second byte is bounded below to rule out
overlong forms and above to stay within U+10FFFF. -/
theorem lead_four : ∀ k < 5, ¬ UInt8.ofNat (k + 240) < 0x80 ∧
    isLead (UInt8.ofNat (k + 240)) = true ∧ ¬ UInt8.ofNat (k + 240) < 0xE0 ∧
    ¬ UInt8.ofNat (k + 240) < 0xF0 ∧ (UInt8.ofNat (k + 240)).toNat % 8 = k ∧
    ∀ j < 64, (k = 0 → 16 ≤ j) → (k = 4 → j < 16) →
      follows (UInt8.ofNat (k + 240)) (UInt8.ofNat (j + 128)) = true := by decide +kernel

theorem ofNat_of_toNat {c : Char} {n : Nat} (h : n = c.toNat) : Char.ofNat n = c := by
  rw [h, Char.ofNat_toNat]

/-- A character is a number of Unicode that is no surrogate. -/
theorem toNat_lt_and_not_surrogate (c : Char) :
    c.toNat < 0x110000 ∧ (c.toNat < 0xD800 ∨ 0xDFFF < c.toNat) := by
  rcases c.valid with h | h <;> simp only [Char.toNat, UInt32.toNat] at * <;> omega

/-- The bytes of a character are read as that character. -/
theorem first_encodeChar (c : Char) : ∃ a tail, String.utf8EncodeChar c = a :: tail ∧
    ∀ rest, first a (tail ++ rest) = .char c := by
  have hv := toNat_lt_and_not_surrogate c
  have hc : c.val.toNat = c.toNat := rfl
  simp only [String.utf8EncodeChar, hc]
  generalize hn : c.toNat = v at hv
  -- The four lengths in turn; in each the parts of the number are those that its bytes hold.
  split
  · next h =>
    refine ⟨_, _, rfl, fun rest => ?_⟩
    have h1 : UInt8.ofNat v < 0x80 := by
      rw [UInt8.lt_iff_toNat_lt, UInt8.toNat_ofNat']
      show v % 256 < 128
      omega
    have h2 : (UInt8.ofNat v).toNat = v := by
      rw [UInt8.toNat_ofNat']; omega
    simp only [first, h1, if_true, h2, ofNat_of_toNat hn.symm]
  · split
    · next h1 h2 =>
      refine ⟨_, _, rfl, fun rest => ?_⟩
      obtain ⟨a1, a2, a3, a4, a5⟩ := lead_two (v / 64 % 32) (by omega) (by omega)
      have t1 := trail_ofNat (v % 64) (by omega)
      have f := a5 (v % 64) (by omega)
      simp only [first, List.cons_append, List.nil_append, a1, a2, a3, a4, f, t1.2,
        if_true, if_false, Bool.not_true, Bool.false_eq_true]
      rw [ofNat_of_toNat (c := c) (by omega)]
    · split
      · next h1 h2 h3 =>
        refine ⟨_, _, rfl, fun rest => ?_⟩
        obtain ⟨a1, a2, a3, a4, a5, a6⟩ := lead_three (v / 4096 % 16) (by omega)
        have f := a6 (v / 64 % 64) (by omega) (by omega) (by omega)
        have t1 := trail_ofNat (v / 64 % 64) (by omega)
        have t2 := trail_ofNat (v % 64) (by omega)
        simp only [first, List.cons_append, List.nil_append, a1, a2, a3, a4, a5, f, t1.2, t2.1,
          t2.2, if_true, if_false, Bool.not_true, Bool.false_eq_true]
        rw [ofNat_of_toNat (c := c) (by omega)]
      · next h1 h2 h3 =>
        refine ⟨_, _, rfl, fun rest => ?_⟩
        obtain ⟨a1, a2, a3, a4, a5, a6⟩ := lead_four (v / 262144 % 8) (by omega)
        have f := a6 (v / 4096 % 64) (by omega) (by omega) (by omega)
        have t0 := trail_ofNat (v / 4096 % 64) (by omega)
        have t1 := trail_ofNat (v / 64 % 64) (by omega)
        have t2 := trail_ofNat (v % 64) (by omega)
        simp only [first, List.cons_append, List.nil_append, a1, a2, a3, a4, a5, f, t0.2, t1.1,
          t1.2, t2.1, t2.2, if_false, Bool.not_true, Bool.false_eq_true]
        rw [ofNat_of_toNat (c := c) (by omega)]

/-! ## The bytes of a text -/

theorem piecesFrom_append (skipped rest : Bytes) :
    piecesFrom skipped.length (skipped ++ rest) = pieces rest := by
  induction skipped with
  | nil => rfl
  | cons b skipped ih =>
    rw [List.length_cons, List.cons_append, piecesFrom, ih]

theorem pieces_encodeChar (c : Char) (rest : Bytes) :
    pieces (String.utf8EncodeChar c ++ rest) = .char c :: pieces rest := by
  obtain ⟨a, tail, h, hf⟩ := first_encodeChar c
  have hl := String.length_utf8EncodeChar c
  rw [h, List.length_cons] at hl
  rw [h, List.cons_append, pieces, piecesFrom, hf, Piece.size, ← hl, Nat.add_sub_cancel,
    piecesFrom_append]

theorem encode_append (s t : String) : encode (s ++ t) = encode s ++ encode t := by
  simp [encode]

/-- The bytes of a text fall into its characters. -/
theorem pieces_encode (s : String) : pieces (encode s) = s.toList.map .char := by
  rw [encode]
  induction s.toList with
  | nil => rfl
  | cons c cs ih => rw [List.flatMap_cons, pieces_encodeChar, ih, List.map_cons]

theorem strict_map_char (index : Nat) (cs : List Char) :
    strict index (cs.map .char) = .ok cs := by
  induction cs generalizing index with
  | nil => rfl
  | cons c cs ih => rw [List.map_cons, strict, ih]; rfl

/-- Reading undoes writing. -/
theorem decode_encode (s : String) : decode (encode s) = .ok s := by
  rw [decode, pieces_encode, strict_map_char]
  simp [Except.map]

theorem decodeLossy_encode (s : String) : decodeLossy (encode s) = s := by
  rw [decodeLossy, pieces_encode, List.map_map]
  simp [Function.comp_def, Piece.shown]

/-! ## The bytes of what was read -/

theorem trail_toNat {b : UInt8} (h : isTrail b = true) : 128 ≤ b.toNat ∧ b.toNat < 192 := by
  simp only [isTrail, Bool.and_eq_true, decide_eq_true_eq, UInt8.le_iff_toNat_le] at h
  exact ⟨h.1, Nat.lt_succ_of_le h.2⟩

/-- The bounds of a second byte, which rule out overlong forms, surrogates and numbers above
U+10FFFF. -/
theorem follows_toNat {a b : UInt8} (h : follows a b = true) :
    128 ≤ b.toNat ∧ b.toNat < 192 ∧ (a.toNat = 224 → 160 ≤ b.toNat) ∧
      (a.toNat = 237 → b.toNat < 160) ∧ (a.toNat = 240 → 144 ≤ b.toNat) ∧
      (a.toNat = 244 → b.toNat < 144) := by
  unfold follows at h
  rw [Bool.and_eq_true] at h
  obtain ⟨low, high⟩ := trail_toNat h.1
  have hbound := h.2
  refine ⟨low, high, fun ha => ?_, fun ha => ?_, fun ha => ?_, fun ha => ?_⟩ <;>
    rw [← UInt8.ofNat_toNat (x := a), ha] at hbound <;>
    simpa [UInt8.le_iff_toNat_le, Nat.lt_succ_iff] using hbound

theorem toNat_ofNat {n : Nat} (h : n < 0xD800 ∨ 0xDFFF < n ∧ n < 0x110000) :
    (Char.ofNat n).val.toNat = n := by
  rw [Char.ofNat, dif_pos (by exact h)]
  rfl

section Lengths

variable {a b c d : UInt8}

theorem ofNat_eq {n : Nat} (h : n = b.toNat) : UInt8.ofNat n = b := by
  rw [h, UInt8.ofNat_toNat]

theorem encodeChar_one (ha : a.toNat < 128) :
    String.utf8EncodeChar (Char.ofNat a.toNat) = [a] := by
  simp only [String.utf8EncodeChar, toNat_ofNat (n := a.toNat) (by omega)]
  rw [if_pos (by omega), UInt8.ofNat_toNat]

theorem encodeChar_two (ha : 194 ≤ a.toNat ∧ a.toNat < 224) (hb : follows a b = true) :
    String.utf8EncodeChar (Char.ofNat (a.toNat % 32 * 64 + low b)) = [a, b] := by
  have hb := follows_toNat hb
  unfold low
  generalize hn : a.toNat % 32 * 64 + b.toNat % 64 = n
  simp only [String.utf8EncodeChar, toNat_ofNat (n := n) (by omega)]
  rw [if_neg (by omega), if_pos (by omega), ofNat_eq (b := a) (by omega),
    ofNat_eq (b := b) (by omega)]

theorem encodeChar_three (ha : 224 ≤ a.toNat ∧ a.toNat < 240) (hb : follows a b = true)
    (hc : isTrail c = true) :
    String.utf8EncodeChar (Char.ofNat (a.toNat % 16 * 4096 + low b * 64 + low c)) =
      [a, b, c] := by
  have hb := follows_toNat hb
  have hc := trail_toNat hc
  unfold low
  generalize hn : a.toNat % 16 * 4096 + b.toNat % 64 * 64 + c.toNat % 64 = n
  simp only [String.utf8EncodeChar, toNat_ofNat (n := n) (by omega)]
  rw [if_neg (by omega), if_neg (by omega), if_pos (by omega), ofNat_eq (b := a) (by omega),
    ofNat_eq (b := b) (by omega), ofNat_eq (b := c) (by omega)]

theorem encodeChar_four (ha : 240 ≤ a.toNat ∧ a.toNat ≤ 244) (hb : follows a b = true)
    (hc : isTrail c = true) (hd : isTrail d = true) :
    String.utf8EncodeChar
        (Char.ofNat (a.toNat % 8 * 262144 + low b * 4096 + low c * 64 + low d)) =
      [a, b, c, d] := by
  have hb := follows_toNat hb
  have hc := trail_toNat hc
  have hd := trail_toNat hd
  unfold low
  generalize hn :
    a.toNat % 8 * 262144 + b.toNat % 64 * 4096 + c.toNat % 64 * 64 + d.toNat % 64 = n
  simp only [String.utf8EncodeChar, toNat_ofNat (n := n) (by omega)]
  rw [if_neg (by omega), if_neg (by omega), if_neg (by omega), ofNat_eq (b := a) (by omega),
    ofNat_eq (b := b) (by omega), ofNat_eq (b := c) (by omega), ofNat_eq (b := d) (by omega)]

end Lengths

/-- The bytes that are read as a character are the bytes of the character. -/
theorem encodeChar_of_first {a : UInt8} {rest : Bytes} {c : Char} (h : first a rest = .char c) :
    ∃ tail rest', rest = tail ++ rest' ∧ String.utf8EncodeChar c = a :: tail := by
  unfold first at h
  split at h
  · next hone =>
    obtain rfl := Piece.char.inj h
    exact ⟨[], rest, rfl, encodeChar_one (UInt8.lt_iff_toNat_lt.1 hone)⟩
  split at h
  · cases h
  next hlead =>
  have hlead : 194 ≤ a.toNat ∧ a.toNat ≤ 244 := by
    simpa [isLead, UInt8.le_iff_toNat_le] using hlead
  obtain - | ⟨b, rest⟩ := rest
  · cases h
  dsimp only at h
  split at h
  · cases h
  next hb =>
  have hb : follows a b = true := by simpa using hb
  split at h
  · next htwo =>
    obtain rfl := Piece.char.inj h
    exact ⟨[b], rest, rfl, encodeChar_two ⟨hlead.1, UInt8.lt_iff_toNat_lt.1 htwo⟩ hb⟩
  next htwo =>
  have htwo : 224 ≤ a.toNat := Nat.not_lt.1 fun h => htwo (UInt8.lt_iff_toNat_lt.2 h)
  obtain - | ⟨c', rest⟩ := rest
  · cases h
  dsimp only at h
  split at h
  · cases h
  next hc =>
  have hc : isTrail c' = true := by simpa using hc
  split at h
  · next hthree =>
    obtain rfl := Piece.char.inj h
    exact ⟨[b, c'], rest, rfl, encodeChar_three ⟨htwo, UInt8.lt_iff_toNat_lt.1 hthree⟩ hb hc⟩
  next hthree =>
  have hthree : 240 ≤ a.toNat := Nat.not_lt.1 fun h => hthree (UInt8.lt_iff_toNat_lt.2 h)
  obtain - | ⟨d, rest⟩ := rest
  · cases h
  dsimp only at h
  split at h
  · cases h
  next hd =>
  obtain rfl := Piece.char.inj h
  exact ⟨[b, c', d], rest, rfl, encodeChar_four ⟨hthree, hlead.2⟩ hb hc (by simpa using hd)⟩

/-- Bytes that fall into characters alone are the bytes of these characters. -/
theorem eq_of_pieces {bs : Bytes} {cs : List Char} (h : pieces bs = cs.map .char) :
    bs = cs.flatMap String.utf8EncodeChar := by
  induction cs generalizing bs with
  | nil =>
    cases bs with
    | nil => rfl
    | cons a rest => cases h
  | cons c cs ih =>
    cases bs with
    | nil => cases h
    | cons a rest =>
      rw [pieces, piecesFrom, List.map_cons] at h
      obtain ⟨hfirst, hrest⟩ := List.cons.inj h
      obtain ⟨tail, rest', rfl, hbytes⟩ := encodeChar_of_first hfirst
      have hsize := String.length_utf8EncodeChar c
      rw [hbytes, List.length_cons] at hsize
      rw [hfirst, Piece.size, ← hsize, Nat.add_sub_cancel, piecesFrom_append] at hrest
      rw [List.flatMap_cons, hbytes, ← ih hrest, List.cons_append]

/-- The strict reader accepts characters alone. -/
theorem eq_map_char_of_strict {index : Nat} {ps : List Piece} {cs : List Char}
    (h : strict index ps = .ok cs) : ps = cs.map .char := by
  induction ps generalizing index cs with
  | nil => cases h; rfl
  | cons p ps ih =>
    cases p with
    | broken n => cases h
    | cut n => cases h
    | char c =>
      rw [strict] at h
      cases hps : strict (index + c.utf8Size) ps with
      | error f => rw [hps] at h; cases h
      | ok cs' =>
        rw [hps] at h
        cases h
        rw [List.map_cons, ih hps]

/-- Writing undoes reading. -/
theorem encode_of_decode {bs : Bytes} {s : String} (h : decode bs = .ok s) : encode s = bs := by
  unfold decode at h
  cases hstrict : strict 0 (pieces bs) with
  | error f => rw [hstrict] at h; cases h
  | ok cs =>
    rw [hstrict] at h
    cases h
    rw [encode, String.toList_ofList, ← eq_of_pieces (eq_map_char_of_strict hstrict)]

end PgClient.Utf8
