/-
  PgClient.Text.Integer.Lemmas

  An integer may be written with a sign and with zeros in front. Every range that
  holds it reads each of these spellings (`read_spelled`), and what is written is
  one of them (`spells_text`).
-/
import PgClient.Text.Integer

namespace PgClient.Integer

/-! ## Digits -/

/-- Further digits never make a number smaller. -/
theorem le_ofDigitChars (acc : Nat) (ds : List Char) : acc ≤ Nat.ofDigitChars 10 ds acc := by
  induction ds generalizing acc with
  | nil => simp [Nat.ofDigitChars]
  | cons d ds ih =>
    rw [Nat.ofDigitChars_cons]
    exact Nat.le_trans (by omega) (ih _)

/-- Digits that stay within the limit spell their number. -/
theorem digits_eq {limit acc : Nat} {beyond : Fault} {ds : List Char}
    (hd : ∀ c ∈ ds, c.isDigit = true) (h : Nat.ofDigitChars 10 ds acc ≤ limit) :
    digits limit beyond acc ds = .ok (Nat.ofDigitChars 10 ds acc) := by
  induction ds generalizing acc with
  | nil => rfl
  | cons d ds ih =>
    rw [Nat.ofDigitChars_cons] at h ⊢
    have hle := Nat.le_trans (le_ofDigitChars _ ds) h
    have hz : '0'.toNat = 48 := rfl
    rw [Nat.mul_comm] at h hle ⊢
    rw [digits, if_pos (hd d (by simp))]
    simp only [hz] at *
    rw [if_pos hle, ih (fun c hc => hd c (by simp [hc])) h]

/-! ## Spellings -/

/-- The digits of a number, with zeros in front or without. -/
structure Numeral (n : Nat) (ds : List Char) : Prop where
  nonempty : ds ≠ []
  plain : ∀ c ∈ ds, c.isDigit = true
  value : Nat.ofDigitChars 10 ds 0 = n

/-- The ways in which an integer may be written. -/
inductive Spells : Int → List Char → Prop
  | plain {n : Nat} {ds : List Char} (numeral : Numeral n ds) : Spells n ds
  | plus {n : Nat} {ds : List Char} (numeral : Numeral n ds) : Spells n ('+' :: ds)
  | minus {n : Nat} {ds : List Char} (numeral : Numeral n ds) (hn : 0 < n) :
      Spells (-n) ('-' :: ds)

namespace Numeral

variable {n limit : Nat} {beyond : Fault} {ds : List Char}

theorem natural (n : Nat) : Numeral n (natural n) where
  nonempty := Nat.toDigits_ne_nil
  plain _ hc := Nat.isDigit_of_mem_toDigits (by decide) (by decide) hc
  value := Nat.ofDigitChars_ten_toDigits

/-- The digits of a number within the limit are read as that number. -/
theorem digits_eq_ok (h : Numeral n ds) (hn : n ≤ limit) : digits limit beyond 0 ds = .ok n := by
  rw [digits_eq h.plain (h.value.symm ▸ hn), h.value]

theorem notMem {c : Char} (h : Numeral n ds) (hc : c.isDigit = false) : c ∉ ds := fun hmem =>
  Bool.false_ne_true (hc.symm.trans (h.plain c hmem))

/-- The first digit is not taken for a sign. -/
theorem eq_cons (h : Numeral n ds) : ∃ d rest, ds = d :: rest ∧ d ≠ '+' ∧ d ≠ '-' := by
  obtain ⟨d, rest, rfl⟩ := List.exists_cons_of_ne_nil h.nonempty
  have hd : d.isDigit = true := h.plain d List.mem_cons_self
  refine ⟨d, rest, rfl, ?_, ?_⟩
  · rintro rfl
    cases hd
  · rintro rfl
    cases hd

end Numeral

/-- An integer is read whichever way it is written, by every range that holds it. -/
theorem read_spelled {low high m : Int} {cs : List Char} (h : Spells m cs) (hl : low ≤ m)
    (hh : m ≤ high) : read low high cs = .ok m := by
  cases h with
  | @plain n _ numeral =>
    obtain ⟨d, rest, rfl, hplus, hminus⟩ := numeral.eq_cons
    have hdigits : digits high.toNat .tooLarge 0 (d :: rest) = .ok n :=
      numeral.digits_eq_ok (by omega)
    rw [read, hdigits]
    · rfl
    all_goals simp [hplus, hminus]
  | @plus n ds numeral =>
    have hdigits : digits high.toNat .tooLarge 0 ds = .ok n := numeral.digits_eq_ok (by omega)
    rw [read, hdigits]
    · rfl
    · simp [numeral.nonempty]
  | @minus n ds numeral hn =>
    -- The range reaches below zero, as the number does.
    have hdigits : digits (-low).toNat .tooSmall 0 ds = .ok n := numeral.digits_eq_ok (by omega)
    rw [read, if_pos (by omega), hdigits]
    · rfl
    · simp [numeral.nonempty]

theorem Spells.ne_nil {n : Int} {cs : List Char} (h : Spells n cs) : cs ≠ [] := by
  cases h with
  | plain numeral => exact numeral.nonempty
  | plus | minus => exact List.cons_ne_nil _ _

/-- An integer is spelled with digits and signs only. -/
theorem Spells.notMem {n : Int} {cs : List Char} {c : Char} (h : Spells n cs)
    (hc : c ≠ '+' ∧ c ≠ '-' ∧ c.isDigit = false) : c ∉ cs := by
  obtain ⟨hplus, hminus, hdigit⟩ := hc
  cases h with
  | plain numeral => exact numeral.notMem hdigit
  | plus numeral => exact List.not_mem_cons_of_ne_of_not_mem hplus (numeral.notMem hdigit)
  | minus numeral => exact List.not_mem_cons_of_ne_of_not_mem hminus (numeral.notMem hdigit)

/-! ## Written integers -/

/-- Reading undoes writing because what is written is one of the spellings. -/
theorem spells_text (n : Int) : Spells n (text n) := by
  have numeral := Numeral.natural n.natAbs
  unfold text
  split
  · have hspells := Spells.minus numeral (by omega)
    rwa [show -(n.natAbs : Int) = n by omega] at hspells
  · have hspells := Spells.plain numeral
    rwa [show (n.natAbs : Int) = n by omega] at hspells

theorem spells_natural (n : Nat) : Spells n (String.ofList (natural n)).toList := by
  rw [String.toList_ofList]
  exact .plain (.natural n)

/-- The text of an integer is made of digits and, perhaps, a minus sign. -/
theorem mem_text {n : Int} {c : Char} (hc : c ∈ text n) : c = '-' ∨ c.isDigit = true := by
  have numeral := Numeral.natural n.natAbs
  unfold text at hc
  split at hc
  · exact (List.mem_cons.1 hc).imp_right (numeral.plain c)
  · exact .inr (numeral.plain c hc)

theorem text_ne_nil (n : Int) : text n ≠ [] := (spells_text n).ne_nil

/-! ## The ranges in use -/

theorem readUInt16_spelled {n : UInt16} {cs : List Char} (h : Spells n.toNat cs) :
    readUInt16 cs = .ok n := by
  have hn := n.toNat_lt
  rw [readUInt16, read_spelled h (by omega) (by omega)]
  exact congrArg Except.ok n.ofNat_toNat

theorem readUInt32_spelled {n : UInt32} {cs : List Char} (h : Spells n.toNat cs) :
    readUInt32 cs = .ok n := by
  have hn := n.toNat_lt
  rw [readUInt32, read_spelled h (by omega) (by omega)]
  exact congrArg Except.ok n.ofNat_toNat

theorem readUInt64_spelled {n : UInt64} {cs : List Char} (h : Spells n.toNat cs) :
    readUInt64 cs = .ok n := by
  have hn := n.toNat_lt
  rw [readUInt64, read_spelled h (by omega) (by omega)]
  exact congrArg Except.ok n.ofNat_toNat

theorem readInt32_spelled {n : Int32} {cs : List Char} (h : Spells n.toInt cs) :
    readInt32 cs = .ok n := by
  have hlow := n.le_toInt
  have hhigh := n.toInt_lt
  rw [readInt32, read_spelled h (by omega) (by omega)]
  exact congrArg Except.ok n.ofInt_toInt

theorem readInt64_spelled {n : Int64} {cs : List Char} (h : Spells n.toInt cs) :
    readInt64 cs = .ok n := by
  have hlow := n.le_toInt
  have hhigh := n.toInt_lt
  rw [readInt64, read_spelled h (by omega) (by omega)]
  exact congrArg Except.ok n.ofInt_toInt

end PgClient.Integer
