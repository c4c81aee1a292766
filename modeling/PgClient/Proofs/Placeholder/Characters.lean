/-
  PgClient.Proofs.Placeholder.Characters

  Where the characters of converted SQL come from. The scan copies them from the
  text, or puts a dollar sign for a colon; all others belong to the numbers of
  placeholders.
-/
import PgClient.Proofs.Message.Layout
import PgClient.Proofs.Placeholder.Numbering
import PgClient.Proofs.Steps

namespace PgClient.Placeholder

open Steps

variable {style : Style}

/-- One step gives no plain character but the one at hand, the next one and the dollar sign. -/
theorem plain_of_take {behind : Behind} {offset : Nat} {c d : Char} {next : Option Char}
    {mode : Mode} {taken : Taken} (h : take style behind offset c next mode = .ok taken)
    (hd : .plain d ∈ taken.pieces) : d = c ∨ next = some d ∨ d = '$' := by
  unfold take at h
  -- Each case of a step lists the pieces that it gives.
  repeat' split at h
  all_goals cases h
  all_goals
    simp only [Taken.one, Taken.two, Taken.silent, List.mem_cons, List.not_mem_nil, or_false,
      Piece.plain.injEq, reduceCtorEq] at hd
  all_goals grind

/-- Nor does the scan of a whole text. -/
theorem plain_of_scan {mode : Mode} {behind : Behind} {offset : Nat} {cs : List Char}
    {ps : List Piece} (h : scan style mode behind offset cs = .ok ps) {d : Char}
    (hd : .plain d ∈ ps) : d ∈ cs ∨ d = '$' := by
  induction mode, behind, offset, cs using scan.induct generalizing ps with
  | case1 => cases h
  | case2 mode behind offset hmode =>
    have hnothing : ps = [] := by
      cases mode with
      | parens start read => exact absurd rfl (hmode start read)
      | _ =>
        cases h
        rfl
    rw [hnothing] at hd
    cases hd
  | case3 mode behind offset c ih =>
    rw [scan] at h
    obtain ⟨taken, htake, h⟩ := bind_eq_ok_iff.1 h
    obtain ⟨rest, hrest, h⟩ := bind_eq_ok_iff.1 h
    cases h
    obtain hd | hd := List.mem_append.1 hd
    · obtain rfl | hnext | rfl := plain_of_take htake hd
      · exact .inl List.mem_cons_self
      · cases hnext
      · exact .inr rfl
    · exact (ih taken hrest hd).imp_left (List.mem_cons_of_mem _)
  | case4 mode behind offset c c' others ihtwo ihone =>
    rw [scan] at h
    obtain ⟨taken, htake, h⟩ := bind_eq_ok_iff.1 h
    -- What comes after this step is some of the rest, whether the step takes one character or two.
    have hafter : ∃ rest, ps = taken.pieces ++ rest ∧
        (.plain d ∈ rest → d ∈ c' :: others ∨ d = '$') := by
      by_cases pair : taken.pair = true
      · rw [if_pos pair] at h
        obtain ⟨rest, hrest, h⟩ := bind_eq_ok_iff.1 h
        cases h
        exact ⟨rest, rfl, fun hd => (ihtwo taken hrest hd).imp_left (List.mem_cons_of_mem _)⟩
      · rw [if_neg pair] at h
        obtain ⟨rest, hrest, h⟩ := bind_eq_ok_iff.1 h
        cases h
        exact ⟨rest, rfl, ihone taken hrest⟩
    obtain ⟨rest, rfl, hrest⟩ := hafter
    obtain hd | hd := List.mem_append.1 hd
    · obtain rfl | hnext | rfl := plain_of_take htake hd
      · exact .inl List.mem_cons_self
      · cases hnext
        exact .inl (List.mem_cons_of_mem _ List.mem_cons_self)
      · exact .inr rfl
    · exact (hrest hd).imp_left (List.mem_cons_of_mem _)

/-- What is written besides plain characters are the numbers of placeholders. -/
theorem mem_filled {names : List (List Char)} {count : Nat} {ps : List Piece} {d : Char}
    (h : d ∈ filled names count ps) : .plain d ∈ ps ∨ d = '$' ∨ d.isDigit := by
  have hnumbered {n : Nat} (h : d ∈ numbered n) : d = '$' ∨ d.isDigit :=
    (List.mem_cons.1 h).imp_right (Nat.isDigit_of_mem_toDigits (by decide) (by decide))
  induction ps generalizing count with
  | nil => cases h
  | cons p ps ih =>
    cases p with
    | plain c =>
      obtain rfl | h := List.mem_cons.1 h
      · exact .inl List.mem_cons_self
      · exact (ih h).imp_left (List.mem_cons_of_mem _)
    | positional | named =>
      obtain h | h := List.mem_append.1 h
      · exact .inr (hnumbered h)
      · exact (ih h).imp_left (List.mem_cons_of_mem _)

/-- Every character of converted SQL is one of the SQL, a dollar sign or a digit. -/
theorem mem_convert {sql text : String} {order : Order} (h : convert style sql = .ok (text, order))
    {d : Char} (hd : d ∈ text.toList) : d ∈ sql.toList ∨ d = '$' ∨ d.isDigit := by
  rw [convert_eq] at h
  obtain ⟨ps, hpieces, h⟩ := bind_eq_ok_iff.1 h
  obtain ⟨-, h⟩ := when_eq_ok_iff.1 h
  cases h
  rw [String.toList_ofList] at hd
  obtain hplain | hnumber := mem_filled hd
  · exact (plain_of_scan hpieces hplain).imp_right .inl
  · exact .inr hnumber

/-- A text is converted to a text. -/
theorem isText_convert {sql text : String} {order : Order}
    (h : convert style sql = .ok (text, order)) (hsql : Wire.IsText sql) : Wire.IsText text := by
  intro hmem
  obtain hmem | hother := mem_convert h hmem
  · exact hsql hmem
  · exact absurd hother (by decide)

end PgClient.Placeholder
