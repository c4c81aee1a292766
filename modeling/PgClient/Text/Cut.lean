/-
  PgClient.Text.Cut

  Cutting a text at a delimiter: at its first occurrence, at its last, at every
  one. `cutFirst_append`, `cutLast_append`, `splitAt_append` and
  `splitAt_intercalate` say where the cut falls; `eq_of_cutFirst`,
  `eq_of_cutLast` and `eq_of_stripLead` put the parts together again.
-/

namespace PgClient.Text

variable {α : Type} [DecidableEq α]

/-- What stands before and after the first `d`. -/
def cutFirst (d : α) : List α → Option (List α × List α)
  | [] => none
  | c :: rest => if c = d then some ([], rest) else (cutFirst d rest).map fun (a, b) => (c :: a, b)

/-- What stands before and after the last `d`. -/
def cutLast (d : α) : List α → Option (List α × List α)
  | [] => none
  | c :: rest =>
    match cutLast d rest with
    | some (a, b) => some (c :: a, b)
    | none => if c = d then some ([], rest) else none

/-- The parts between the occurrences of `d`, always at least one. -/
def splitAt (d : α) : List α → List (List α)
  | [] => [[]]
  | c :: rest =>
    if c = d then [] :: splitAt d rest
    else match splitAt d rest with
      | part :: parts => (c :: part) :: parts
      | [] => [[c]]

/-- What follows `lead`, if the text starts with it. -/
def stripLead : List α → List α → Option (List α)
  | [], cs => some cs
  | _ :: _, [] => none
  | p :: ps, c :: cs => if p = c then stripLead ps cs else none

/-! ## Where a cut falls -/

theorem cutFirst_append {d : α} {a b : List α} (h : d ∉ a) :
    cutFirst d (a ++ d :: b) = some (a, b) := by
  induction a with
  | nil => simp [cutFirst]
  | cons c a ih =>
    simp only [List.mem_cons, not_or] at h
    simp [cutFirst, ih h.2, Ne.symm h.1]

theorem cutLast_eq_none {d : α} {a : List α} (h : d ∉ a) : cutLast d a = none := by
  induction a with
  | nil => rfl
  | cons c a ih =>
    simp only [List.mem_cons, not_or] at h
    simp [cutLast, ih h.2, Ne.symm h.1]

theorem cutLast_append {d : α} {a b : List α} (h : d ∉ b) :
    cutLast d (a ++ d :: b) = some (a, b) := by
  induction a with
  | nil => simp [cutLast, cutLast_eq_none h]
  | cons c a ih => simp [cutLast, ih]

theorem splitAt_ne_nil (d : α) (cs : List α) : splitAt d cs ≠ [] := by
  cases cs with
  | nil => simp [splitAt]
  | cons c rest =>
    rw [splitAt]
    split
    · simp
    · split <;> simp

/-- The first part ends where the first `d` is. -/
theorem splitAt_append {d : α} {a b : List α} (h : d ∉ a) :
    splitAt d (a ++ d :: b) = a :: splitAt d b := by
  induction a with
  | nil => simp [splitAt]
  | cons c a ih =>
    simp only [List.mem_cons, not_or] at h
    simp [splitAt, ih h.2, Ne.symm h.1]

theorem splitAt_eq_singleton {d : α} {a : List α} (h : d ∉ a) : splitAt d a = [a] := by
  induction a with
  | nil => rfl
  | cons c a ih =>
    simp only [List.mem_cons, not_or] at h
    simp [splitAt, ih h.2, Ne.symm h.1]

/-- Parts without the delimiter are cut apart again where they were joined. -/
theorem splitAt_intercalate {d : α} {part : List α} {parts : List (List α)}
    (h : ∀ p ∈ part :: parts, d ∉ p) :
    splitAt d ([d].intercalate (part :: parts)) = part :: parts := by
  induction parts generalizing part with
  | nil => rw [List.intercalate_singleton, splitAt_eq_singleton (h part List.mem_cons_self)]
  | cons next parts ih =>
    rw [List.intercalate_cons_cons, List.append_assoc, List.singleton_append,
      splitAt_append (h part List.mem_cons_self), ih fun p hp => h p (List.mem_cons_of_mem _ hp)]

theorem stripLead_append (lead rest : List α) : stripLead lead (lead ++ rest) = some rest := by
  induction lead with
  | nil => rfl
  | cons c lead ih => simp [stripLead, ih]

/-! ## What a cut leaves -/

variable {d : α} {cs a b : List α}

theorem eq_of_cutFirst (h : cutFirst d cs = some (a, b)) : cs = a ++ d :: b := by
  induction cs generalizing a with
  | nil => cases h
  | cons c cs ih =>
    rw [cutFirst] at h
    by_cases hc : c = d
    · rw [if_pos hc] at h
      cases h
      rw [hc]
      rfl
    · rw [if_neg hc] at h
      obtain ⟨⟨front, back⟩, hcut, hparts⟩ := Option.map_eq_some_iff.1 h
      cases hparts
      rw [ih hcut]
      rfl

theorem eq_of_cutLast (h : cutLast d cs = some (a, b)) : cs = a ++ d :: b := by
  induction cs generalizing a with
  | nil => cases h
  | cons c cs ih =>
    rw [cutLast] at h
    rcases hcut : cutLast d cs with _ | ⟨front, back⟩
    · rw [hcut] at h
      dsimp only at h
      by_cases hc : c = d
      · rw [if_pos hc] at h
        cases h
        rw [hc]
        rfl
      · rw [if_neg hc] at h
        cases h
    · rw [hcut] at h
      cases h
      rw [ih hcut]
      rfl

/-- An element that is not in a list is in neither part of it. -/
theorem notMem_cutFirst {x : α} (h : x ∉ cs) :
    x ∉ ((cutFirst d cs).getD (cs, [])).1 ∧ x ∉ ((cutFirst d cs).getD (cs, [])).2 := by
  cases hcut : cutFirst d cs with
  | none => exact ⟨h, nofun⟩
  | some parts =>
    rw [eq_of_cutFirst hcut, List.mem_append, List.mem_cons, not_or, not_or] at h
    exact ⟨h.1, h.2.2⟩

theorem notMem_cutLast {x : α} (h : x ∉ cs) :
    x ∉ ((cutLast d cs).getD ([], cs)).1 ∧ x ∉ ((cutLast d cs).getD ([], cs)).2 := by
  cases hcut : cutLast d cs with
  | none => exact ⟨nofun, h⟩
  | some parts =>
    rw [eq_of_cutLast hcut, List.mem_append, List.mem_cons, not_or, not_or] at h
    exact ⟨h.1, h.2.2⟩

theorem subset_of_mem_splitAt (h : a ∈ splitAt d cs) : a ⊆ cs := by
  induction cs generalizing a with
  | nil =>
    obtain rfl := List.mem_singleton.1 h
    exact List.Subset.refl _
  | cons c cs ih =>
    rw [splitAt] at h
    by_cases hc : c = d
    · rw [if_pos hc] at h
      obtain rfl | h := List.mem_cons.1 h
      · exact List.nil_subset _
      · exact List.subset_cons_of_subset c (ih h)
    · rw [if_neg hc] at h
      rcases hsplit : splitAt d cs with _ | ⟨part, parts⟩
      · exact absurd hsplit (splitAt_ne_nil d cs)
      · rw [hsplit] at h ih
        obtain rfl | h := List.mem_cons.1 h
        · exact List.cons_subset_cons c (ih List.mem_cons_self)
        · exact List.subset_cons_of_subset c (ih (List.mem_cons_of_mem _ h))

theorem eq_of_stripLead {lead rest : List α} (h : stripLead lead cs = some rest) :
    cs = lead ++ rest := by
  induction lead generalizing cs with
  | nil =>
    cases h
    rfl
  | cons p lead ih =>
    cases cs with
    | nil => cases h
    | cons c cs =>
      rw [stripLead] at h
      by_cases hp : p = c
      · rw [if_pos hp] at h
        rw [hp, ih h]
        rfl
      · rw [if_neg hp] at h
        cases h

end PgClient.Text
