/-
  PgClient.Proofs.Placeholder.Numbering

  The numbers of placeholders. They are given out from the left, while the list
  of names still grows; but a name keeps the place that it was given, so the text
  is the same as if all names had been known beforehand. Each value is taken out
  of the arguments once, which is enough since no name is on the list twice.
-/
import Mathlib.Data.List.Nodup
import PgClient.Placeholder.Arguments
import PgClient.Proofs.Steps

namespace PgClient.Placeholder

/-! ## Names known beforehand -/

/-- The name of a placeholder that has one. -/
def Piece.name? : Piece → Option (List Char)
  | .named name => some name
  | _ => none

/-- The names of a text's placeholders in the order of their first use. -/
def names (ps : List Piece) : List (List Char) :=
  (ps.filterMap Piece.name?).eraseDups

/-- The text with numbered placeholders: placeholders without a name are counted from
`count + 1`, a name has its place in `names`. -/
def filled (names : List (List Char)) (count : Nat) : List Piece → List Char
  | [] => []
  | .plain c :: rest => c :: filled names count rest
  | .positional :: rest => numbered (count + 1) ++ filled names (count + 1) rest
  | .named name :: rest => numbered (names.idxOf name + 1) ++ filled names count rest

/-- Plain text is written as it is. -/
theorem filled_plain (names : List (List Char)) (count : Nat) (text : List Char)
    (ps : List Piece) :
    filled names count (text.map .plain ++ ps) = text ++ filled names count ps := by
  induction text with
  | nil => rfl
  | cons c text ih => exact congrArg (c :: ·) ih

/-- One more item is a new one, or it was there before. -/
theorem eraseDups_append_singleton {α : Type} [BEq α] [LawfulBEq α] (as : List α) (a : α) :
    (as ++ [a]).eraseDups = if a ∈ as then as.eraseDups else as.eraseDups ++ [a] := by
  rw [List.eraseDups_append, List.cons_removeAll]
  by_cases h : a ∈ as <;> simp [h, List.eraseDups_cons]

/-! ## One name -/

namespace Known

variable (known : Known) (name : List Char)

/-- A name is known, or it is put at the end. -/
theorem number_cases :
    (name ∈ known.names ∧ known.number name = (known.names.idxOf name + 1, known)) ∨
      (name ∉ known.names ∧ known.number name =
        (known.names.length + 1, { known with names := known.names ++ [name] })) := by
  unfold number
  cases hplace : known.names.idxOf? name with
  | none => exact .inr ⟨List.idxOf?_eq_none_iff.1 hplace, rfl⟩
  | some i =>
    refine .inl ⟨List.isSome_idxOf?.1 (hplace ▸ rfl), ?_⟩
    rw [List.idxOf_eq_getD_idxOf?, hplace, Option.getD_some]

theorem count_number : (known.number name).2.count = known.count := by
  obtain ⟨-, hnumber⟩ | ⟨-, hnumber⟩ := known.number_cases name <;> rw [hnumber]

theorem mem_number : name ∈ (known.number name).2.names := by
  obtain ⟨hmem, hnumber⟩ | ⟨-, hnumber⟩ := known.number_cases name
  · rw [hnumber]
    exact hmem
  · rw [hnumber]
    exact List.mem_append_right _ List.mem_cons_self

/-- No place that was given out changes. -/
theorem prefix_number : known.names <+: (known.number name).2.names := by
  obtain ⟨-, hnumber⟩ | ⟨-, hnumber⟩ := known.number_cases name
  · exact hnumber ▸ List.prefix_rfl
  · rw [hnumber]
    exact List.prefix_append _ _

theorem nodup_number (h : known.names.Nodup) : (known.number name).2.names.Nodup := by
  obtain ⟨-, hnumber⟩ | ⟨hnew, hnumber⟩ := known.number_cases name
  · rw [hnumber]
    exact h
  · rw [hnumber]
    exact List.nodup_append.2 ⟨h, List.nodup_singleton _, fun a ha b hb hab =>
      hnew (List.mem_singleton.1 hb ▸ hab ▸ ha)⟩

/-- The number of a name is its place in the list that it leaves. -/
theorem number_eq : (known.number name).1 = (known.number name).2.names.idxOf name + 1 := by
  obtain ⟨-, hnumber⟩ | ⟨hnew, hnumber⟩ := known.number_cases name
  · rw [hnumber]
  · rw [hnumber, List.idxOf_append_of_notMem hnew, List.idxOf_cons_self, Nat.add_zero]

/-- The names after some uses and one more. -/
theorem names_number {used : List (List Char)} (h : known.names = used.eraseDups) :
    (known.number name).2.names = (used ++ [name]).eraseDups := by
  have hlast := eraseDups_append_singleton used name
  have hmem : name ∈ known.names ↔ name ∈ used := by rw [h, List.mem_eraseDups]
  obtain ⟨hold, hnumber⟩ | ⟨hnew, hnumber⟩ := known.number_cases name
  · rw [hnumber, hlast, if_pos (hmem.1 hold), h]
  · rw [hnumber, hlast, if_neg (mt hmem.2 hnew), h]

end Known

/-! ## A whole text -/

section Render

variable (known : Known) (ps : List Piece)

/-- The list of names grows at its end. -/
theorem prefix_render : known.names <+: (render known ps).2.names := by
  induction ps generalizing known with
  | nil => exact List.prefix_rfl
  | cons p rest ih =>
    cases p with
    | plain => exact ih known
    | positional => exact ih { known with count := known.count + 1 }
    | named name => exact (known.prefix_number name).trans (ih _)

/-- No name is put on the list twice. -/
theorem nodup_render (h : known.names.Nodup) : (render known ps).2.names.Nodup := by
  induction ps generalizing known with
  | nil => exact h
  | cons p rest ih =>
    cases p with
    | plain | positional => exact ih _ h
    | named name => exact ih _ (known.nodup_number name h)

theorem count_render : (render known ps).2.count = known.count + ps.count .positional := by
  induction ps generalizing known with
  | nil => rfl
  | cons p rest ih =>
    cases p with
    | plain c => exact (ih known).trans (by simp)
    | positional =>
      refine (ih { known with count := known.count + 1 }).trans ?_
      rw [List.count_cons_self]
      dsimp only
      omega
    | named name =>
      refine (ih (known.number name).2).trans ?_
      rw [known.count_number name]
      simp

/-- The names at the end of a text are those of its first uses. -/
theorem names_render (used : List (List Char)) (h : known.names = used.eraseDups) :
    (render known ps).2.names = (used ++ ps.filterMap Piece.name?).eraseDups := by
  induction ps generalizing known used with
  | nil =>
    rw [List.filterMap_nil, List.append_nil]
    exact h
  | cons p rest ih =>
    cases p with
    | plain | positional => exact ih _ used h
    | named name =>
      refine (ih _ _ (known.names_number name h)).trans ?_
      rw [List.append_assoc]
      rfl

/-- The text is the one that the names at its end give. -/
theorem text_render :
    (render known ps).1 = filled (render known ps).2.names known.count ps := by
  induction ps generalizing known with
  | nil => rfl
  | cons p rest ih =>
    cases p with
    | plain c => exact congrArg (c :: ·) (ih known)
    | positional => exact congrArg (numbered (known.count + 1) ++ ·) (ih _)
    | named name =>
      -- The number is a place in a shorter list, of which the names at the end go on.
      have hplace : (known.number name).2.names.idxOf name =
          (render (known.number name).2 rest).2.names.idxOf name := by
        obtain ⟨more, hmore⟩ := prefix_render (known.number name).2 rest
        rw [← hmore, List.idxOf_append_of_mem (known.mem_number name)]
      have hrest := ih (known.number name).2
      rw [known.count_number name] at hrest
      show numbered (known.number name).1 ++ (render (known.number name).2 rest).1 =
        numbered ((render (known.number name).2 rest).2.names.idxOf name + 1) ++
          filled (render (known.number name).2 rest).2.names known.count rest
      rw [hrest, known.number_eq name, hplace]

end Render

/-- A text is converted with the names of its placeholders known beforehand. -/
theorem convert_eq (style : Style) (sql : String) :
    convert style sql = (do
      let ps ← pieces style sql.toList
      if names ps ≠ [] ∧ 0 < ps.count .positional then throw .mixed
      return (String.ofList (filled (names ps) 0 ps),
        Known.order style ⟨names ps, ps.count .positional⟩)) := by
  unfold convert
  refine bind_congr fun ps => ?_
  have hnames : (render {} ps).2.names = names ps := names_render {} ps [] rfl
  have hcount : (render {} ps).2.count = ps.count .positional :=
    (count_render {} ps).trans (Nat.zero_add _)
  have hrender : render {} ps = (filled (names ps) 0 ps, ⟨names ps, ps.count .positional⟩) := by
    rw [← hnames, ← hcount]
    exact Prod.ext (text_render {} ps) rfl
  rw [hrender]

/-! ## Values -/

/-- Where the entries of one name are taken out, those of the others are left. -/
theorem lookup_filter {entries : List (String × Value)} {name other : String}
    (h : other ≠ name) : (entries.filter (·.1 ≠ name)).lookup other = entries.lookup other := by
  induction entries with
  | nil => rfl
  | cons e entries ih =>
    obtain ⟨first, v⟩ := e
    by_cases hfirst : first = name
    · rw [List.filter_cons_of_neg (by simpa using hfirst), ih, List.lookup_cons,
        beq_false_of_ne (hfirst ▸ h)]
    · rw [List.filter_cons_of_pos (by simpa using hfirst), List.lookup_cons, List.lookup_cons, ih]

/-- Distinct names get their values, if they all have one. -/
theorem collect_eq_ok_iff {entries : List (String × Value)} {names : List String}
    {values : List Value} (hdistinct : names.Nodup) :
    collect entries names = .ok values ↔
      names.map (fun name => entries.lookup name) = values.map some := by
  induction names generalizing entries values with
  | nil =>
    rw [collect, List.map_nil, eq_comm (a := []), List.map_eq_nil_iff]
    exact ⟨fun h => (Except.ok.inj h).symm, fun h => h ▸ rfl⟩
  | cons name names ih =>
    obtain ⟨hname, hdistinct⟩ := List.nodup_cons.1 hdistinct
    -- The names that are left do not miss the value that was taken out.
    have hothers : names.map (fun other => (entries.filter (·.1 ≠ name)).lookup other) =
        names.map (fun other => entries.lookup other) :=
      List.map_congr_left fun other hother =>
        lookup_filter (ne_of_mem_of_not_mem hother hname)
    rw [collect, List.map_cons]
    cases hv : entries.lookup name with
    | none => exact ⟨nofun, fun h => by cases values <;> cases h⟩
    | some v =>
      constructor
      · intro h
        obtain ⟨rest, hrest, h⟩ := Steps.bind_eq_ok_iff.1 h
        cases h
        rw [← hothers, (ih hdistinct).1 hrest]
        rfl
      · intro h
        cases values with
        | nil => cases h
        | cons w values =>
          obtain ⟨hw, hrest⟩ := List.cons.inj h
          cases hw
          rw [← hothers] at hrest
          dsimp only
          rw [(ih hdistinct).2 hrest]
          rfl

end PgClient.Placeholder
