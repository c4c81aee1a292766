/-
  PgClient.Proofs.Placeholder.Naming

  Named arguments and their placeholders. A text is its pieces as they were
  spelled, and every placeholder of one name gets the number of its first; the
  value that is arranged under that number is the one given for the name.
-/
import Mathlib.Data.List.Induction
import PgClient.Proofs.Placeholder.Numbering
import PgClient.Proofs.Placeholder.Scan

namespace PgClient.Placeholder

open Steps

/-! ## Spelling -/

/-- A text spells some pieces: plain characters stand for themselves, and placeholders are written
as their style writes them. -/
inductive Spells (style : Style) : List Char → List Piece → Prop
  | nil : Spells style [] []
  | plain {text : List Char} {ps : List Piece} (c : Char) (rest : Spells style text ps) :
    Spells style (c :: text) (.plain c :: ps)
  | number {text : List Char} {ps : List Piece} (marks : style = .numeric)
    (rest : Spells style text ps) : Spells style (':' :: text) (.plain '$' :: ps)
  | question {text : List Char} {ps : List Piece} (marks : style = .qmark)
    (rest : Spells style text ps) : Spells style ('?' :: text) (.positional :: ps)
  | percent {text : List Char} {ps : List Piece} (marks : style = .format ∨ style = .pyformat)
    (rest : Spells style text ps) : Spells style ('%' :: '%' :: text) (.plain '%' :: ps)
  | value {text : List Char} {ps : List Piece} (marks : style = .format ∨ style = .pyformat)
    (rest : Spells style text ps) : Spells style ('%' :: 's' :: text) (.positional :: ps)
  /-- A name after a colon goes on as far as it can. -/
  | colon {name text : List Char} {ps : List Piece} (marks : style = .named)
    (isName : IsName name) (ends : text.head?.any isIdent = false)
    (rest : Spells style text ps) : Spells style (':' :: (name ++ text)) (.named name :: ps)
  | parens {name text : List Char} {ps : List Piece} (marks : style = .pyformat)
    (inside : ')' ∉ name) (rest : Spells style text ps) :
    Spells style ('%' :: '(' :: (name ++ ')' :: 's' :: text)) (.named name :: ps)

/-- What the scan has read and not given yet. -/
def Mode.pending : Mode → List Char
  | .name read => ':' :: read.reverse
  | .parens _ read => '%' :: '(' :: read.reverse
  | _ => []

/-- What holds of a placeholder that the scan is in, before some text. -/
def Mode.Awaits (style : Style) (text : List Char) : Mode → Prop
  | .name read => style = .named ∧ ∃ c rest, text = c :: rest ∧ IsName (read.reverse ++ [c])
  | .parens _ read => style = .pyformat ∧ ')' ∉ read
  | _ => True

/-- The characters that are left after a step. -/
def Taken.left (taken : Taken) (rest : List Char) : List Char :=
  if taken.pair then rest.tail else rest

theorem IsName.snoc {name : List Char} {d : Char} (h : IsName name) (hd : isIdent d = true) :
    IsName (name ++ [d]) := by
  cases name with
  | nil => exact h.elim
  | cons c name =>
    refine ⟨h.1, ?_⟩
    show (name ++ [d]).all isIdent = true
    rw [List.all_append, h.2]
    simp [hd]

/-- A step that the text after it goes on from. -/
def Taken.Spells (style : Style) (mode : Mode) (c : Char) (rest : List Char) (taken : Taken) :
    Prop :=
  taken.mode.Awaits style (taken.left rest) ∧
    ∀ ps, Placeholder.Spells style (taken.mode.pending ++ taken.left rest) ps →
      Placeholder.Spells style (mode.pending ++ c :: rest) (taken.pieces ++ ps)

section Steps

variable {style : Style} {mode next : Mode} {behind : Behind} {offset : Nat} {c d : Char}
  {rest : List Char} {taken : Taken}

/-- A mode in which every character is given at once. -/
structure Mode.Prompt (mode : Mode) : Prop where
  pending : mode.pending = []
  awaits (style : Style) (text : List Char) : mode.Awaits style text

theorem prompt_outside : Mode.outside.Prompt := ⟨rfl, fun _ _ => trivial⟩

theorem prompt_comment : Mode.comment.Prompt := ⟨rfl, fun _ _ => trivial⟩

theorem prompt_quoted {quote : Char} (h : mode.quote? = some quote) : mode.Prompt := by
  cases mode with
  | literal | identifier | escaped => exact ⟨rfl, fun _ _ => trivial⟩
  | outside | comment | name | parens => cases h

/-- One character that is taken for itself. -/
theorem spells_one (hmode : mode.Prompt) (hnext : next.Prompt) :
    Taken.Spells style mode c rest (.one (.plain c) next) := by
  refine ⟨hnext.awaits style _, fun ps h => ?_⟩
  rw [hmode.pending]
  change Spells style (next.pending ++ rest) ps at h
  rw [hnext.pending] at h
  exact .plain c h

/-- Two characters that are taken for themselves. -/
theorem spells_two (hmode : mode.Prompt) (hnext : next.Prompt) (hd : rest.head? = some d) :
    Taken.Spells style mode c rest (.two [.plain c, .plain d] next) := by
  refine ⟨hnext.awaits style _, fun ps h => ?_⟩
  rw [hmode.pending, ← List.cons_head?_tail hd]
  change Spells style (next.pending ++ rest.tail) ps at h
  rw [hnext.pending] at h
  exact .plain c (.plain d h)

/-- At a colon outside, where a name may begin. -/
theorem spells_colon (h : take style behind offset ':' rest.head? .outside = .ok taken) :
    taken.Spells style .outside ':' rest := by
  simp only [take, Char.reduceEq, reduceIte, decide_false, decide_true, Bool.false_and,
    Bool.true_and, Bool.false_eq_true] at h
  split at h
  · split at h
    · cases h
      split
      · exact ⟨trivial, fun ps => .number rfl⟩
      · exact spells_one prompt_outside prompt_outside
    · rename_i next d hd
      cases h
      split
      -- A name is read from here on, and nothing is given before its end.
      · rename_i hbegins
        exact ⟨⟨rfl, d, rest.tail, (List.cons_head?_tail hd).symm, hbegins, rfl⟩, fun ps h => h⟩
      · exact spells_one prompt_outside prompt_outside
    · cases h
      exact spells_one prompt_outside prompt_outside
  · cases h
    exact spells_one prompt_outside prompt_outside

/-- At a percent sign outside, which must mean something in some styles. -/
theorem spells_percent (h : take style behind offset '%' rest.head? .outside = .ok taken) :
    taken.Spells style .outside '%' rest := by
  simp only [take, Char.reduceEq, reduceIte, decide_false, decide_true, Bool.false_and,
    Bool.true_and, Bool.false_eq_true] at h
  split at h
  · rename_i hstyle
    have hmarks : style = .format ∨ style = .pyformat :=
      (Bool.or_eq_true_iff.1 hstyle).imp of_decide_eq_true of_decide_eq_true
    split at h
    · rename_i hd
      cases h
      refine ⟨trivial, fun ps hps => ?_⟩
      rw [← List.cons_head?_tail hd]
      exact .percent hmarks hps
    · rename_i hd
      cases h
      refine ⟨trivial, fun ps hps => ?_⟩
      rw [← List.cons_head?_tail hd]
      exact .value hmarks hps
    · rename_i hd
      split at h
      · rename_i hpyformat
        cases h
        refine ⟨⟨hpyformat, List.not_mem_nil⟩, fun ps hps => ?_⟩
        rw [← List.cons_head?_tail hd]
        exact hps
      · cases h
    · cases h
  · cases h
    exact spells_one prompt_outside prompt_outside

/-- Outside, where placeholders begin. -/
theorem spells_outside (h : take style behind offset c rest.head? .outside = .ok taken) :
    taken.Spells style .outside c rest := by
  by_cases colon : c = ':'
  · subst colon
    exact spells_colon h
  by_cases percent : c = '%'
  · subst percent
    exact spells_percent h
  unfold take at h
  dsimp only at h
  split at h
  · cases h
    refine spells_one prompt_outside ?_
    split
    · exact prompt_quoted rfl
    · exact prompt_quoted rfl
  split at h
  · cases h
    exact spells_one prompt_outside (prompt_quoted rfl)
  split at h
  · rename_i hdashes
    obtain ⟨hc, hd⟩ := Bool.and_eq_true_iff.1 hdashes
    obtain rfl := of_decide_eq_true hc
    cases h
    exact spells_two prompt_outside prompt_comment (of_decide_eq_true hd)
  split at h
  · rename_i hmark
    obtain ⟨hc, hstyle⟩ := Bool.and_eq_true_iff.1 hmark
    obtain rfl := of_decide_eq_true hc
    cases h
    exact ⟨trivial, fun ps => .question (of_decide_eq_true hstyle)⟩
  -- Neither a colon nor a percent sign is left.
  rw [decide_eq_false colon, decide_eq_false percent, Bool.false_and, Bool.false_and,
    if_neg Bool.false_ne_true, if_neg Bool.false_ne_true] at h
  cases h
  exact spells_one prompt_outside prompt_outside

/-- In a comment, up to its end. -/
theorem spells_comment (h : take style behind offset c rest.head? .comment = .ok taken) :
    taken.Spells style .comment c rest := by
  rw [take] at h
  cases h
  refine spells_one prompt_comment ?_
  split
  · exact prompt_outside
  · exact prompt_comment

/-- In quotes, where a character may go with the next one. -/
theorem spells_quoted {quote : Char} (hquote : mode.quote? = some quote)
    (h : take style behind offset c rest.head? mode = .ok taken) :
    taken.Spells style mode c rest := by
  have hmode := prompt_quoted hquote
  by_cases hc : c = quote
  · rw [hc, take_quote hquote] at h
    cases h
    rw [hc]
    split
    · rename_i hd
      exact spells_two hmode hmode hd
    · exact spells_one hmode prompt_outside
  by_cases hbackslash : mode = .escaped ∧ c = '\\'
  · obtain ⟨rfl, rfl⟩ := hbackslash
    unfold take at h
    dsimp only at h
    rw [if_pos rfl] at h
    split at h
    · rename_i d hd
      cases h
      exact spells_two hmode hmode hd
    · cases h
      exact spells_one hmode hmode
  · rw [take_quoted hquote hc fun hmode hc => hbackslash ⟨hmode, hc⟩] at h
    cases h
    exact spells_one hmode hmode

/-- In a name after a colon, which ends where no next character can be one of it. -/
theorem spells_name {read : List Char}
    (h : take style behind offset c rest.head? (.name read) = .ok taken)
    (hawaits : (Mode.name read).Awaits style (c :: rest)) :
    taken.Spells style (.name read) c rest := by
  obtain ⟨hstyle, c', rest', htext, hname⟩ := hawaits
  obtain ⟨rfl, rfl⟩ := List.cons.inj htext
  have hpending (text : List Char) : (Mode.name (c :: read)).pending ++ text =
      (Mode.name read).pending ++ c :: text := by
    simp [Mode.pending]
  rw [take] at h
  cases h
  split
  · rename_i hany
    obtain ⟨d, hd, hident⟩ := (Option.any_eq_true _ _).1 hany
    refine ⟨⟨hstyle, d, rest.tail, (List.cons_head?_tail hd).symm, ?_⟩, fun ps hps => ?_⟩
    · rw [List.reverse_cons]
      exact hname.snoc hident
    · rw [← hpending]
      exact hps
  · rename_i hends
    refine ⟨trivial, fun ps hps => ?_⟩
    rw [← hpending]
    rw [← List.reverse_cons] at hname
    exact .colon hstyle hname (Bool.eq_false_iff.2 hends) hps

/-- In a name in parentheses. -/
theorem spells_parens {start : Nat} {read : List Char}
    (h : take style behind offset c rest.head? (.parens start read) = .ok taken)
    (hawaits : (Mode.parens start read).Awaits style (c :: rest)) :
    taken.Spells style (.parens start read) c rest := by
  obtain ⟨hstyle, hread⟩ := hawaits
  unfold take at h
  dsimp only at h
  split at h
  · rename_i hc
    split at h
    · rename_i hd
      cases h
      refine ⟨trivial, fun ps hps => ?_⟩
      rw [hc, ← List.cons_head?_tail hd]
      exact .parens hstyle (by rwa [List.mem_reverse]) hps
    · cases h
  · rename_i hc
    cases h
    refine ⟨⟨hstyle, ?_⟩, fun ps hps => ?_⟩
    · rw [List.mem_cons, not_or]
      exact ⟨Ne.symm hc, hread⟩
    · change Spells style ('%' :: '(' :: ((c :: read).reverse ++ rest)) ps at hps
      rw [List.reverse_cons, List.append_assoc] at hps
      exact hps

end Steps

theorem spells_take {style : Style} {mode : Mode} {behind : Behind} {offset : Nat} {c : Char}
    {rest : List Char} {taken : Taken}
    (h : take style behind offset c rest.head? mode = .ok taken)
    (hawaits : mode.Awaits style (c :: rest)) : taken.Spells style mode c rest := by
  cases mode with
  | outside => exact spells_outside h
  | literal | identifier | escaped => exact spells_quoted rfl h
  | comment => exact spells_comment h
  | name read => exact spells_name h hawaits
  | parens start read => exact spells_parens h hawaits

/-- The scan goes on from what it has read and not given yet. -/
theorem spells_scan {style : Style} {mode : Mode} {behind : Behind} {offset : Nat}
    {text : List Char} {ps : List Piece} (h : scan style mode behind offset text = .ok ps)
    (hawaits : mode.Awaits style text) : Spells style (mode.pending ++ text) ps := by
  induction mode, behind, offset, text using scan.induct generalizing ps with
  | case1 => cases h
  | case2 mode behind offset hmode =>
    cases mode with
    | parens start read => exact absurd rfl (hmode start read)
    | name read =>
      obtain ⟨-, c, rest, htext, -⟩ := hawaits
      cases htext
    | _ =>
      cases h
      exact .nil
  | case3 mode behind offset c ih =>
    rw [scan] at h
    obtain ⟨taken, htake, h⟩ := bind_eq_ok_iff.1 h
    obtain ⟨rest, hrest, h⟩ := bind_eq_ok_iff.1 h
    cases h
    have hstep : taken.Spells style mode c [] := spells_take htake hawaits
    obtain ⟨hnext, hspells⟩ := hstep
    have hleft : taken.left [] = [] := by
      rw [Taken.left, List.tail_nil, ite_self]
    rw [hleft] at hnext hspells
    exact hspells rest (ih taken hrest hnext)
  | case4 mode behind offset c d others ihtwo ihone =>
    rw [scan] at h
    obtain ⟨taken, htake, h⟩ := bind_eq_ok_iff.1 h
    have hstep : taken.Spells style mode c (d :: others) := spells_take htake hawaits
    obtain ⟨hnext, hspells⟩ := hstep
    unfold Taken.left at hnext hspells
    by_cases pair : taken.pair = true
    · rw [if_pos pair] at h hnext hspells
      obtain ⟨rest, hrest, h⟩ := bind_eq_ok_iff.1 h
      cases h
      exact hspells rest (ihtwo taken hrest hnext)
    · rw [if_neg pair] at h hnext hspells
      obtain ⟨rest, hrest, h⟩ := bind_eq_ok_iff.1 h
      cases h
      exact hspells rest (ihone taken hrest hnext)

/-- A text spells the pieces that are found in it. -/
theorem spells_pieces {style : Style} {sql : List Char} {ps : List Piece}
    (h : pieces style sql = .ok ps) : Spells style sql ps :=
  spells_scan h trivial

/-- A colon marks no placeholder without a name. -/
theorem Spells.positional_notMem {text : List Char} {ps : List Piece}
    (h : Spells .named text ps) : .positional ∉ ps := by
  induction h with
  | nil => exact List.not_mem_nil
  | question marks => cases marks
  | value marks => cases marks <;> contradiction
  | plain | number | percent | colon | parens => simpa

/-! ## Places -/

section Places

variable {α : Type} [BEq α] [LawfulBEq α] (uses : List α)

/-- The numbers of items: each is the place of the item among the first uses. -/
def places : List Nat := uses.map fun a => uses.eraseDups.idxOf a + 1

variable {uses}

theorem mem_places_iff (h : uses.eraseDups.Nodup) {i : Nat} :
    i ∈ places uses ↔ 1 ≤ i ∧ i ≤ uses.eraseDups.length := by
  rw [places, List.mem_map]
  constructor
  · rintro ⟨a, ha, rfl⟩
    have := List.idxOf_lt_length_of_mem (List.mem_eraseDups.2 ha)
    omega
  · rintro ⟨hpos, hle⟩
    have hlt : i - 1 < uses.eraseDups.length := by omega
    refine ⟨uses.eraseDups[i - 1], List.mem_eraseDups.1 (List.getElem_mem hlt), ?_⟩
    rw [h.idxOf_getElem (i - 1) hlt]
    omega

/-- The places of some uses do not depend on those that follow. -/
theorem places_append (more : List α) :
    places (uses ++ more) =
      places uses ++ more.map fun a => (uses ++ more).eraseDups.idxOf a + 1 := by
  have hold : uses.map (fun a => (uses ++ more).eraseDups.idxOf a + 1) = places uses := by
    refine List.map_congr_left fun a ha => ?_
    rw [List.eraseDups_append, List.idxOf_append_of_mem (List.mem_eraseDups.2 ha)]
  rw [places, List.map_append, hold]

/-- An item that is used for the first time gets the next place. -/
theorem idxOf_first {a : α} (h : a ∉ uses) (more : List α) :
    (uses ++ a :: more).eraseDups.idxOf a = uses.eraseDups.length := by
  have hcontains : uses.contains a = false := by
    rw [List.contains_eq_mem, decide_eq_false_iff_not]
    exact h
  rw [List.eraseDups_append, List.cons_removeAll, if_pos hcontains, List.eraseDups_cons,
    List.idxOf_append_of_notMem (mt List.mem_eraseDups.1 h), List.idxOf_cons_self, Nat.add_zero]

/-- The largest place is the number of items. -/
theorem foldl_max_places : (places uses).foldl max 0 = uses.eraseDups.length := by
  induction uses using List.reverseRecOn with
  | nil => rfl
  | append_singleton uses a ih =>
    rw [places_append, List.foldl_append, ih, List.map_singleton, List.foldl_cons, List.foldl_nil]
    by_cases ha : a ∈ uses
    · have hplace := List.idxOf_lt_length_of_mem (List.mem_eraseDups.2 ha)
      rw [eraseDups_append_singleton, if_pos ha]
      omega
    · rw [idxOf_first ha, eraseDups_append_singleton, if_neg ha, List.length_append,
        List.length_singleton]
      omega

/-- A place that was not given out before is the next after the largest. -/
theorem place_fresh {before after : List Nat} {i : Nat} (h : places uses = before ++ i :: after)
    (hi : i ∉ before) : i = before.foldl max 0 + 1 := by
  obtain ⟨old, rest, rfl, hold, hrest⟩ := List.map_eq_append_iff.1 h
  obtain ⟨a, more, rfl, hplace, -⟩ := List.map_eq_cons_iff.1 hrest
  -- The uses before this one have their places from themselves.
  have hbefore : places old = before := by
    have hlength : (places old).length = before.length := by
      rw [← hold, places, List.length_map, List.length_map]
    rw [places_append] at h
    exact (List.append_inj h hlength).1
  have hnew : a ∉ old := by
    intro ha
    rw [← hold, ← hplace] at hi
    exact hi (List.mem_map_of_mem ha)
  rw [← hplace, idxOf_first hnew, ← hbefore, foldl_max_places]

end Places

/-! ## Names and numbers -/

/-- The text that some numbers give to the placeholders of its pieces, from the left. -/
def emitted : List Nat → List Piece → List Char
  | _, [] => []
  | numbers, .plain c :: rest => c :: emitted numbers rest
  | n :: numbers, _ :: rest => numbered n ++ emitted numbers rest
  | [], _ :: rest => emitted [] rest

/-- Where all placeholders have names, their numbers are the places of the names. -/
theorem filled_eq_emitted {ps : List Piece} (h : .positional ∉ ps) (names : List (List Char))
    (count : Nat) :
    filled names count ps =
      emitted ((ps.filterMap Piece.name?).map fun name => names.idxOf name + 1) ps := by
  induction ps with
  | nil => rfl
  | cons p rest ih =>
    have hrest := ih fun hmem => h (List.mem_cons_of_mem _ hmem)
    cases p with
    | plain c => exact congrArg (c :: ·) hrest
    | positional => exact absurd List.mem_cons_self h
    | named name => exact congrArg (numbered (names.idxOf name + 1) ++ ·) hrest

/-- No name is found twice. -/
theorem nodup_names (ps : List Piece) : (names ps).Nodup := by
  have hnodup := nodup_render {} ps List.nodup_nil
  rw [names_render {} ps [] rfl] at hnodup
  exact hnodup

theorem eraseDups_map_ofList (as : List (List Char)) :
    (as.map String.ofList).eraseDups = as.eraseDups.map String.ofList := by
  induction as using List.reverseRecOn with
  | nil => rfl
  | append_singleton as a ih =>
    have hmem : String.ofList a ∈ as.map String.ofList ↔ a ∈ as :=
      List.mem_map_of_injective fun _ _ => String.ofList_injective
    rw [List.map_append, List.map_singleton, eraseDups_append_singleton, ih,
      eraseDups_append_singleton]
    by_cases ha : a ∈ as
    · rw [if_pos ha, if_pos (hmem.2 ha)]
    · rw [if_neg ha, if_neg (mt hmem.1 ha), List.map_append, List.map_singleton]

theorem idxOf_map_ofList (as : List (List Char)) (a : List Char) :
    (as.map String.ofList).idxOf (String.ofList a) = as.idxOf a := by
  induction as with
  | nil => rfl
  | cons b as ih =>
    rw [List.map_cons, List.idxOf_cons, List.idxOf_cons, ih]
    by_cases hb : b = a
    · rw [hb, beq_self_eq_true, beq_self_eq_true]
    · rw [beq_false_of_ne hb, beq_false_of_ne (mt String.ofList_injective hb)]

/-- How the names of a text are numbered: `uses` are the names of its placeholders from the left,
and `numbers` what is written for them. -/
structure Numbered (style : Style) (sql text : String) (names : List String) (ps : List Piece)
    (uses : List String) (numbers : List Nat) : Prop where
  scanned : pieces style sql.toList = .ok ps
  spelled : Spells style sql.toList ps
  named : .positional ∉ ps
  used : uses = (ps.filterMap Piece.name?).map String.ofList
  written : text = String.ofList (emitted numbers ps)
  first : names = uses.eraseDups
  placed : numbers = uses.map fun name => names.idxOf name + 1
  range : ∀ i, i ∈ numbers ↔ 1 ≤ i ∧ i ≤ names.length
  fresh : ∀ before i after, numbers = before ++ i :: after → i ∉ before →
    i = before.foldl max 0 + 1

/-- A text that is converted with names numbers all of its placeholders by them. -/
theorem numbered_of_convert {style : Style} {sql text : String} {names : List String}
    (h : convert style sql = .ok (text, .named names)) :
    names.Nodup ∧ ∃ ps uses numbers, Numbered style sql text names ps uses numbers := by
  rw [convert_eq] at h
  obtain ⟨ps, hpieces, h⟩ := bind_eq_ok_iff.1 h
  obtain ⟨-, h⟩ := when_eq_ok_iff.1 h
  obtain ⟨htext, horder⟩ := Prod.mk.inj (Except.ok.inj h)
  have hspells := spells_pieces hpieces
  -- Only the styles with names order by them, and only where nothing is counted.
  have hnamed : .positional ∉ ps ∧ (Placeholder.names ps).map String.ofList = names := by
    unfold Known.order at horder
    dsimp only at horder
    split at horder
    · exact ⟨hspells.positional_notMem, Order.named.inj horder⟩
    · split at horder
      · rename_i hcount
        exact ⟨List.count_eq_zero.1 hcount, Order.named.inj horder⟩
      · cases horder
    · cases horder
  obtain ⟨hpositional, rfl⟩ := hnamed
  have hfirst : (Placeholder.names ps).map String.ofList =
      ((ps.filterMap Piece.name?).map String.ofList).eraseDups :=
    (eraseDups_map_ofList _).symm
  have hdistinct : ((Placeholder.names ps).map String.ofList).Nodup :=
    (nodup_names ps).map fun _ _ => String.ofList_injective
  refine ⟨hdistinct, ps, (ps.filterMap Piece.name?).map String.ofList, _, hpieces, hspells,
    hpositional, rfl, ?_, hfirst, rfl, ?_, ?_⟩
  · rw [← htext, filled_eq_emitted hpositional, List.map_map]
    refine congrArg (fun numbers => String.ofList (emitted numbers ps)) ?_
    exact List.map_congr_left fun name _ =>
      congrArg (· + 1) (idxOf_map_ofList (Placeholder.names ps) name).symm
  · intro i
    rw [hfirst] at hdistinct ⊢
    exact mem_places_iff hdistinct
  · intro before i after hsplit
    rw [hfirst] at hsplit
    exact place_fresh hsplit

/-! ## Arguments -/

/-- Some names have values where each of them has one. -/
theorem exists_values_iff {entries : List (String × Value)} {names : List String} :
    (∃ values : List Value, names.map (fun name => entries.lookup name) = values.map some) ↔
      ∀ name ∈ names, ∃ v, entries.lookup name = some v := by
  constructor
  · rintro ⟨values, hvalues⟩ name hname
    have hmem : entries.lookup name ∈ values.map some :=
      hvalues ▸ List.mem_map_of_mem hname
    obtain ⟨v, -, hv⟩ := List.mem_map.1 hmem
    exact ⟨v, hv.symm⟩
  · intro hall
    induction names with
    | nil => exact ⟨[], rfl⟩
    | cons name names ih =>
      obtain ⟨v, hv⟩ := hall name List.mem_cons_self
      obtain ⟨values, hvalues⟩ := ih fun other hother => hall other (List.mem_cons_of_mem _ hother)
      refine ⟨v :: values, ?_⟩
      rw [List.map_cons, List.map_cons, hv, hvalues]

/-- The value at the place of a name is its own. -/
theorem value_at {entries : List (String × Value)} {names : List String} {values : List Value}
    (h : names.map (fun name => entries.lookup name) = values.map some) {name : String}
    (hname : name ∈ names) :
    ∃ v, entries.lookup name = some v ∧ values[names.idxOf name]? = some v := by
  have hplace := congrArg (fun items => items[names.idxOf name]?) h
  simp only [List.getElem?_map, List.getElem?_idxOf hname, Option.map_some] at hplace
  cases hv : values[names.idxOf name]? with
  | none =>
    rw [hv] at hplace
    cases hplace
  | some v =>
    rw [hv, Option.map_some] at hplace
    exact ⟨v, Option.some.inj hplace, rfl⟩

/-- For every text that is converted with names: no name is listed twice, the placeholders are
numbered by the places of their names, and arguments are arranged just where all names have one;
then every placeholder's number is that of the value given for its name. -/
theorem named_values_placed {style : Style} {sql text : String} {names : List String}
    (h : convert style sql = .ok (text, .named names)) :
    names.Nodup ∧
      ∃ ps uses numbers, Numbered style sql text names ps uses numbers ∧
        ∀ entries : List (String × Value),
          ((∃ values, (Order.named names).arrange (.named entries) = .ok values) ↔
            ∀ name ∈ names, ∃ v, entries.lookup name = some v) ∧
          ∀ values, (Order.named names).arrange (.named entries) = .ok values →
            values.length = names.length ∧
              List.Forall₂ (fun name n => ∃ v, entries.lookup name = some v ∧
                values[n - 1]? = some v) uses numbers := by
  obtain ⟨hdistinct, ps, uses, numbers, hnumbered⟩ := numbered_of_convert h
  refine ⟨hdistinct, ps, uses, numbers, hnumbered, fun entries => ⟨?_, fun values hvalues => ?_⟩⟩
  · rw [← exists_values_iff]
    exact exists_congr fun values => collect_eq_ok_iff hdistinct
  · have hlookup := (collect_eq_ok_iff hdistinct).1 hvalues
    have hlength := congrArg List.length hlookup
    rw [List.length_map, List.length_map] at hlength
    refine ⟨hlength.symm, ?_⟩
    rw [hnumbered.placed, List.forall₂_map_right_iff, List.forall₂_same]
    intro name hname
    -- Every name that is used is listed.
    have hlisted : name ∈ names := by
      rw [hnumbered.first]
      exact List.mem_eraseDups.2 hname
    exact value_at hlookup hlisted

/-- Two names, of which one is used twice, beside a literal, a cast and a comment. -/
theorem named_values_placed_repeated :
    convert .named ":b ':c' :a::int -- :d\n:b" =
        .ok ("$1 ':c' $2::int -- :d\n$1", .named ["b", "a"]) ∧
      ["b", "a"].Nodup ∧
        ∃ ps uses numbers, Numbered .named ":b ':c' :a::int -- :d\n:b"
            "$1 ':c' $2::int -- :d\n$1" ["b", "a"] ps uses numbers ∧
          ∀ entries : List (String × Value),
            ((∃ values, (Order.named ["b", "a"]).arrange (.named entries) = .ok values) ↔
              ∀ name ∈ ["b", "a"], ∃ v, entries.lookup name = some v) ∧
            ∀ values, (Order.named ["b", "a"]).arrange (.named entries) = .ok values →
              values.length = ["b", "a"].length ∧
                List.Forall₂ (fun name n => ∃ v, entries.lookup name = some v ∧
                  values[n - 1]? = some v) uses numbers := by
  have hconvert : convert .named ":b ':c' :a::int -- :d\n:b" =
      .ok ("$1 ':c' $2::int -- :d\n$1", .named ["b", "a"]) := by decide +kernel
  exact ⟨hconvert, named_values_placed hconvert⟩

end PgClient.Placeholder
